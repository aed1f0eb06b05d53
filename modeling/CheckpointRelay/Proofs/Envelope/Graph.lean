/-
  CheckpointRelay.Proofs.Envelope.Graph — a mesh is the complete graph of its names.

  The names are the trimmed components at their first occurrences. They are determined by that,
  so lists whose names first occur in the same order have the same mesh, however often and with
  whatever padding a name is listed. Between two names there is a link exactly when they differ:
  the graph has no loops, every link goes both ways, and none is missing. As that depends on the
  set of the names alone, so do the links.
  - `FirstOccurrences.unique`: a list has one list of names.
  - `mesh_error_iff` / `mesh_fault_iff`: when there is no mesh.
  - `Links.linked_iff`: what is linked in a mesh.
  - `meshes_are_complete_graphs`: all of it, and the order of the keys.
-/

import CheckpointRelay.Proofs.Envelope.Links
import CheckpointRelay.Proofs.Json.KeyOrder

namespace CheckpointRelay.Envelope

variable {names components : List String} {m : DependencyMap}

/-! ## (1) Names -/

theorem FirstOccurrences.unique {listed a b : List String} (ha : FirstOccurrences listed a)
    (hb : FirstOccurrences listed b) : a = b := by
  have hperm : a.Perm b :=
    (List.perm_ext_iff_of_nodup ha.nodup hb.nodup).mpr fun name => (ha.mem name).trans (hb.mem name).symm
  refine hperm.eq_of_pairwise ?_ ha.order hb.order
  intro x y _ _ hxy hyx
  omega

theorem distinct_eq {listed : List String} (h : FirstOccurrences listed names) : distinct listed = names :=
  (distinct_firstOccurrences listed).unique h

/-- Lists of the same names have as many of them. -/
theorem length_distinct {listed others : List String} (h : ∀ name, name ∈ others ↔ name ∈ listed) :
    (distinct others).length = (distinct listed).length := by
  have hperm : (distinct others).Perm (distinct listed) := by
    refine (List.perm_ext_iff_of_nodup (distinct_firstOccurrences _).nodup (distinct_firstOccurrences _).nodup).mpr ?_
    intro name
    rw [mem_distinct, mem_distinct, h]
  exact hperm.length_eq

/-! ## (2) Refusals -/

/-- A blank name is found before it is found that there are too few names. -/
theorem mesh_error_iff {e : MeshError} :
    mesh components = .error e ↔
      "" ∈ components.map Text.trim ∧ e = .blankName ∨
      "" ∉ components.map Text.trim ∧ (distinct (components.map Text.trim)).length < 2 ∧ e = .tooFew := by
  have hblank : (distinct (components.map Text.trim)).contains "" = true ↔ "" ∈ components.map Text.trim := by
    rw [List.contains_iff_mem, mem_distinct]
  simp only [mesh, hblank]
  by_cases hempty : "" ∈ components.map Text.trim
  · simp only [hempty, if_true, not_true, true_and, false_and, or_false, Except.error.injEq, eq_comm]
  · by_cases hfew : (distinct (components.map Text.trim)).length < 2
    · simp only [hempty, hfew, if_true, if_false, not_false_iff, true_and, false_and, false_or, Except.error.injEq,
        eq_comm]
    · simp only [hempty, hfew, if_false, false_and, and_false, or_false, reduceCtorEq]

/-- The refusals in the words of the fault. -/
theorem mesh_fault_iff {fault : Fault} :
    (mesh components).mapError MeshError.fault = .error fault ↔
      (∃ name ∈ components, Text.trim name = "") ∧
        fault = .validation "Component names must not be empty" (some "components") ∨
      (∀ name ∈ components, Text.trim name ≠ "") ∧ (distinct (components.map Text.trim)).length < 2 ∧
        fault = .validation "At least two distinct components are needed to form a dependency" (some "components") := by
  have hfault : (mesh components).mapError MeshError.fault = .error fault ↔
      ∃ e, mesh components = .error e ∧ fault = e.fault := by
    cases mesh components with
    | error e => simp [Except.mapError, eq_comm]
    | ok m => simp [Except.mapError]
  have hempty : (∃ name ∈ components, Text.trim name = "") ↔ "" ∈ components.map Text.trim := List.mem_map.symm
  have hnamed : (∀ name ∈ components, Text.trim name ≠ "") ↔ "" ∉ components.map Text.trim := by
    rw [← hempty]
    push Not
    rfl
  rw [hfault, hempty, hnamed]
  constructor
  · rintro ⟨e, he, rfl⟩
    rcases mesh_error_iff.mp he with ⟨hblank, rfl⟩ | ⟨hblank, hfew, rfl⟩
    · exact Or.inl ⟨hblank, rfl⟩
    · exact Or.inr ⟨hblank, hfew, rfl⟩
  · rintro (⟨hblank, rfl⟩ | ⟨hblank, hfew, rfl⟩)
    · exact ⟨.blankName, mesh_error_iff.mpr (Or.inl ⟨hblank, rfl⟩), rfl⟩
    · exact ⟨.tooFew, mesh_error_iff.mpr (Or.inr ⟨hblank, hfew, rfl⟩), rfl⟩

/-- Whether there is a mesh depends on the set of the names alone. -/
theorem mesh_error_congr {others : List String}
    (h : ∀ name, name ∈ others.map Text.trim ↔ name ∈ components.map Text.trim) (e : MeshError) :
    mesh others = .error e ↔ mesh components = .error e := by
  rw [mesh_error_iff, mesh_error_iff, h "", length_distinct h]

theorem mesh_congr {others : List String}
    (h : distinct (others.map Text.trim) = distinct (components.map Text.trim)) : mesh others = mesh components := by
  simp only [mesh, h]

/-! ## (3) Links -/

/-- The first name is linked with the second one. -/
def Linked (m : DependencyMap) (a b : String) : Prop := ∃ others, (a, others) ∈ m ∧ b ∈ others

/-- Every name is linked with all others, and with nothing else. -/
theorem Links.linked_iff (h : Links names names m) {a b : String} :
    Linked m a b ↔ a ∈ names ∧ b ∈ names ∧ a ≠ b := by
  constructor
  · rintro ⟨others, hmem, hb⟩
    have ha : a ∈ names := (h.keys a).mp (List.mem_map_of_mem hmem)
    have hothers : others = names.filter (· ≠ a) := h.others _ hmem
    rw [hothers, List.mem_filter, decide_eq_true_eq] at hb
    exact ⟨ha, hb.1, hb.2.symm⟩
  · rintro ⟨ha, hb, hne⟩
    exact h.mem ha hb hne

/-- A link goes both ways. -/
theorem Links.linked_symm (h : Links names names m) {a b : String} : Linked m a b ↔ Linked m b a := by
  rw [h.linked_iff, h.linked_iff]
  constructor <;> rintro ⟨ha, hb, hne⟩ <;> exact ⟨hb, ha, hne.symm⟩

theorem mesh_keyOrder (h : mesh components = .ok m) :
    Keyed.KeyOrder (distinct (components.map Text.trim)) (m.map (·.1)) := by
  obtain ⟨-, rfl⟩ := mesh_ofPairs h
  have hnodup : ((distinct (components.map Text.trim)).map fun name =>
      (name, (distinct (components.map Text.trim)).filter (· ≠ name))).map (·.1) |>.Nodup := by
    rw [keys_pairs]
    exact (distinct_firstOccurrences _).nodup
  have horder := Keyed.keyOrder_ofPairs hnodup
  rwa [keys_pairs] at horder

/-- Every list of components makes the complete graph of its names, if none of them is empty and
    there are two of them; a refusal tells of the empty name first. The keys are the names in the
    order of object members, each with all others as they first occur. A name has no link to
    itself, every link goes both ways, and any two names are linked. What is linked depends on the
    set of the names alone, and the whole map on the order in which they first occur. -/
theorem meshes_are_complete_graphs (components : List String) :
    ∃ names, FirstOccurrences (components.map Text.trim) names ∧
      (∀ fault, (mesh components).mapError MeshError.fault = .error fault ↔
        (∃ name ∈ components, Text.trim name = "") ∧
          fault = .validation "Component names must not be empty" (some "components") ∨
        (∀ name ∈ components, Text.trim name ≠ "") ∧ names.length < 2 ∧ fault = .validation
          "At least two distinct components are needed to form a dependency" (some "components")) ∧
      (∀ m, mesh components = .ok m →
        (m.map (·.1)).Nodup ∧ Keyed.KeyOrder names (m.map (·.1)) ∧
        (∀ p ∈ m, p.2 = names.filter (· ≠ p.1) ∧ p.1 ∉ p.2 ∧ p.2.Nodup) ∧
        (∀ a b, Linked m a b ↔ a ∈ names ∧ b ∈ names ∧ a ≠ b) ∧
        (∀ a b, Linked m a b ↔ Linked m b a)) ∧
      (∀ others, (∀ name, name ∈ others.map Text.trim ↔ name ∈ components.map Text.trim) →
        (∀ e, mesh others = .error e ↔ mesh components = .error e) ∧
        ∀ m m', mesh components = .ok m → mesh others = .ok m' → ∀ a b, Linked m a b ↔ Linked m' a b) ∧
      ∀ others, FirstOccurrences (others.map Text.trim) names → mesh others = mesh components := by
  have hnames := distinct_firstOccurrences (components.map Text.trim)
  refine ⟨_, hnames, fun fault => mesh_fault_iff, fun m h => ?_, fun others hsame => ?_, fun others hothers => ?_⟩
  · obtain ⟨hlinks, -, -⟩ := mesh_links h
    refine ⟨hlinks.once, mesh_keyOrder h, fun p hp => ?_, fun a b => hlinks.linked_iff, fun a b => hlinks.linked_symm⟩
    have hlist := hlinks.others p hp
    refine ⟨hlist, ?_, ?_⟩
    · rw [hlist]
      simp
    · rw [hlist]
      exact hnames.nodup.filter _
  · refine ⟨mesh_error_congr hsame, fun m m' h h' a b => ?_⟩
    obtain ⟨hlinks, -, -⟩ := mesh_links h
    obtain ⟨hlinks', -, -⟩ := mesh_links h'
    rw [hlinks.linked_iff, hlinks'.linked_iff]
    simp only [mem_distinct, hsame]
  · exact mesh_congr (distinct_eq hothers)

/-- Padding, a name twice and names that spell an index: the mesh of the names alone, in which
    the indices come first. -/
theorem a_mesh_listed_twice :
    let components := [" b ", "10", "9", "b\t", " 10"]
    let m : DependencyMap := [("9", ["b", "10"]), ("10", ["b", "9"]), ("b", ["10", "9"])]
    mesh components = .ok m ∧ Linked m "b" "9" ∧ Linked m "9" "b" ∧ ¬Linked m "b" "b" ∧
      mesh ["b", "10", "9"] = mesh components := by
  intro components m
  have hmesh : mesh components = .ok m := by decide +kernel
  obtain ⟨names, hnames, -, hgraph, -, hsame⟩ := meshes_are_complete_graphs components
  obtain ⟨-, -, -, hlinked, hsymm⟩ := hgraph m hmesh
  have hlist : names = ["b", "10", "9"] := hnames.unique (distinct_firstOccurrences _)
  subst hlist
  have hlink : Linked m "b" "9" := (hlinked "b" "9").mpr (by decide)
  exact ⟨hmesh, hlink, (hsymm "b" "9").mp hlink, fun hloop => absurd rfl ((hlinked "b" "b").mp hloop).2.2,
    hsame _ (distinct_firstOccurrences ["b", "10", "9"])⟩

end CheckpointRelay.Envelope
