/-
  CheckpointRelay.Proofs.Envelope.NormalForm — maps and their normal form.

  What is accepted is said of the value alone: an object, no key blank, every value a list of
  names. What becomes of it is a relation of its own: `Freed` takes the key out of its list and
  leaves all other names as they stand, `Reduced` does that member by member and passes over the
  reserved key. Names are compared as they are written, so a name with padding is no link to
  oneself; blankness alone goes by what is left of a name without its padding.
  - `freed_iff` / `reduced_iff`: every list and every map has one normal form.
  - `load_ok_iff`: what is accepted, and what it becomes.
  - `load_toJson`: a normal form is its own normal form.
  - `maps_have_one_normal_form`: all of it.
-/

import CheckpointRelay.Proofs.Envelope.Links

namespace CheckpointRelay.Envelope.DependencyMap

/-! ## (1) The normal form -/

/-- A list of names without the key it stands under; the other names stay, in their order. -/
inductive Freed (key : String) : List String → List String → Prop
  | nil : Freed key [] []
  | drop {names left : List String} : Freed key names left → Freed key (key :: names) left
  | keep {name : String} {names left : List String} : name ≠ key → Freed key names left →
      Freed key (name :: names) (name :: left)

/-- The members of a map without links to oneself; the reserved key is left out. -/
inductive Reduced : Keyed Json → DependencyMap → Prop
  | nil : Reduced [] []
  | reserved {v : Json} {members : Keyed Json} {m : DependencyMap} : Reduced members m →
      Reduced (("__proto__", v) :: members) m
  | member {key : String} {names left : List String} {members : Keyed Json} {m : DependencyMap} :
      key ≠ "__proto__" → Freed key names left → Reduced members m →
      Reduced ((key, .arr (names.map .str)) :: members) ((key, left) :: m)

theorem freed_iff {key : String} {names left : List String} : Freed key names left ↔ left = names.filter (· ≠ key) := by
  constructor
  · intro h
    induction h with
    | nil => rfl
    | drop _ ih => simp [ih]
    | keep hne _ ih => simp [hne, ih]
  · rintro rfl
    induction names with
    | nil => exact .nil
    | cons name names ih =>
      by_cases hkey : name = key
      · subst hkey
        simpa using ih.drop
      · simpa [hkey] using ih.keep hkey

theorem ofMembers_reserved (v : Json) (members : Keyed Json) :
    ofMembers (("__proto__", v) :: members) = ofMembers members := rfl

theorem ofMembers_cons {key : String} (h : key ≠ "__proto__") (v : Json) (members : Keyed Json) :
    ofMembers ((key, v) :: members) = (key, (names v).filter (· ≠ key)) :: ofMembers members := by
  have hkey : key ≠ reservedKey := h
  simp [ofMembers, hkey]

/-- Members that list names have one normal form. -/
theorem reduced_iff {members : Keyed Json} {m : DependencyMap} (h : ∀ p ∈ members, ListsNames p.2) :
    Reduced members m ↔ m = ofMembers members := by
  constructor
  · intro hm
    clear h
    induction hm with
    | nil => rfl
    | reserved _ ih => rw [ih, ofMembers_reserved]
    | @member key listed left _ _ hkey hleft _ ih =>
      have hlisted : names (.arr (listed.map .str)) = listed := names_ofStrings listed
      rw [ofMembers_cons hkey, hlisted, ih, freed_iff.mp hleft]
  · rintro rfl
    induction members with
    | nil => exact .nil
    | cons p members ih =>
      obtain ⟨key, v⟩ := p
      obtain ⟨⟨listed, hv, -⟩, hmembers⟩ := List.forall_mem_cons.mp h
      simp only at hv
      by_cases hkey : key = "__proto__"
      · subst hkey
        exact (ih hmembers).reserved
      · subst hv
        rw [ofMembers_cons hkey, names_ofStrings]
        exact .member hkey (freed_iff.mpr rfl) (ih hmembers)

/-! ## (2) What is accepted -/

theorem parse_ok_iff {v : Json} {m : DependencyMap} :
    parse v = .ok m ↔ ∃ members, v = .obj members ∧ issues v = [] ∧ m = ofMembers members := by
  unfold parse
  split
  · rename_i members hissues
    simp [hissues, eq_comm]
  · rename_i hother
    constructor
    · intro h
      cases h
    · rintro ⟨members, rfl, hissues, -⟩
      exact absurd hissues (hother members rfl)

theorem load_eq_ok_iff {v : Json} {m : DependencyMap} : load v = .ok m ↔ parse v = .ok m := by
  unfold load
  cases parse v <;> simp [Except.mapError]

/-- An object is accepted when no key is blank and every value lists names, and it becomes its normal form. -/
theorem load_ok_iff {v : Json} {m : DependencyMap} :
    load v = .ok m ↔ ∃ members, v = .obj members ∧
      (∀ p ∈ members, Text.allBlank p.1 = false ∧ ListsNames p.2) ∧ Reduced members m := by
  rw [load_eq_ok_iff, parse_ok_iff]
  constructor
  · rintro ⟨members, rfl, hissues, rfl⟩
    obtain ⟨members', heq, hform⟩ := issues_eq_nil_iff.mp hissues
    cases heq
    exact ⟨members, rfl, hform, (reduced_iff fun p hp => (hform p hp).2).mpr rfl⟩
  · rintro ⟨members, rfl, hform, hm⟩
    exact ⟨members, rfl, issues_eq_nil_iff.mpr ⟨members, rfl, hform⟩, (reduced_iff fun p hp => (hform p hp).2).mp hm⟩

/-! ## (3) The normal form again -/

/-- The keys of a normal form are those of the members, as they stand, but for the reserved one. -/
theorem Reduced.keys {members : Keyed Json} {m : DependencyMap} (h : Reduced members m) :
    m.map (·.1) = (members.map (·.1)).filter (· ≠ "__proto__") := by
  induction h with
  | nil => rfl
  | reserved _ ih => simp [ih]
  | member hkey _ _ ih => simp [hkey, ih]

theorem Reduced.not_reserved {members : Keyed Json} {m : DependencyMap} (h : Reduced members m) :
    ∀ p ∈ m, p.1 ≠ "__proto__" := by
  intro p hp
  have hkey : p.1 ∈ m.map (·.1) := List.mem_map_of_mem hp
  rw [h.keys, List.mem_filter] at hkey
  simpa using hkey.2

theorem Reduced.inOrder {members : Keyed Json} {m : DependencyMap} (h : Reduced members m)
    (horder : Keyed.InOrder members) : Keyed.InOrder m := by
  rw [Keyed.InOrder, h.keys]
  exact List.Pairwise.sublist List.filter_sublist horder

/-- Nothing is taken from a normal form. -/
theorem load_toJson {v : Json} {m : DependencyMap} (h : load v = .ok m) : load m.toJson = .ok m := by
  obtain ⟨members, -, -, hm⟩ := load_ok_iff.mp h
  have hsound : m.Sound := parse_sound (load_eq_ok_iff.mp h)
  have hkept : (m.filter fun p => p.1 ≠ "__proto__") = m :=
    List.filter_eq_self.mpr fun p hp => decide_eq_true (hm.not_reserved p hp)
  rw [load_eq_ok_iff, parse_of_sound hsound, hkept]

/-- Exactly the maps are accepted: objects in which no key is blank and every value is an array of
    texts that are not blank. What is accepted becomes its one normal form, with its keys in their
    order but for the reserved one, and with all of each list but the key itself; that is a map in
    the order of object members again, has no link to oneself, and is its own normal form. -/
theorem maps_have_one_normal_form (v : Json) :
    ((∃ m, load v = .ok m) ↔ ∃ members, v = .obj members ∧ ∀ p ∈ members, Text.allBlank p.1 = false ∧
      ∃ names : List String, p.2 = .arr (names.map .str) ∧ ∀ name ∈ names, Text.allBlank name = false) ∧
    ∀ m, load v = .ok m →
      (∃ members, v = .obj members ∧ Reduced members m ∧
        m.map (·.1) = (members.map (·.1)).filter (· ≠ "__proto__")) ∧
      (v.InOrder → m.toJson.InOrder) ∧ (∀ p ∈ m, p.1 ∉ p.2) ∧ load m.toJson = .ok m := by
  constructor
  · constructor
    · rintro ⟨m, h⟩
      obtain ⟨members, hv, hform, -⟩ := load_ok_iff.mp h
      exact ⟨members, hv, hform⟩
    · rintro ⟨members, hv, hform⟩
      have hnormal : Reduced members (ofMembers members) := (reduced_iff fun p hp => (hform p hp).2).mpr rfl
      exact ⟨ofMembers members, load_ok_iff.mpr ⟨members, hv, hform, hnormal⟩⟩
  · intro m h
    obtain ⟨members, hv, -, hm⟩ := load_ok_iff.mp h
    have hsound : m.Sound := parse_sound (load_eq_ok_iff.mp h)
    refine ⟨⟨members, hv, hm, hm.keys⟩, fun horder => ?_, fun p hp hself => ?_, load_toJson h⟩
    · subst hv
      exact map_inOrder (hm.inOrder horder.1)
    · exact ((hsound p hp).2 p.1 hself).2 rfl

/-- An index for a key, the reserved key, and names that differ in their padding alone. -/
theorem a_map_with_links_to_oneself :
    let v : Json := .obj [("2", .arr [.str "c1", .str "2"]), ("__proto__", .arr [.str "2"]),
      ("c1", .arr [.str "c1", .str " c1", .str "2", .str "2"]), (" c1", .arr [.str "c1", .str " c1"])]
    let m : DependencyMap := [("2", ["c1"]), ("c1", [" c1", "2", "2"]), (" c1", ["c1"])]
    load v = .ok m ∧ m.toJson.InOrder ∧ load m.toJson = .ok m := by
  intro v m
  have hload : load v = .ok m := rfl
  obtain ⟨-, hnormal⟩ := maps_have_one_normal_form v
  obtain ⟨-, horder, -, hagain⟩ := hnormal m hload
  have hv : v.InOrder := by
    simp only [v, Json.InOrder, Json.MembersInOrder, Json.ItemsInOrder, and_true]
    decide
  exact ⟨hload, horder hv, hagain⟩

end CheckpointRelay.Envelope.DependencyMap
