/-
  CheckpointRelay.Proofs.Envelope.Defects — what a refused map is told to be wrong.

  A walk goes through the members of a value in their order, and through each of them from its
  key to its list, item by item. A place of the walk is a pair: which member, and where in it,
  0 for the key and `k + 1` for the item `k`; a value that is no list has the place 1. `Defect`
  says what is wrong at a place of a member and how that is told; it is said of the value alone.
  A report is a `Walk`: findings at places that grow (`Earlier`), every defect and nothing else.
  So none is left out, told twice or told out of order.
  - `walk_zipIdx`: reports of the parts of a list make the report of the list.
  - `walk_member` / `walk_members`: what the checks find in a member, and in all of them.
  - `refusals_tell_every_defect`: the message of a refused map.
-/

import CheckpointRelay.Proofs.Envelope.Language

namespace CheckpointRelay.Envelope.DependencyMap

/-! ## (1) Defects -/

/-- What is wrong with a member at one of its places, and its text in a message. -/
inductive Defect (m : String × Json) : Nat → String → Prop
  | blankKey : Text.allBlank m.1 = true → Defect m 0 (m.1 ++ ": Component names must not be empty")
  | noList : (∀ items, m.2 ≠ .arr items) → Defect m 1 (m.1 ++ ": Expected array, received " ++ m.2.shape.name)
  | noText {items : List Json} {k : Nat} {v : Json} : m.2 = .arr items → items[k]? = some v → (∀ s, v ≠ .str s) →
      Defect m (k + 1) (m.1 ++ "." ++ toString k ++ ": Expected string, received " ++ v.shape.name)
  | blankItem {items : List Json} {k : Nat} {name : String} : m.2 = .arr items → items[k]? = some (.str name) →
      Text.allBlank name = true → Defect m (k + 1) (m.1 ++ "." ++ toString k ++ ": Component names must not be empty")

/-- The order of a walk: member by member, and from the key of a member to its last item. -/
def Earlier (a b : Nat × Nat) : Prop := a.1 < b.1 ∨ a.1 = b.1 ∧ a.2 < b.2

/-- Findings in the order of their places: every defect, and nothing else. -/
structure Walk {α : Type} (before : α → α → Prop) (defect : α → String → Prop) (found : List (α × String)) : Prop where
  order : found.Pairwise fun a b => before a.1 b.1
  mem : ∀ place text, (place, text) ∈ found ↔ defect place text

/-! ## (2) Reports -/

section

variable {α β : Type} {before : β → β → Prop}

theorem Walk.append {first second : β → String → Prop} {xs ys : List (β × String)} (hx : Walk before first xs)
    (hy : Walk before second ys) (h : ∀ p s q t, first p s → second q t → before p q) :
    Walk before (fun p s => first p s ∨ second p s) (xs ++ ys) := by
  constructor
  · rw [List.pairwise_append]
    refine ⟨hx.order, hy.order, ?_⟩
    rintro ⟨p, s⟩ hp ⟨q, t⟩ hq
    exact h p s q t ((hx.mem p s).mp hp) ((hy.mem q t).mp hq)
  · intro p s
    rw [List.mem_append, hx.mem, hy.mem]

theorem pairwise_zipIdx (xs : List α) : xs.zipIdx.Pairwise fun a b => a.2 < b.2 := by
  have hplaces : (xs.zipIdx.map Prod.snd).Pairwise (· < ·) := by
    rw [List.zipIdx_map_snd]
    exact List.pairwise_lt_range'
  exact List.pairwise_map.mp hplaces

/-- One after the other, the reports of the parts of a list are the report of the list. -/
theorem walk_zipIdx {xs : List α} {report : α × Nat → List (β × String)} {defect : α × Nat → β → String → Prop}
    (hreport : ∀ x ∈ xs.zipIdx, Walk before (defect x) (report x))
    (hbefore : ∀ x y p s q t, x.2 < y.2 → defect x p s → defect y q t → before p q) :
    Walk before (fun p s => ∃ x ∈ xs.zipIdx, defect x p s) (xs.zipIdx.flatMap report) := by
  constructor
  · rw [List.pairwise_flatMap]
    refine ⟨fun x hx => (hreport x hx).order, (pairwise_zipIdx xs).imp_of_mem ?_⟩
    rintro x y hx hy hxy ⟨p, s⟩ hp ⟨q, t⟩ hq
    exact hbefore x y p s q t hxy (((hreport x hx).mem p s).mp hp) (((hreport y hy).mem q t).mp hq)
  · intro p s
    rw [List.mem_flatMap]
    constructor
    · rintro ⟨x, hx, hp⟩
      exact ⟨x, hx, ((hreport x hx).mem p s).mp hp⟩
    · rintro ⟨x, hx, hp⟩
      exact ⟨x, hx, ((hreport x hx).mem p s).mpr hp⟩

theorem Walk.congr {first second : β → String → Prop} {found : List (β × String)} (hw : Walk before first found)
    (h : ∀ p s, first p s ↔ second p s) : Walk before second found :=
  ⟨hw.order, fun p s => (hw.mem p s).trans (h p s)⟩

/-- The texts of some issues, all at one place. -/
def placed (place : β) (is : List Issue) : List (β × String) := is.map fun i => (place, i.text)

theorem placed_texts (place : β) (is : List Issue) : (placed place is).map (·.2) = is.map Issue.text := by
  simp [placed, Function.comp_def]

/-- No issue, or one. -/
theorem walk_placed {place : β} {is : List Issue} {defect : String → Prop} (hone : is.length ≤ 1)
    (h : ∀ s, s ∈ is.map Issue.text ↔ defect s) :
    Walk before (fun p s => p = place ∧ defect s) (placed place is) := by
  constructor
  · match is, hone with
    | [], _ => exact .nil
    | [_], _ => exact List.pairwise_singleton _ _
  · intro p s
    rw [← h s, placed, List.mem_map, List.mem_map]
    constructor
    · rintro ⟨i, hi, heq⟩
      cases heq
      exact ⟨rfl, i, hi, rfl⟩
    · rintro ⟨rfl, i, hi, rfl⟩
      exact ⟨i, hi, rfl⟩

end

/-! ## (3) Members -/

theorem nameIssues_texts {path : List String} {name s : String} :
    s ∈ (nameIssues path name).map Issue.text ↔ Text.allBlank name = true ∧ s = Issue.text ⟨path, .blankComponent⟩ := by
  unfold nameIssues
  cases Text.allBlank name <;> simp

theorem nameIssues_length (path : List String) (name : String) : (nameIssues path name).length ≤ 1 := by
  unfold nameIssues
  split <;> simp

theorem itemIssues_length (path : List String) (v : Json) : (itemIssues path v).length ≤ 1 := by
  cases v with
  | str name => exact nameIssues_length path name
  | _ => simp [itemIssues]

theorem text_blank (place : String) :
    place ++ ": " ++ Complaint.text .blankComponent = place ++ ": Component names must not be empty" :=
  String.append_assoc

theorem text_expected (place : String) (want got : Json.Shape) :
    place ++ ": " ++ Complaint.text (.expected want got)
      = place ++ (": " ++ ("Expected " ++ want.name ++ ", received ")) ++ got.name := by
  have hwords : Complaint.text (.expected want got) = "Expected " ++ want.name ++ ", received " ++ got.name := rfl
  rw [hwords, ← String.append_assoc, @String.append_assoc place]

theorem defect_key {m : String × Json} {s : String} :
    Defect m 0 s ↔ Text.allBlank m.1 = true ∧ s = Issue.text ⟨[m.1], .blankComponent⟩ := by
  have htext : Issue.text ⟨[m.1], .blankComponent⟩ = m.1 ++ ": Component names must not be empty" := text_blank m.1
  rw [htext]
  constructor
  · rintro ⟨hblank⟩
    exact ⟨hblank, rfl⟩
  · rintro ⟨hblank, rfl⟩
    exact .blankKey hblank

theorem walk_key (m : String × Json) :
    Walk (· < ·) (fun p s => p = 0 ∧ Defect m 0 s) (placed 0 (nameIssues [m.1] m.1)) :=
  walk_placed (nameIssues_length _ _) fun _ => nameIssues_texts.trans defect_key.symm

theorem defect_item {key : String} {items : List Json} {k : Nat} {v : Json} (hv : items[k]? = some v) {s : String} :
    Defect (key, .arr items) (k + 1) s ↔ s ∈ (itemIssues [key, toString k] v).map Issue.text := by
  have hblank : Issue.text ⟨[key, toString k], .blankComponent⟩
      = key ++ "." ++ toString k ++ ": Component names must not be empty" := text_blank _
  have hshape (got : Json.Shape) : Issue.text ⟨[key, toString k], .expected .string got⟩
      = key ++ "." ++ toString k ++ ": Expected string, received " ++ got.name := by
    have hwords : ": " ++ ("Expected " ++ Json.Shape.string.name ++ ", received ") = ": Expected string, received " := by
      decide
    rw [← hwords]
    exact text_expected _ _ _
  constructor
  · intro h
    cases h with
    | noList hlist => exact absurd rfl (hlist items)
    | noText hitems hitem hother =>
      cases hitems
      cases hv.symm.trans hitem
      cases v with
      | str name => exact absurd rfl (hother name)
      | _ => simp only [itemIssues, List.map_cons, List.map_nil, hshape, List.mem_singleton]
    | blankItem hitems hitem hname =>
      cases hitems
      cases hv.symm.trans hitem
      exact nameIssues_texts.mpr ⟨hname, hblank.symm⟩
  · intro h
    cases v with
    | str name =>
      obtain ⟨hname, rfl⟩ := nameIssues_texts.mp h
      rw [hblank]
      exact .blankItem rfl hv hname
    | _ =>
      simp only [itemIssues, List.map_cons, List.map_nil, hshape, List.mem_singleton] at h
      subst h
      exact .noText rfl hv (by simp)

/-- What is found in a list, item by item. -/
def listFindings (key : String) : Json → List (Nat × String)
  | .arr items => items.zipIdx.flatMap fun x => placed (x.2 + 1) (itemIssues [key, toString x.2] x.1)
  | v => placed 1 (listIssues key v)

theorem listFindings_texts (key : String) (v : Json) :
    (listFindings key v).map (·.2) = (listIssues key v).map Issue.text := by
  cases v with
  | arr items => simp only [listFindings, listIssues, List.map_flatMap, placed_texts]
  | _ => exact placed_texts _ _

/-- Behind its key, a defect of a list is one of an item. -/
theorem defect_place {key : String} {items : List Json} {p : Nat} {s : String} (h : Defect (key, .arr items) p s)
    (hp : 0 < p) : ∃ x ∈ items.zipIdx, p = x.2 + 1 := by
  cases h with
  | blankKey _ => omega
  | noList hlist => exact absurd rfl (hlist items)
  | noText hitems hitem _ =>
    cases hitems
    exact ⟨_, List.mk_mem_zipIdx_iff_getElem?.mpr hitem, rfl⟩
  | blankItem hitems hitem _ =>
    cases hitems
    exact ⟨_, List.mk_mem_zipIdx_iff_getElem?.mpr hitem, rfl⟩

theorem walk_items (key : String) (items : List Json) :
    Walk (· < ·) (fun p s => 0 < p ∧ Defect (key, .arr items) p s) (listFindings key (.arr items)) := by
  have hwalk : Walk (· < ·) (fun p s => ∃ x ∈ items.zipIdx, p = x.2 + 1 ∧ Defect (key, .arr items) (x.2 + 1) s)
      (listFindings key (.arr items)) := by
    refine walk_zipIdx (fun x hx => ?_) ?_
    · have hitem : items[x.2]? = some x.1 := List.mk_mem_zipIdx_iff_getElem?.mp hx
      exact walk_placed (itemIssues_length _ _) fun s => (defect_item hitem).symm
    · rintro x y p s q t hxy ⟨rfl, -⟩ ⟨rfl, -⟩
      omega
  refine hwalk.congr fun p s => ?_
  constructor
  · rintro ⟨x, -, rfl, hdefect⟩
    exact ⟨Nat.succ_pos _, hdefect⟩
  · rintro ⟨hp, hdefect⟩
    obtain ⟨x, hx, rfl⟩ := defect_place hdefect hp
    exact ⟨x, hx, rfl, hdefect⟩

/-- Behind its key, a value that is no list has one defect. -/
theorem defect_noList {key : String} {v : Json} (hv : ∀ items, v ≠ .arr items) {p : Nat} {s : String} :
    0 < p ∧ Defect (key, v) p s ↔ p = 1 ∧ s = Issue.text ⟨[key], .expected .array v.shape⟩ := by
  have htext : Issue.text ⟨[key], .expected .array v.shape⟩ = key ++ ": Expected array, received " ++ v.shape.name := by
    have hwords : ": " ++ ("Expected " ++ Json.Shape.array.name ++ ", received ") = ": Expected array, received " := by
      decide
    rw [← hwords]
    exact text_expected _ _ _
  rw [htext]
  constructor
  · rintro ⟨hp, hdefect⟩
    cases hdefect with
    | blankKey _ => omega
    | noList _ => exact ⟨rfl, rfl⟩
    | noText hitems _ _ => exact absurd hitems (hv _)
    | blankItem hitems _ _ => exact absurd hitems (hv _)
  · rintro ⟨rfl, rfl⟩
    exact ⟨Nat.one_pos, .noList hv⟩

theorem walk_noList (key : String) {v : Json} (hv : ∀ items, v ≠ .arr items) :
    Walk (· < ·) (fun p s => 0 < p ∧ Defect (key, v) p s) (listFindings key v) := by
  have hfound : listFindings key v = placed 1 [⟨[key], .expected .array v.shape⟩] := by
    cases v with
    | arr items => exact absurd rfl (hv items)
    | _ => rfl
  have hwalk : Walk (· < ·) (fun p s => p = 1 ∧ s = Issue.text ⟨[key], .expected .array v.shape⟩)
      (placed 1 [⟨[key], .expected .array v.shape⟩]) := walk_placed (by simp) fun s => by simp
  rw [hfound]
  exact hwalk.congr fun p s => (defect_noList hv).symm

theorem walk_list (key : String) (v : Json) :
    Walk (· < ·) (fun p s => 0 < p ∧ Defect (key, v) p s) (listFindings key v) := by
  cases v with
  | arr items => exact walk_items key items
  | _ => exact walk_noList key (by simp)

/-- What is found in a member, the key first. -/
def memberFindings (m : String × Json) : List (Nat × String) :=
  placed 0 (nameIssues [m.1] m.1) ++ listFindings m.1 m.2

theorem memberFindings_texts (m : String × Json) :
    (memberFindings m).map (·.2) = (memberIssues m).map Issue.text := by
  rw [memberFindings, memberIssues, List.map_append, List.map_append, placed_texts, listFindings_texts]

theorem walk_member (m : String × Json) : Walk (· < ·) (Defect m) (memberFindings m) := by
  refine ((walk_key m).append (walk_list m.1 m.2) ?_).congr fun p s => ?_
  · rintro p s q t ⟨rfl, -⟩ ⟨hq, -⟩
    exact hq
  · constructor
    · rintro (⟨rfl, hdefect⟩ | ⟨-, hdefect⟩)
      · exact hdefect
      · exact hdefect
    · intro hdefect
      rcases Nat.eq_zero_or_pos p with rfl | hp
      · exact Or.inl ⟨rfl, hdefect⟩
      · exact Or.inr ⟨hp, hdefect⟩

/-! ## (4) Maps -/

/-- What is found in a map, member by member. -/
def findings (members : Keyed Json) : List ((Nat × Nat) × String) :=
  members.zipIdx.flatMap fun x => (memberFindings x.1).map fun f => ((x.2, f.1), f.2)

theorem findings_texts (members : Keyed Json) :
    (findings members).map (·.2) = (issues (.obj members)).map Issue.text := by
  have hmember (x : (String × Json) × Nat) :
      ((memberFindings x.1).map fun f => ((x.2, f.1), f.2)).map (·.2) = (memberIssues x.1).map Issue.text := by
    rw [← memberFindings_texts, List.map_map]
    rfl
  have hmembers : issues (.obj members) = members.zipIdx.flatMap fun x => memberIssues x.1 := by
    rw [← List.flatMap_map, List.zipIdx_map_fst, issues]
  rw [hmembers, List.map_flatMap]
  simp only [findings, List.map_flatMap, hmember]

/-- The findings of a map are a walk through it. -/
theorem walk_members (members : Keyed Json) :
    Walk Earlier (fun place s => ∃ m, members[place.1]? = some m ∧ Defect m place.2 s) (findings members) := by
  have hwalk : Walk Earlier (fun place s => ∃ x ∈ members.zipIdx, place.1 = x.2 ∧ Defect x.1 place.2 s)
      (findings members) := by
    refine walk_zipIdx (fun x _ => ?_) ?_
    · constructor
      · rw [List.pairwise_map]
        exact (walk_member x.1).order.imp fun h => Or.inr ⟨rfl, h⟩
      · rintro ⟨n, k⟩ s
        rw [List.mem_map]
        constructor
        · rintro ⟨f, hf, heq⟩
          cases heq
          exact ⟨rfl, ((walk_member x.1).mem f.1 f.2).mp hf⟩
        · rintro ⟨rfl, hdefect⟩
          exact ⟨(k, s), ((walk_member x.1).mem k s).mpr hdefect, rfl⟩
    · rintro x y p s q t hxy ⟨hp, -⟩ ⟨hq, -⟩
      left
      rw [hp, hq]
      exact hxy
  refine hwalk.congr fun place s => ?_
  constructor
  · rintro ⟨x, hx, hplace, hdefect⟩
    rw [hplace]
    exact ⟨x.1, List.mk_mem_zipIdx_iff_getElem?.mp hx, hdefect⟩
  · rintro ⟨m, hm, hdefect⟩
    exact ⟨(m, place.1), List.mk_mem_zipIdx_iff_getElem?.mpr hm, rfl, hdefect⟩

theorem parse_error_iff {v : Json} {found : List Issue} :
    parse v = .error found ↔ issues v ≠ [] ∧ found = issues v := by
  cases hissues : issues v with
  | nil =>
    obtain ⟨members, rfl, -⟩ := issues_eq_nil_iff.mp hissues
    simp [parse, hissues]
  | cons i is => cases v <;> simp [parse, hissues, eq_comm]

theorem load_error_iff {v : Json} {fault : Fault} :
    load v = .error fault ↔ issues v ≠ [] ∧ fault = refusal (issues v) := by
  constructor
  · intro h
    cases hparse : parse v with
    | ok m =>
      rw [load, hparse] at h
      cases h
    | error found =>
      obtain ⟨hissues, rfl⟩ := parse_error_iff.mp hparse
      rw [load, hparse] at h
      cases h
      exact ⟨hissues, rfl⟩
  · rintro ⟨hissues, rfl⟩
    rw [load, parse_error_iff.mpr ⟨hissues, rfl⟩]
    rfl

/-- A refused map is reported with all that is wrong with it. What is no object has that one
    defect. Of an object the message lists the defects in the order of a walk through it, at the
    place where each one is, and there is at least one; a value that was read from a text has its
    members in the order of object members. -/
theorem refusals_tell_every_defect (v : Json) (fault : Fault) (h : load v = .error fault) :
    ∃ told, told ≠ [] ∧
      fault = .validation ("Invalid dependencies map: " ++ Text.join "; " told) (some "dependencies") ∧
      ((∀ members, v ≠ .obj members) → told = ["Expected object, received " ++ v.shape.name]) ∧
      ∀ members, v = .obj members →
        (∃ walk : List ((Nat × Nat) × String), walk.map (·.2) = told ∧
          Walk Earlier (fun place text => ∃ m, members[place.1]? = some m ∧ Defect m place.2 text) walk) ∧
        ∀ source, Json.read? source = some v → Keyed.InOrder members := by
  obtain ⟨hissues, rfl⟩ := load_error_iff.mp h
  refine ⟨(issues v).map Issue.text, ?_, rfl, fun hother => ?_, ?_⟩
  · rwa [Ne, List.map_eq_nil_iff]
  · have hfound : issues v = [Issue.notObject v] := by
      cases v with
      | obj members => exact absurd rfl (hother members)
      | _ => rfl
    rw [hfound]
    rfl
  · rintro members rfl
    refine ⟨⟨findings members, findings_texts members, walk_members members⟩, ?_⟩
    intro source hread
    exact (Json.read?_inOrder hread).1

/-- A blank key that has no list, and a list with a blank name and an item that is no text. -/
theorem a_map_with_four_defects :
    let members : Keyed Json :=
      [("2", .arr [.str "a", .null, .str " "]), (" ", .bool true), ("b", .arr []), ("c", .arr [.str "c"])]
    let fault : Fault := .validation ("Invalid dependencies map: 2.1: Expected string, received null; "
      ++ "2.2: Component names must not be empty;  : Component names must not be empty; "
      ++ " : Expected array, received boolean") (some "dependencies")
    load (.obj members) = .error fault ∧ ∃ walk : List ((Nat × Nat) × String),
      Walk Earlier (fun place text => ∃ m, members[place.1]? = some m ∧ Defect m place.2 text) walk ∧
      fault = .validation ("Invalid dependencies map: " ++ Text.join "; " (walk.map (·.2))) (some "dependencies") := by
  intro members fault
  have hload : load (.obj members) = .error fault := rfl
  obtain ⟨told, -, hfault, -, hobject⟩ := refusals_tell_every_defect (.obj members) fault hload
  obtain ⟨⟨walk, rfl, hwalk⟩, -⟩ := hobject members rfl
  exact ⟨hload, walk, hwalk, hfault⟩

end CheckpointRelay.Envelope.DependencyMap
