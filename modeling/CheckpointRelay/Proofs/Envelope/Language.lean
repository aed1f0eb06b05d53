/-
  CheckpointRelay.Proofs.Envelope.Language — the values that go over the wire as envelopes.

  `IsEnvelope` says what an envelope is: an object with an id that is not empty, one of the nine
  actions, and dependencies that are a text or a map of names. The fields are checked one by
  one, and each check accepts what the predicate says (`issues_eq_nil_iff`). What is written is
  the value itself, so it is read back whole.
  - `DependencyMap.issues_eq_nil_iff`: the maps that are accepted.
  - `serialize_ok_iff` / `serialize_refused`: what is written, and how the rest is refused.
  - `decode_serialize`: the bytes read back as the value.
  - `envelopes_are_written_whole`: all of it.
-/

import CheckpointRelay.Envelope.Wire
import CheckpointRelay.Proofs.Json.Order
import CheckpointRelay.Proofs.Text.Decoding

namespace CheckpointRelay

open Text.Utf8 (Bytes)

namespace Envelope

/-! ## (1) Maps -/

namespace DependencyMap

/-- A list of names, none of them blank. -/
def ListsNames (v : Json) : Prop :=
  ∃ names : List String, v = .ofStrings names ∧ ∀ name ∈ names, Text.allBlank name = false

theorem nameIssues_eq_nil_iff {path : List String} {name : String} :
    nameIssues path name = [] ↔ Text.allBlank name = false := by
  unfold nameIssues
  cases Text.allBlank name <;> simp

theorem itemIssues_eq_nil_iff {path : List String} {v : Json} :
    itemIssues path v = [] ↔ ∃ name, v = .str name ∧ Text.allBlank name = false := by
  cases v with
  | str s => simp [itemIssues, nameIssues_eq_nil_iff]
  | _ => simp [itemIssues]

/-- Items that are all names are a list of names. -/
theorem listsNames_of_items {items : List Json} (h : ∀ v ∈ items, ∃ name, v = .str name ∧ Text.allBlank name = false) :
    ListsNames (.arr items) := by
  induction items with
  | nil => exact ⟨[], rfl, by simp⟩
  | cons v items ih =>
    obtain ⟨name, rfl, hname⟩ := h v List.mem_cons_self
    obtain ⟨names, hnames, hblank⟩ := ih fun w hw => h w (List.mem_cons_of_mem _ hw)
    cases hnames
    exact ⟨name :: names, rfl, List.forall_mem_cons.mpr ⟨hname, hblank⟩⟩

theorem listIssues_eq_nil_iff {key : String} {v : Json} : listIssues key v = [] ↔ ListsNames v := by
  cases v with
  | arr items =>
    rw [listIssues, List.flatMap_eq_nil_iff]
    constructor
    · intro h
      refine listsNames_of_items fun v hv => ?_
      obtain ⟨p, hp, hfst⟩ : ∃ p ∈ items.zipIdx, p.1 = v := by
        rw [← List.mem_map (f := Prod.fst), List.zipIdx_map_fst]
        exact hv
      exact hfst ▸ itemIssues_eq_nil_iff.mp (h p hp)
    · rintro ⟨names, hnames, hblank⟩ p hp
      have hmem : p.1 ∈ items := List.fst_mem_of_mem_zipIdx hp
      cases hnames
      obtain ⟨name, hname, hv⟩ := List.mem_map.mp hmem
      exact itemIssues_eq_nil_iff.mpr ⟨name, hv.symm, hblank name hname⟩
  | _ => simp [listIssues, ListsNames, Json.ofStrings]

theorem memberIssues_eq_nil_iff {m : String × Json} :
    memberIssues m = [] ↔ Text.allBlank m.1 = false ∧ ListsNames m.2 := by
  rw [memberIssues, List.append_eq_nil_iff, nameIssues_eq_nil_iff, listIssues_eq_nil_iff]

/-- The maps that are accepted: no key is blank, and every value lists names. -/
theorem issues_eq_nil_iff {v : Json} :
    issues v = [] ↔ ∃ members, v = .obj members ∧ ∀ m ∈ members, Text.allBlank m.1 = false ∧ ListsNames m.2 := by
  cases v with
  | obj members => simp [issues, List.flatMap_eq_nil_iff, memberIssues_eq_nil_iff]
  | _ => simp [issues]

end DependencyMap

/-! ## (2) Envelopes -/

/-- The dependencies of an envelope: names in one text, or names by component. -/
inductive IsDependencies : Json → Prop
  | list (names : String) : IsDependencies (.str names)
  | map (members : List (String × Json)) :
      (∀ m ∈ members, Text.allBlank m.1 = false ∧
        ∃ names : List String, m.2 = .arr (names.map .str) ∧ ∀ name ∈ names, Text.allBlank name = false) →
      IsDependencies (.obj members)

/-- An object with the three fields of an envelope, and any others. -/
structure IsEnvelope (v : Json) : Prop where
  object : ∃ members, v = .obj members
  id : ∃ id, v.field? "id" = some (.str id) ∧ id ≠ ""
  action : ∃ action, v.field? "action" = some (.str action) ∧
    action ∈ ["pre-dump", "post-dump", "pre-restore", "post-restore", "network-lock", "network-unlock", "pre-stream",
      "post-stream", "add_dependencies"]
  dependencies : ∃ dependencies, v.field? "dependencies" = some dependencies ∧ IsDependencies dependencies

theorem idComplaints_eq_nil_iff {field : Option Json} :
    idComplaints field = [] ↔ ∃ id, field = some (.str id) ∧ id ≠ "" := by
  match field with
  | none => simp [idComplaints]
  | some (.str s) => by_cases h : s = "" <;> simp [idComplaints, h]
  | some .null | some (.bool _) | some (.num _) | some (.arr _) | some (.obj _) => simp [idComplaints]

theorem actionComplaints_eq_nil_iff {field : Option Json} :
    actionComplaints field = [] ↔ ∃ action, field = some (.str action) ∧ action ∈ actions := by
  match field with
  | none => simp [actionComplaints]
  | some (.str s) => by_cases h : s ∈ actions <;> simp [actionComplaints, h]
  | some .null | some (.bool _) | some (.num _) | some (.arr _) | some (.obj _) => simp [actionComplaints]

theorem dependencyComplaints_eq_nil_iff {field : Option Json} :
    dependencyComplaints field = [] ↔ ∃ dependencies, field = some dependencies ∧ IsDependencies dependencies := by
  match field with
  | none => simp [dependencyComplaints]
  | some (.str s) => simpa [dependencyComplaints] using IsDependencies.list s
  | some (.obj members) =>
    simp only [dependencyComplaints, ite_eq_left_iff, List.cons_ne_nil, imp_false, not_not,
      DependencyMap.issues_eq_nil_iff, Option.some.injEq, exists_eq_left', Json.obj.injEq]
    exact ⟨fun h => .map members h, fun h => by cases h; assumption⟩
  | some .null | some (.bool _) | some (.num _) | some (.arr _) =>
    simp only [dependencyComplaints, DependencyMap.issues, List.cons_ne_nil, if_false, Option.some.injEq,
      exists_eq_left', false_iff]
    intro h
    cases h

/-- An envelope is what has no issue. -/
theorem issues_eq_nil_iff {v : Json} : issues v = [] ↔ IsEnvelope v := by
  cases v with
  | obj members =>
    simp only [issues, List.append_eq_nil_iff, List.map_eq_nil_iff, idComplaints_eq_nil_iff,
      actionComplaints_eq_nil_iff, dependencyComplaints_eq_nil_iff]
    exact ⟨fun ⟨⟨hid, haction⟩, hdependencies⟩ => ⟨⟨members, rfl⟩, hid, haction, hdependencies⟩,
      fun ⟨_, hid, haction, hdependencies⟩ => ⟨⟨hid, haction⟩, hdependencies⟩⟩
  | _ =>
    simp only [issues]
    exact ⟨fun h => absurd h (List.cons_ne_nil _ _), fun h => by obtain ⟨_, h⟩ := h.object; cases h⟩

theorem serialize_ok_iff {v : Json} {payload : Bytes} :
    serialize v = .ok payload ↔ IsEnvelope v ∧ payload = Text.Utf8.encode v.text := by
  rw [← issues_eq_nil_iff]
  unfold serialize
  split
  · rename_i hnil
    simp [hnil, eq_comm]
  · rename_i hne
    exact ⟨fun h => (by cases h), fun h => absurd h.1 hne⟩

theorem serialize_refused {v : Json} (h : ¬IsEnvelope v) : serialize v = .error (refusal (issues v)) := by
  unfold serialize
  split
  · rename_i hnil
    exact absurd (issues_eq_nil_iff.mp hnil) h
  · rfl

/-! ## (3) Reading back -/

theorem numberFree_of_isDependencies {v : Json} (h : IsDependencies v) : v.numberFree = true := by
  cases h with
  | list names => rfl
  | map members hmembers =>
    rw [Json.numberFree, Json.numberFreeMembers_iff]
    intro m hm
    obtain ⟨-, names, hnames, -⟩ := hmembers m hm
    rw [hnames]
    exact Json.numberFree_ofStrings names

/-- The fields of an envelope hold no numbers. -/
theorem numberFree_field {v : Json} (h : IsEnvelope v) {key : String} {field : Json}
    (hkey : key ∈ ["id", "action", "dependencies"]) (hfield : v.field? key = some field) :
    field.numberFree = true := by
  simp only [List.mem_cons, List.not_mem_nil, or_false] at hkey
  rcases hkey with rfl | rfl | rfl
  · obtain ⟨id, hid, -⟩ := h.id
    rw [hid] at hfield
    cases hfield
    rfl
  · obtain ⟨action, haction, -⟩ := h.action
    rw [haction] at hfield
    cases hfield
    rfl
  · obtain ⟨dependencies, hdependencies, hform⟩ := h.dependencies
    rw [hdependencies] at hfield
    cases hfield
    exact numberFree_of_isDependencies hform

/-- The bytes of an envelope read back as it, further members and all. -/
theorem decode_serialize {v : Json.Ordered} {payload : Bytes} (h : serialize v.value = .ok payload)
    (hnumbers : v.value.numberFree = true) : Json.read? (Text.Utf8.decode payload) = some v.value := by
  obtain ⟨-, rfl⟩ := serialize_ok_iff.mp h
  rw [Text.Utf8.decode_encode, v.read_text hnumbers]

/-- Exactly the envelopes are written, the other values are refused as invalid, and what is
    written of a value without numbers reads back as that value. Every value that is read from a
    text has its members in order, and the fields of an envelope are free of numbers anyway. -/
theorem envelopes_are_written_whole :
    (∀ v, (∃ payload, serialize v = .ok payload) ↔ IsEnvelope v) ∧
    (∀ v, ¬IsEnvelope v → ∃ message, serialize v = .error (.validation message none)) ∧
    (∀ (v : Json.Ordered) payload, serialize v.value = .ok payload → v.value.numberFree = true →
      Json.read? (Text.Utf8.decode payload) = some v.value) ∧
    (∀ text v, Json.read? text = some v → ∃ o : Json.Ordered, o.value = v) ∧
    (∀ v payload key field, serialize v = .ok payload → key ∈ ["id", "action", "dependencies"] →
      v.field? key = some field → field.numberFree = true) := by
  refine ⟨fun v => ?_, fun v h => ⟨_, serialize_refused h⟩, fun v payload h => decode_serialize h,
    fun text v h => ⟨⟨v, Json.read?_inOrder h⟩, rfl⟩, fun v payload key field h => ?_⟩
  · constructor
    · rintro ⟨payload, h⟩
      exact (serialize_ok_iff.mp h).1
    · intro h
      exact ⟨_, serialize_ok_iff.mpr ⟨h, rfl⟩⟩
  · exact numberFree_field (serialize_ok_iff.mp h).1

/-- An envelope with a link to oneself, a reserved key, an index key and members of its own. -/
theorem an_envelope_with_more_members :
    let v : Json := .obj
      [("7", .arr [.null, .str "\u0001\"\\ é 😀"]), ("dependencies", .obj [("2", .arr []), ("__proto__", .arr [.str "a"]),
        ("c1", .arr [.str "c1", .str " c1"])]), ("action", .str "network-lock"), ("id", .str " ")]
    ∃ payload, serialize v = .ok payload ∧ Json.read? (Text.Utf8.decode payload) = some v := by
  intro v
  obtain ⟨haccepts, -, hreads, -, -⟩ := envelopes_are_written_whole
  have henvelope : IsEnvelope v := by
    refine ⟨⟨_, rfl⟩, ⟨" ", rfl, by decide⟩, ⟨"network-lock", rfl, by decide⟩, ⟨_, rfl, .map _ ?_⟩⟩
    intro m hm
    simp only [List.mem_cons, List.not_mem_nil, or_false] at hm
    rcases hm with rfl | rfl | rfl
    · exact ⟨by decide, [], rfl, by simp⟩
    · exact ⟨by decide, ["a"], rfl, by decide⟩
    · exact ⟨by decide, ["c1", " c1"], rfl, by decide⟩
  obtain ⟨payload, hpayload⟩ := (haccepts v).mpr henvelope
  have horder : v.InOrder := by
    simp only [v, Json.InOrder, Json.MembersInOrder, Json.ItemsInOrder, and_true, true_and]
    decide
  exact ⟨payload, hpayload, hreads ⟨v, horder⟩ payload hpayload rfl⟩

end Envelope

end CheckpointRelay
