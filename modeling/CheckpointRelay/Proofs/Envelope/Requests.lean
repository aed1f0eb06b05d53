/-
  CheckpointRelay.Proofs.Envelope.Requests — the requests that the builders make, as they are read.

  There are two forms of request on the wire: a registration of a map (`Registration`) and a
  hook call (`HookCall`). What a builder checks of its input is carried through the normal form
  of maps and the joining of names to the value that the other side reads from the bytes.
  - `ofMap_sound` / `ofMesh_sound`: a map has no blank name and no component under itself.
  - `ofHook_ok_iff` / `ofHook_error_iff`: which hook calls are made, and why others are not.
  - `ofHook_sound`: an id is not blank, and the list cuts into trimmed names that are not empty.
  - `isEnvelope_of_registers` / `isEnvelope_of_calls`: no request is refused.
  - `serialize_read`: the bytes of a request read back as the request.
  - `registration_read` / `hookCall_read`: in one of the two forms.
-/

import CheckpointRelay.Proofs.Envelope.Language
import CheckpointRelay.Proofs.Text.Parts

namespace CheckpointRelay

open Text.Utf8 (Bytes)

namespace Envelope

/-! ## (1) The forms -/

/-- A registration: the operator's id and a map without blank names or links to oneself. -/
inductive Registration : Json → Prop
  | mk (members : List (String × Json)) :
      (∀ m ∈ members, Text.allBlank m.1 = false ∧ ∃ names : List String, m.2 = .arr (names.map .str) ∧
        ∀ name ∈ names, Text.allBlank name = false ∧ name ≠ m.1) →
      Registration (.obj [("id", .str "kubescr"), ("action", .str "add_dependencies"), ("dependencies", .obj members)])

/-- A text that is empty or cuts into trimmed parts that are not empty. -/
def ColonList (list : String) : Prop :=
  list = "" ∨ ∀ part ∈ Text.splitOn ':' list, part ≠ "" ∧ Text.trim part = part

/-- A hook call: an id that is not blank, one of the given actions and a list of names. -/
inductive HookCall (allowed : List HookAction) : Json → Prop
  | mk (id : String) (action : HookAction) (list : String) :
      Text.allBlank id = false → action ∈ allowed → ColonList list →
      HookCall allowed (.obj [("id", .str id), ("action", .str action.name), ("dependencies", .str list)])

/-- The bytes are the UTF-8 of a JSON text of such a value. -/
def OnWire (form : Json → Prop) (payload : Bytes) : Prop :=
  ∃ text v, payload = Text.Utf8.encode text ∧ Json.read? text = some v ∧ form v

/-! ## (2) The builders -/

namespace DependencyMap

/-- No name is blank, and no component stands under itself. -/
def Sound (m : DependencyMap) : Prop :=
  ∀ p ∈ m, Text.allBlank p.1 = false ∧ ∀ name ∈ p.2, Text.allBlank name = false ∧ name ≠ p.1

theorem names_ofStrings (ns : List String) : names (.ofStrings ns) = ns := by
  induction ns with
  | nil => rfl
  | cons n ns ih => exact congrArg (n :: ·) ih

theorem ofMembers_sound {ms : Keyed Json} (h : issues (.obj ms) = []) : Sound (ofMembers ms) := by
  intro p hp
  obtain ⟨m, hm, rfl⟩ := List.mem_map.mp hp
  obtain ⟨members, hmembers, hform⟩ := issues_eq_nil_iff.mp h
  cases hmembers
  obtain ⟨hkey, ns, hns, hblank⟩ := hform m (List.mem_filter.mp hm).1
  refine ⟨hkey, fun name hname => ?_⟩
  rw [hns, names_ofStrings, List.mem_filter, decide_eq_true_eq] at hname
  exact ⟨hblank name hname.1, hname.2⟩

theorem parse_sound {v : Json} {m : DependencyMap} (h : parse v = .ok m) : Sound m := by
  unfold parse at h
  split at h
  · rename_i ms hissues
    cases h
    exact ofMembers_sound hissues
  · cases h

end DependencyMap

namespace Request

/-- What a registration is made of. -/
def Registers (r : Request) : Prop :=
  ∃ m : DependencyMap, m.Sound ∧ r = ⟨"kubescr", "add_dependencies", .map m⟩

/-- What a hook call is made of. -/
def Calls (allowed : List HookAction) (r : Request) : Prop :=
  ∃ id, ∃ action ∈ allowed, ∃ list, Text.allBlank id = false ∧ ColonList list ∧
    r = ⟨id, action.name, .list list⟩

theorem ofMap_sound {v : Json} {r : Request} (h : ofMap v = .ok r) : r.Registers := by
  unfold ofMap DependencyMap.load at h
  cases hv : DependencyMap.parse v with
  | error found =>
    rw [hv] at h
    cases h
  | ok m =>
    rw [hv] at h
    cases h
    exact ⟨m, DependencyMap.parse_sound hv, rfl⟩

theorem ofMesh_sound {components : List String} {r : Request} (h : ofMesh components = .ok r) : r.Registers := by
  unfold ofMesh at h
  split at h
  · exact ofMap_sound h
  · cases h

theorem colonList_of_names {names : List String} (hcolon : ∀ n ∈ names, ':' ∉ n.toList)
    (htrim : ∀ n ∈ names, n ≠ "" ∧ Text.trim n = n) : ColonList (Text.join ":" names) := by
  cases names with
  | nil => exact Or.inl rfl
  | cons n ns =>
    right
    have hsplit : Text.splitOn ':' (Text.join ":" (n :: ns)) = n :: ns :=
      Text.splitOn_join hcolon (List.cons_ne_nil n ns)
    rw [hsplit]
    exact htrim

theorem listedNames_trimmed (dependencies : List String) :
    ∀ n ∈ listedNames dependencies, n ≠ "" ∧ Text.trim n = n := by
  intro n hn
  rw [listedNames, List.mem_filter, List.mem_map, decide_eq_true_eq] at hn
  obtain ⟨⟨name, -, rfl⟩, hne⟩ := hn
  exact ⟨hne, Text.trim_trim name⟩

theorem not_mem_listedNames {names : List String} (h : ∀ name ∈ names, ':' ∉ name.toList) :
    ∀ part ∈ listedNames names, ':' ∉ part.toList := by
  intro part hpart
  obtain ⟨name, hname, rfl⟩ := List.mem_map.mp (List.mem_filter.mp hpart).1
  exact Text.not_mem_trim (h name hname)

/-- A colon is no padding, and a blank name has none. -/
theorem colon_listedNames {names : List String} :
    ((listedNames names).any fun name => name.toList.contains ':') = true ↔ ∃ name ∈ names, ':' ∈ name.toList := by
  have hcolon : Text.isBlank ':' = false := by decide
  rw [List.any_eq_true]
  constructor
  · rintro ⟨part, hpart, hmem⟩
    obtain ⟨name, hname, rfl⟩ := List.mem_map.mp (List.mem_filter.mp hpart).1
    exact ⟨name, hname, (Text.mem_trim_iff hcolon).mp (List.contains_iff_mem.mp hmem)⟩
  · rintro ⟨name, hname, hmem⟩
    have hpart : ':' ∈ (Text.trim name).toList := (Text.mem_trim_iff hcolon).mpr hmem
    have hne : Text.trim name ≠ "" := by
      intro hempty
      rw [hempty] at hpart
      cases hpart
    exact ⟨Text.trim name, List.mem_filter.mpr ⟨List.mem_map_of_mem hname, decide_eq_true hne⟩,
      List.contains_iff_mem.mpr hpart⟩

theorem ofHook_ok_iff {id action : String} {names : List String} {r : Request} :
    ofHook id action names = .ok r ↔ Text.allBlank id = false ∧ (∀ name ∈ names, ':' ∉ name.toList) ∧
      r = ⟨id, action, .list (Text.join ":" (listedNames names))⟩ := by
  have hnone : (∀ name ∈ names, ':' ∉ name.toList) ↔ ¬∃ name ∈ names, ':' ∈ name.toList := by
    push Not
    rfl
  rw [hnone]
  simp only [ofHook, colon_listedNames]
  by_cases hid : Text.allBlank id = true
  · simp only [hid, if_true, reduceCtorEq, Bool.true_eq_false, false_and]
  by_cases hcolon : ∃ name ∈ names, ':' ∈ name.toList
  · simp only [hid, hcolon, if_true, if_false, reduceCtorEq, not_true, false_and, and_false]
  · simp only [hid, hcolon, Bool.false_eq_true, if_false, not_false_iff, true_and, Except.ok.injEq, eq_comm]

/-- That an id is blank is found before it is found that a name has a colon. -/
theorem ofHook_error_iff {id action : String} {names : List String} {e : HookError} :
    ofHook id action names = .error e ↔
      Text.allBlank id = true ∧ e = .blankId ∨
      Text.allBlank id = false ∧ (∃ name ∈ names, ':' ∈ name.toList) ∧ e = .colonInName := by
  simp only [ofHook, colon_listedNames]
  by_cases hid : Text.allBlank id = true
  · simp only [hid, if_true, true_and, Bool.false_eq_true, false_and, or_false, Except.error.injEq, eq_comm]
  by_cases hcolon : ∃ name ∈ names, ':' ∈ name.toList
  · simp only [hid, hcolon, if_true, if_false, true_and, Bool.false_eq_true, false_and, false_or, Except.error.injEq,
      eq_comm]
  · simp only [hid, hcolon, if_false, false_and, and_false, or_false, Bool.false_eq_true, reduceCtorEq]

theorem ofHook_sound {allowed : List HookAction} {id : String} {action : HookAction} {dependencies : List String}
    {r : Request} (haction : action ∈ allowed) (h : ofHook id action.name dependencies = .ok r) :
    r.Calls allowed := by
  obtain ⟨hid, hcolon, rfl⟩ := ofHook_ok_iff.mp h
  have hlist : ColonList (Text.join ":" (listedNames dependencies)) :=
    colonList_of_names (not_mem_listedNames hcolon) (listedNames_trimmed dependencies)
  exact ⟨id, action, haction, _, hid, hlist, rfl⟩

/-- Parts of a list have no colon in them: only a blank id stands in the way of a call. -/
theorem ofHook_splitOn (id action dependencies : String) :
    ofHook id action (Text.splitOn ':' dependencies)
      = if Text.allBlank id then .error .blankId
        else .ok ⟨id, action, .list (Text.join ":" (listedNames (Text.splitOn ':' dependencies)))⟩ := by
  by_cases hid : Text.allBlank id = true
  · rw [ofHook, if_pos hid, if_pos hid]
  · rw [if_neg hid]
    exact ofHook_ok_iff.mpr ⟨Bool.eq_false_iff.mpr hid, Text.not_mem_splitOn, rfl⟩

/-! ## (3) What is written -/

theorem isDependencies_map {m : DependencyMap} (h : m.Sound) : IsDependencies m.toJson := by
  refine .map _ fun p hp => ?_
  obtain ⟨q, hq, rfl⟩ := List.mem_map.mp hp
  exact ⟨(h q hq).1, q.2, rfl, fun name hname => ((h q hq).2 name hname).1⟩

theorem isEnvelope_of_registers {r : Request} (h : r.Registers) : IsEnvelope r.toJson := by
  obtain ⟨m, hm, rfl⟩ := h
  exact ⟨⟨_, rfl⟩, ⟨"kubescr", rfl, by decide⟩, ⟨"add_dependencies", rfl, by decide⟩, ⟨_, rfl, isDependencies_map hm⟩⟩

theorem isEnvelope_of_calls {allowed : List HookAction} {r : Request} (h : r.Calls allowed) : IsEnvelope r.toJson := by
  obtain ⟨id, action, -, list, hid, -, rfl⟩ := h
  have hne : id ≠ "" := by
    rintro rfl
    have hblank : Text.allBlank "" = true := rfl
    rw [hblank] at hid
    cases hid
  refine ⟨⟨_, rfl⟩, ⟨id, rfl, hne⟩, ⟨action.name, rfl, ?_⟩, ⟨_, rfl, .list list⟩⟩
  cases action <;> decide

/-! ## (4) What is read -/

theorem numberFree_map (m : DependencyMap) : m.toJson.numberFree = true := by
  rw [DependencyMap.toJson, Json.numberFree, Json.numberFreeMembers_iff]
  intro p hp
  obtain ⟨q, -, rfl⟩ := List.mem_map.mp hp
  exact Json.numberFree_ofStrings q.2

theorem toJson_numberFree (r : Request) : r.toJson.numberFree = true := by
  have hdependencies : r.dependencies.toJson.numberFree = true := by
    cases r.dependencies with
    | map m => exact numberFree_map m
    | list names => rfl
  simp [toJson, Json.numberFree, Json.numberFreeMembers, hdependencies]

theorem ordered_ofStrings (names : List String) : (Json.ofStrings names).ordered = Json.ofStrings names := by
  have hitems : Json.orderedItems (names.map .str) = names.map .str := by
    induction names with
    | nil => rfl
    | cons n ns ih => simp [Json.orderedItems, Json.ordered, ih]
  rw [Json.ofStrings, Json.ordered, hitems]

theorem orderedMembers_map (m : DependencyMap) :
    Json.orderedMembers (m.map fun p => (p.1, Json.ofStrings p.2)) = m.map fun p => (p.1, Json.ofStrings p.2) := by
  induction m with
  | nil => rfl
  | cons p m ih => simp [Json.orderedMembers, ordered_ofStrings, ih]

/-- The keys of a request are no indices: they are read in the order in which they are written. -/
theorem toJson_ordered (r : Request) :
    r.toJson.ordered
      = .obj [("id", .str r.id), ("action", .str r.action), ("dependencies", r.dependencies.toJson.ordered)] := by
  -- `put` moves only names that spell an index
  have hid : Keyed.index? "id" = none := by decide
  have haction : Keyed.index? "action" = none := by decide
  have hdependencies : Keyed.index? "dependencies" = none := by decide
  simp [toJson, Json.ordered, Json.orderedMembers, Keyed.ofPairs, Keyed.put, Keyed.has, hid, haction, hdependencies]

/-- The bytes of a request read back as the request. -/
theorem serialize_read {r : Request} {payload : Bytes} (h : serialize r.toJson = .ok payload) :
    payload = Text.Utf8.encode r.toJson.text ∧ Json.read? r.toJson.text = some r.toJson.ordered := by
  exact ⟨(serialize_ok_iff.mp h).2, Json.read_text r.toJson (toJson_numberFree r)⟩

theorem registration_read {r : Request} (h : r.Registers) : Registration r.toJson.ordered := by
  obtain ⟨m, hm, rfl⟩ := h
  rw [toJson_ordered]
  simp only [Dependencies.toJson, DependencyMap.toJson, Json.ordered, orderedMembers_map]
  refine Registration.mk _ fun p hp => ?_
  obtain ⟨q, hq, rfl⟩ := List.mem_map.mp (Keyed.mem_ofPairs hp)
  exact ⟨(hm q hq).1, q.2, rfl, (hm q hq).2⟩

theorem hookCall_read {allowed : List HookAction} {r : Request} (h : r.Calls allowed) :
    HookCall allowed r.toJson.ordered := by
  obtain ⟨id, action, haction, list, hid, hlist, rfl⟩ := h
  rw [toJson_ordered]
  exact HookCall.mk id action list hid haction hlist

end Request

end Envelope

end CheckpointRelay
