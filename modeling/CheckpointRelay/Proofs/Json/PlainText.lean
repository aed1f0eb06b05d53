/-
  CheckpointRelay.Proofs.Json.PlainText — which values have a plain text.

  `HasText` says what the plain text of a value is, and `Textless` which values have none: an
  object with a member of its own named `toString`, and an array that holds such a value.
  - `plain?_eq_some_iff`: the text that is computed is that text.
  - `plain?_eq_none_iff`: and no text is computed of exactly the values without one.
-/

import CheckpointRelay.Json.Plain
import CheckpointRelay.Text.Split

namespace CheckpointRelay.Json

mutual

/-- The plain text of a value. -/
inductive HasText : Json → String → Prop
  | null : HasText .null "null"
  | yes : HasText (.bool true) "true"
  | no : HasText (.bool false) "false"
  | num (x : Number.Binary64) : HasText (.num x) x.text
  | str (s : String) : HasText (.str s) s
  | arr (items : List Json) (texts : List String) : ItemTexts items texts → HasText (.arr items) (Text.join "," texts)
  | obj (members : List (String × Json)) : "toString" ∉ members.map (·.1) → HasText (.obj members) "[object Object]"

/-- The texts of items; a null item is left empty. -/
inductive ItemTexts : List Json → List String → Prop
  | nil : ItemTexts [] []
  | null (items : List Json) (texts : List String) : ItemTexts items texts → ItemTexts (.null :: items) ("" :: texts)
  | cons (x : Json) (s : String) (items : List Json) (texts : List String) : x ≠ .null → HasText x s →
      ItemTexts items texts → ItemTexts (x :: items) (s :: texts)

end

/-- No text can be made of the value. -/
inductive Textless : Json → Prop
  | obj (members : List (String × Json)) : "toString" ∈ members.map (·.1) → Textless (.obj members)
  | arr (items : List Json) (x : Json) : x ∈ items → Textless x → Textless (.arr items)

/-! ## (1) The text that is computed -/

theorem plainWith?_of_ne_null {x : Json} (h : x ≠ .null) (forNull : String) : plainWith? forNull x = x.plain? := by
  cases x with
  | null => exact absurd rfl h
  | arr items => cases items <;> rfl
  | _ => rfl

theorem has_iff {members : Keyed Json} {key : String} : Keyed.has members key = true ↔ key ∈ members.map (·.1) := by
  simp [Keyed.has, List.mem_map]

/-- The texts of further items, each behind a comma. -/
def commaTexts : List String → String
  | [] => ""
  | s :: texts => "," ++ s ++ commaTexts texts

theorem join_cons (s : String) (texts : List String) : Text.join "," (s :: texts) = s ++ commaTexts texts := by
  induction texts generalizing s with
  | nil => simp [Text.join, commaTexts]
  | cons t texts ih => rw [Text.join, ih, commaTexts, String.append_assoc, String.append_assoc]

theorem plain?_arr_cons (x : Json) (xs : List Json) :
    (Json.arr (x :: xs)).plain? = (plainWith? "" x).bind fun s => (plainItems? xs).map (s ++ ·) := rfl

theorem plain?_obj (members : List (String × Json)) :
    (Json.obj members).plain? = if Keyed.has members "toString" then none else some "[object Object]" := rfl

mutual

theorem hasText_of_plain? (v : Json) {s : String} (h : v.plain? = some s) : HasText v s := by
  match v with
  | .null => cases h; exact .null
  | .bool true => cases h; exact .yes
  | .bool false => cases h; exact .no
  | .num x => cases h; exact .num x
  | .str _ => cases h; exact .str _
  | .arr [] => cases h; exact .arr [] [] .nil
  | .arr (x :: xs) =>
    simp only [plain?_arr_cons, Option.bind_eq_some_iff, Option.map_eq_some_iff] at h
    obtain ⟨t, ht, rest, hrest, rfl⟩ := h
    obtain ⟨texts, htexts, rfl⟩ := itemTexts_of_plainItems? xs hrest
    rw [← join_cons]
    exact .arr _ _ (itemTexts_cons x ht htexts)
  | .obj members =>
    rw [plain?_obj] at h
    split at h
    · cases h
    · rename_i hhas
      cases h
      exact .obj members fun hmem => hhas (has_iff.mpr hmem)

theorem itemTexts_cons (x : Json) {s : String} (h : plainWith? "" x = some s) {items : List Json}
    {texts : List String} (ht : ItemTexts items texts) : ItemTexts (x :: items) (s :: texts) := by
  by_cases hx : x = .null
  · subst hx
    cases h
    exact .null items texts ht
  · rw [plainWith?_of_ne_null hx] at h
    exact .cons x s items texts hx (hasText_of_plain? x h) ht

theorem itemTexts_of_plainItems? (items : List Json) {rest : String} (h : plainItems? items = some rest) :
    ∃ texts, ItemTexts items texts ∧ rest = commaTexts texts := by
  match items with
  | [] => cases h; exact ⟨[], .nil, rfl⟩
  | x :: xs =>
    simp only [plainItems?, Option.bind_eq_some_iff, Option.map_eq_some_iff] at h
    obtain ⟨s, hs, rest, hrest, rfl⟩ := h
    obtain ⟨texts, htexts, rfl⟩ := itemTexts_of_plainItems? xs hrest
    exact ⟨s :: texts, itemTexts_cons x hs htexts, rfl⟩

end

mutual

theorem plain?_of_hasText {v : Json} {s : String} (h : HasText v s) : v.plain? = some s := by
  match h with
  | .null | .yes | .no | .num _ | .str _ | .arr [] [] .nil => rfl
  | .arr _ _ (.null items texts hitems) =>
    rw [plain?_arr_cons, plainItems?_of_itemTexts hitems, join_cons]
    rfl
  | .arr _ _ (.cons x s items texts hx hs hitems) =>
    rw [plain?_arr_cons, plainWith?_of_ne_null hx, plain?_of_hasText hs, plainItems?_of_itemTexts hitems, join_cons]
    rfl
  | .obj members hmem => rw [plain?_obj, if_neg fun hhas => hmem (has_iff.mp hhas)]

theorem plainItems?_of_itemTexts {items : List Json} {texts : List String} (h : ItemTexts items texts) :
    plainItems? items = some (commaTexts texts) := by
  match h with
  | .nil => rfl
  | .null items texts hitems =>
    rw [plainItems?, plainItems?_of_itemTexts hitems]
    rfl
  | .cons x s items texts hx hs hitems =>
    rw [plainItems?, plainWith?_of_ne_null hx, plain?_of_hasText hs, plainItems?_of_itemTexts hitems]
    rfl

end

/-- The text that is computed is the plain text. -/
theorem plain?_eq_some_iff {v : Json} {s : String} : v.plain? = some s ↔ HasText v s :=
  ⟨hasText_of_plain? v, plain?_of_hasText⟩

/-! ## (2) Values without a text -/

theorem plainItems?_eq_none_iff {items : List Json} :
    plainItems? items = none ↔ ∃ x ∈ items, plainWith? "" x = none := by
  induction items with
  | nil => simp [plainItems?]
  | cons x xs ih =>
    cases hx : plainWith? "" x with
    | none => simp [plainItems?, hx]
    | some s => simp [plainItems?, hx, ih]

theorem plain?_arr_eq_none_iff {items : List Json} :
    (Json.arr items).plain? = none ↔ ∃ x ∈ items, x.plain? = none := by
  have hitem (x : Json) : plainWith? "" x = none ↔ x.plain? = none := by
    by_cases hx : x = .null
    · subst hx
      simp [plain?, plainWith?]
    · rw [plainWith?_of_ne_null hx]
  have hitems : (Json.arr items).plain? = none ↔ plainItems? items = none := by
    cases items with
    | nil => simp [plain?, plainWith?, plainItems?]
    | cons x xs =>
      rw [plain?_arr_cons, plainItems?]
      cases plainWith? "" x <;> simp
  simp only [hitems, plainItems?_eq_none_iff, hitem]

theorem plain?_of_textless {v : Json} (h : Textless v) : v.plain? = none := by
  induction h with
  | obj members hmem => rw [plain?_obj, if_pos (has_iff.mpr hmem)]
  | arr items x hx _ ih => exact plain?_arr_eq_none_iff.mpr ⟨x, hx, ih⟩

theorem textless_of_plain? (v : Json) (h : v.plain? = none) : Textless v := by
  match v with
  | .null | .bool _ | .num _ | .str _ => cases h
  | .arr items =>
    obtain ⟨x, hx, hnone⟩ := plain?_arr_eq_none_iff.mp h
    exact .arr items x hx (textless_of_plain? x hnone)
  | .obj members =>
    rw [plain?_obj] at h
    split at h
    · rename_i hhas
      exact .obj members (has_iff.mp hhas)
    · cases h

theorem plain?_eq_none_iff {v : Json} : v.plain? = none ↔ Textless v :=
  ⟨textless_of_plain? v, plain?_of_textless⟩

end CheckpointRelay.Json
