/-
  CheckpointRelay.Proofs.Json.Rereading — reading what was written.

  The reader, started on the text of a value, comes to the end of it with the value accepted,
  whatever stands around it; only behind a number something has to stand that ends it. Objects
  come back with their members in the order of `Keyed.put`, and numbers, which are written as
  decimals, by rounding (`reread`). A value without numbers (`numberFree`) comes back as it went,
  in that order (`ordered`).
  - `run_escaped`: the units of a string come back as they went.
  - `run_render` / `run_items` / `run_members`: one statement for each function of the writer.
  - `read?_text`: the text of any value.
  - `read_text`: the text of a value without numbers.
-/

import CheckpointRelay.Proofs.Json.Numbers

namespace CheckpointRelay

/-! ## (1) Units -/

namespace Text

theorem isHalf_toNat (c : Char) : isHigh c.toNat = false ∧ isLow c.toNat = false := by
  have hvalid : c.toNat < 0xD800 ∨ 0xDFFF < c.toNat ∧ c.toNat < 0x110000 := c.valid
  simp only [isHigh, isLow, Bool.and_eq_false_iff, decide_eq_false_iff_not]
  omega

theorem ofUnit_toNat (c : Char) : ofUnit c.toNat = c := by
  obtain ⟨hhigh, hlow⟩ := isHalf_toNat c
  simp [ofUnit, isHalf, hhigh, hlow]

/-- Whole codes are joined to their characters. -/
theorem joinUnits_toNat (cs : List Char) : joinUnits (cs.map Char.toNat) = cs := by
  induction cs with
  | nil => rfl
  | cons c cs ih =>
    cases cs with
    | nil => simp only [List.map_cons, List.map_nil, joinUnits, ofUnit_toNat]
    | cons d ds =>
      simp only [List.map_cons, joinUnits, (isHalf_toNat c).1, Bool.false_and, Bool.false_eq_true, if_false,
        ofUnit_toNat] at ih ⊢
      rw [ih]

end Text

namespace Json

/-! ## (2) Values -/

mutual

def numberFree : Json → Bool
  | .num _ => false
  | .arr items => numberFreeItems items
  | .obj members => numberFreeMembers members
  | _ => true

def numberFreeItems : List Json → Bool
  | [] => true
  | x :: xs => numberFree x && numberFreeItems xs

def numberFreeMembers : List (String × Json) → Bool
  | [] => true
  | (_, v) :: ms => numberFree v && numberFreeMembers ms

end

theorem numberFreeItems_iff {items : List Json} : numberFreeItems items = true ↔ ∀ v ∈ items, v.numberFree = true := by
  induction items with
  | nil => simp [numberFreeItems]
  | cons v vs ih => simp [numberFreeItems, ih]

theorem numberFreeMembers_iff {members : Keyed Json} :
    numberFreeMembers members = true ↔ ∀ m ∈ members, m.2.numberFree = true := by
  induction members with
  | nil => simp [numberFreeMembers]
  | cons m ms ih => simp [numberFreeMembers, ih]

theorem numberFree_ofStrings (names : List String) : (ofStrings names).numberFree = true := by
  rw [ofStrings, numberFree, numberFreeItems_iff]
  intro v hv
  obtain ⟨name, -, rfl⟩ := List.mem_map.mp hv
  rfl

mutual

/-- The value with the members of every object in their order, each once. -/
def ordered : Json → Json
  | .arr items => .arr (orderedItems items)
  | .obj members => .obj (Keyed.ofPairs (orderedMembers members))
  | v => v

def orderedItems : List Json → List Json
  | [] => []
  | x :: xs => ordered x :: orderedItems xs

def orderedMembers : List (String × Json) → List (String × Json)
  | [] => []
  | (k, v) :: ms => (k, ordered v) :: orderedMembers ms

end

mutual

/-- The value that its text is read as. -/
def reread : Json → Json
  | .num x => rereadNumber x
  | .arr items => .arr (rereadItems items)
  | .obj members => .obj (Keyed.ofPairs (rereadMembers members))
  | v => v

def rereadItems : List Json → List Json
  | [] => []
  | x :: xs => reread x :: rereadItems xs

def rereadMembers : List (String × Json) → List (String × Json)
  | [] => []
  | (k, v) :: ms => (k, reread v) :: rereadMembers ms

end

mutual

/-- Only numbers are read as others than were written. -/
theorem reread_of_numberFree (v : Json) (h : v.numberFree = true) : v.reread = v.ordered := by
  match v with
  | .null | .bool _ | .str _ => rfl
  | .num x => cases h
  | .arr items => rw [reread, ordered, rereadItems_of_numberFree items h]
  | .obj members => rw [reread, ordered, rereadMembers_of_numberFree members h]

theorem rereadItems_of_numberFree (items : List Json) (h : numberFreeItems items = true) :
    rereadItems items = orderedItems items := by
  match items with
  | [] => rfl
  | x :: xs =>
    obtain ⟨hx, hxs⟩ : x.numberFree = true ∧ numberFreeItems xs = true := by simpa [numberFreeItems] using h
    rw [rereadItems, orderedItems, reread_of_numberFree x hx, rereadItems_of_numberFree xs hxs]

theorem rereadMembers_of_numberFree (members : List (String × Json)) (h : numberFreeMembers members = true) :
    rereadMembers members = orderedMembers members := by
  match members with
  | [] => rfl
  | (k, v) :: ms =>
    obtain ⟨hv, hms⟩ : v.numberFree = true ∧ numberFreeMembers ms = true := by simpa [numberFreeMembers] using h
    rw [rereadMembers, orderedMembers, reread_of_numberFree v hv, rereadMembers_of_numberFree ms hms]

end

/-! ## (3) Runs -/

namespace Reader

variable (stack : List Frame) (isKey : Bool) (units : List Nat) (rest : List Char)

theorem letterValue?_hexDigit (n : Nat) (h : n < 16) : Number.Numeral.letterValue? (Text.hexDigit n) = some n := by
  revert n
  decide

/-- An escaped character comes back as its code. -/
theorem run_escapeChar (c : Char) :
    run? ⟨stack, .string isKey units⟩ (escapeChar c ++ rest)
      = run? ⟨stack, .string isKey (c.toNat :: units)⟩ rest := by
  unfold escapeChar
  split
  · subst c; rfl
  rename_i hquote
  split
  · subst c; rfl
  rename_i hslash
  split
  · subst c; rfl
  split
  · subst c; rfl
  split
  · subst c; rfl
  split
  · rename_i h; rw [h]; rfl
  split
  · rename_i h; rw [h]; rfl
  -- the control characters without a short escape: four hexadecimal digits, the first two zero
  split
  · rename_i h
    have hhigh := letterValue?_hexDigit (c.toNat / 16) (by omega)
    have hlow := letterValue?_hexDigit (c.toNat % 16) (by omega)
    have hzero : Number.Numeral.letterValue? '0' = some 0 := by decide
    have hcode : c.toNat / 16 * 16 + c.toNat % 16 = c.toNat := by omega
    simp [step?, hhigh, hlow, hzero, hcode]
  · rename_i h
    simp [step?, hquote, hslash, h]

theorem run_escaped (cs : List Char) :
    run? ⟨stack, .string isKey units⟩ (cs.flatMap escapeChar ++ rest)
      = run? ⟨stack, .string isKey ((cs.map Char.toNat).reverse ++ units)⟩ rest := by
  induction cs generalizing units with
  | nil => rfl
  | cons c cs ih =>
    rw [List.flatMap_cons, List.append_assoc, run_escapeChar, ih, List.map_cons, List.reverse_cons, List.append_assoc]
    rfl

/-- After the opening quote, the rest of a quoted string. -/
theorem run_quoted (s : String) :
    run? ⟨stack, .string isKey []⟩ (s.toList.flatMap escapeChar ++ '"' :: rest)
      = (endString? stack isKey (s.toList.map Char.toNat).reverse).bind fun r => r.run? rest := by
  rw [run_escaped, List.append_nil, run?_cons]
  rfl

theorem endString?_value (s : String) :
    endString? stack false (s.toList.map Char.toNat).reverse = some (accept (.str s) stack) := by
  simp [endString?, Text.joinUnits_toNat]

theorem endString?_key (s : String) (members : Keyed Json) (key : String) :
    endString? (.object members key :: stack) true (s.toList.map Char.toNat).reverse
      = some ⟨.object members s :: stack, .colon⟩ := by
  simp [endString?, Text.joinUnits_toNat]

theorem run_string (s : String) :
    run? ⟨stack, .value⟩ (quote s ++ rest) = run? (accept (.str s) stack) rest := by
  have hstep : step? ⟨stack, .value⟩ '"' = some ⟨stack, .string false []⟩ := rfl
  rw [quote, List.cons_append, List.append_assoc, run?_cons, hstep, Option.bind_some, List.cons_append, List.nil_append,
    run_quoted, endString?_value, Option.bind_some]

/-- The quote that opens a key may be the first character of an object or follow a comma. -/
theorem run_key (s : String) (members : Keyed Json) (key : String) {mode : Mode}
    (hmode : mode = .firstKey ∨ mode = .key) :
    run? ⟨.object members key :: stack, mode⟩ (quote s ++ ':' :: rest)
      = run? ⟨.object members s :: stack, .value⟩ rest := by
  have hstep : step? ⟨.object members key :: stack, mode⟩ '"'
      = some ⟨.object members key :: stack, .string true []⟩ := by
    rcases hmode with rfl | rfl <;> rfl
  have hcolon : step? ⟨.object members s :: stack, .colon⟩ ':' = some ⟨.object members s :: stack, .value⟩ := rfl
  rw [quote, List.cons_append, List.append_assoc, run?_cons, hstep, Option.bind_some, List.cons_append, List.nil_append,
    run_quoted, endString?_key, Option.bind_some, run?_cons, hcolon, Option.bind_some]

/-- The first item of an array is read as any value. -/
theorem run_firstItem (v : Json) :
    run? ⟨stack, .firstItem⟩ (render v ++ rest) = run? ⟨stack, .value⟩ (render v ++ rest) := by
  match v with
  | .null => rfl
  | .bool true => rfl
  | .bool false => rfl
  | .num x =>
    obtain ⟨c, cs, htext, hgap, hbracket⟩ := renderNumber_head x
    simp only [render, htext, List.cons_append, run?_cons, step?, hgap, hbracket, Bool.false_eq_true, if_false]
  | .str s => rfl
  | .arr [] => rfl
  | .arr (x :: xs) => rfl
  | .obj [] => rfl
  | .obj (m :: ms) => rfl

/-- A number is over only when something comes that no number has; any other value ends by itself. -/
def Ends (v : Json) (rest : List Char) : Prop :=
  (∀ x, v ≠ .num x) ∨ ∃ c cs, rest = c :: cs ∧ c ∈ [',', ']', '}']

theorem ends_items (v : Json) (xs : List Json) (rest : List Char) : Ends v (renderItems xs ++ rest) := by
  cases xs with
  | nil => exact Or.inr ⟨']', rest, rfl, by decide⟩
  | cons x xs => exact Or.inr ⟨',', _, rfl, by decide⟩

theorem ends_members (v : Json) (ms : List (String × Json)) (rest : List Char) :
    Ends v (renderMembers ms ++ rest) := by
  cases ms with
  | nil => exact Or.inr ⟨'}', rest, rfl, by decide⟩
  | cons m ms => exact Or.inr ⟨',', _, rfl, by decide⟩

mutual

theorem run_render (v : Json) (stack : List Frame) (rest : List Char) (h : Ends v rest) :
    run? ⟨stack, .value⟩ (render v ++ rest) = run? (accept v.reread stack) rest := by
  match v with
  | .null => rfl
  | .bool true => rfl
  | .bool false => rfl
  | .num x =>
    rcases h with h | ⟨c, cs, rfl, hc⟩
    · exact absurd rfl (h x)
    · exact run_number stack x hc cs
  | .str s => exact run_string stack rest s
  | .arr [] => rfl
  | .arr (x :: xs) =>
    have hopen : step? ⟨stack, .value⟩ '[' = some ⟨.array [] :: stack, .firstItem⟩ := rfl
    rw [render, List.cons_append, List.append_assoc, run?_cons, hopen, Option.bind_some, run_firstItem,
      run_render x _ _ (ends_items x xs rest), accept, run_items xs]
    rfl
  | .obj [] => rfl
  | .obj ((k, v) :: ms) =>
    have hopen : step? ⟨stack, .value⟩ '{' = some ⟨.object [] "" :: stack, .firstKey⟩ := rfl
    rw [render, List.cons_append, List.append_assoc, run?_cons, hopen, Option.bind_some, List.cons_append,
      run_key _ _ _ _ _ (Or.inl rfl), List.append_assoc, run_render v _ _ (ends_members v ms rest), accept,
      run_members ms]
    rfl

/-- The items after some items, up to the closing bracket. -/
theorem run_items (xs : List Json) (items : List Json) (stack : List Frame) (rest : List Char) :
    run? ⟨.array items :: stack, .after⟩ (renderItems xs ++ rest)
      = run? (accept (.arr (items.reverse ++ rereadItems xs)) stack) rest := by
  match xs with
  | [] =>
    rw [rereadItems, List.append_nil]
    rfl
  | x :: xs =>
    have hcomma : step? ⟨.array items :: stack, .after⟩ ',' = some ⟨.array items :: stack, .value⟩ := rfl
    rw [renderItems, List.cons_append, List.append_assoc, run?_cons, hcomma, Option.bind_some,
      run_render x _ _ (ends_items x xs rest), accept, run_items xs, List.reverse_cons, List.append_assoc]
    rfl

/-- The members after some members, up to the closing brace. -/
theorem run_members (ms : List (String × Json)) (members : Keyed Json) (key : String) (stack : List Frame)
    (rest : List Char) :
    run? ⟨.object members key :: stack, .after⟩ (renderMembers ms ++ rest)
      = run? (accept (.obj ((rereadMembers ms).foldl (fun ms p => Keyed.put ms p.1 p.2) members)) stack) rest := by
  match ms with
  | [] => rfl
  | (k, v) :: ms =>
    have hcomma : step? ⟨.object members key :: stack, .after⟩ ',' = some ⟨.object members key :: stack, .key⟩ := rfl
    rw [renderMembers, List.cons_append, List.append_assoc, run?_cons, hcomma, Option.bind_some, List.cons_append,
      run_key _ _ _ _ _ (Or.inr rfl), List.append_assoc, run_render v _ _ (ends_members v ms rest), accept,
      run_members ms]
    rfl

end

end Reader

/-- Every text that is written is read. -/
theorem read?_text (v : Json) : read? v.text = some v.reread := by
  by_cases hnumber : ∃ x, v = .num x
  · obtain ⟨x, rfl⟩ := hnumber
    exact Reader.read_number x
  · have hrun : Reader.start.run? (render v) = some ⟨[], .finished v.reread⟩ := by
      have hrender := Reader.run_render v [] [] (Or.inl fun x hx => hnumber ⟨x, hx⟩)
      rw [List.append_nil] at hrender
      exact hrender
    rw [read?, text, String.toList_ofList, hrun]
    rfl

/-- The text of a value without numbers reads back as that value. -/
theorem read_text (v : Json) (h : v.numberFree = true) : read? v.text = some v.ordered := by
  rw [read?_text, reread_of_numberFree v h]

end Json

end CheckpointRelay
