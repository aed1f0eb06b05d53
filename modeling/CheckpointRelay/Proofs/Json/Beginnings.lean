/-
  CheckpointRelay.Proofs.Json.Beginnings — the beginnings of a text.

  A text is read once the reader is outside of every array and object and its value is over or is
  a number (`Over`). It is so from there on: only more of the number or gaps may follow. So of a
  text that ends with a closing brace no shorter beginning is a text, wherever it is cut, and
  strings, escapes and numbers inside of it make no difference. A text that ends with a U+FFFD is
  none either, because that character can stand only in a string.
  - `run?_over`: what is over stays so.
  - `read?_beginning`: the beginnings of a text that ends with a closing brace.
  - `read?_replaced`: texts that end with a U+FFFD.
  - `render_printable` / `render_closed`: what the writer writes.
-/

import CheckpointRelay.Proofs.Json.Rereading

namespace CheckpointRelay.Json

/-! ## (1) A value that is over -/

namespace Reader

/-- Nothing is open: the value is over, or it is a number by itself. -/
def Over (r : Reader) : Prop := (∃ v, r.mode = .finished v) ∨ ∃ l chars, r.mode = .number l chars ∧ r.stack = []

variable {r r' : Reader} {c : Char}

theorem over_of_result {v : Json} (h : r.result? = some v) : r.Over := by
  unfold result? at h
  split at h
  · rename_i hmode
    exact Or.inl ⟨_, hmode⟩
  · rename_i l chars hmode hstack
    exact Or.inr ⟨l, chars, hmode, hstack⟩
  · cases h

theorem settled_finished {v : Json} (hmode : r.mode = .finished v) (h : r.settled? c = some r') :
    isGap c = true ∧ r' = r := by
  unfold settled? at h
  split at h
  · rename_i hgap
    exact ⟨hgap, (Option.some.inj h).symm⟩
  · simp [hmode] at h

/-- What may follow a value that is over: a gap, or more of a number. -/
theorem step?_over (hover : r.Over) (h : r.step? c = some r') :
    r'.Over ∧ (isGap c = true ∨ ∃ l l' : Lexeme, l.next? c = some l') := by
  rcases hover with ⟨v, hmode⟩ | ⟨l, chars, hmode, hstack⟩
  · simp only [step?, hmode] at h
    obtain ⟨hgap, rfl⟩ := settled_finished hmode h
    exact ⟨Or.inl ⟨v, hmode⟩, Or.inl hgap⟩
  · simp only [step?, hmode] at h
    split at h
    · rename_i next hnext
      cases h
      exact ⟨Or.inr ⟨next, c :: chars, rfl, hstack⟩, Or.inr ⟨l, next, hnext⟩⟩
    split at h
    · rw [hstack] at h
      obtain ⟨hgap, rfl⟩ := settled_finished rfl h
      exact ⟨Or.inl ⟨_, rfl⟩, Or.inl hgap⟩
    · cases h

theorem run?_over {cs : List Char} (hover : r.Over) (h : r.run? cs = some r') : r'.Over :=
  run?_keeps (fun hr hstep => (step?_over hr hstep).1) hover h

/-- No closing brace follows a value that is over. -/
theorem run?_closed (hover : r.Over) (cs : List Char) : r.run? (cs ++ ['}']) = none := by
  rw [Option.eq_none_iff_forall_ne_some]
  intro last h
  rw [run?_append] at h
  obtain ⟨next, hrun, hlast⟩ := Option.bind_eq_some_iff.mp h
  rw [run?_cons] at hlast
  obtain ⟨closed, hclosed, -⟩ := Option.bind_eq_some_iff.mp hlast
  rcases (step?_over (run?_over hover hrun) hclosed).2 with hgap | ⟨l, l', hnumber⟩
  · revert hgap
    decide
  · cases l <;> cases hnumber

end Reader

/-! ## (2) A character of strings alone -/

/-- The letters that are left of a word. -/
def Mode.letters : Mode → List Char
  | .word rest _ => rest
  | _ => []

namespace Reader

open Text.Utf8 (replacement)

/-- No word has a U+FFFD in it. -/
def Spelled (r : Reader) : Prop := replacement ∉ r.mode.letters

variable {r r' : Reader} {c : Char}

theorem accept_spelled (v : Json) (stack : List Frame) : (accept v stack).Spelled := by
  match stack with
  | [] => exact List.not_mem_nil
  | .array _ :: _ => exact List.not_mem_nil
  | .object _ _ :: _ => exact List.not_mem_nil

theorem open?_spelled {stack : List Frame} (h : open? stack c = some r') : r'.Spelled := by
  have hwords : replacement ∉ ['r', 'u', 'e'] ∧ replacement ∉ ['a', 'l', 's', 'e'] ∧ replacement ∉ ['u', 'l', 'l'] := by
    decide
  grind [open?, Spelled, Mode.letters]

theorem close?_spelled {stack : List Frame} (h : close? stack c = some r') : r'.Spelled := by
  unfold close? at h
  grind [accept_spelled]

theorem settled?_spelled (hr : r.Spelled) (h : r.settled? c = some r') : r'.Spelled := by
  grind [settled?, Spelled, Mode.letters, close?_spelled]

theorem endString?_spelled {stack : List Frame} {isKey : Bool} {units : List Nat}
    (h : endString? stack isKey units = some r') : r'.Spelled := by
  unfold endString? at h
  grind [Spelled, Mode.letters, accept_spelled]

theorem step?_spelled (hr : r.Spelled) (h : r.step? c = some r') : r'.Spelled := by
  obtain ⟨stack, mode⟩ := r
  cases mode with
  | value | firstItem | firstKey | key | colon =>
    simp only [step?] at h
    grind [open?_spelled, close?_spelled, Spelled, Mode.letters]
  | after | finished => exact settled?_spelled hr h
  | string isKey units =>
    simp only [step?] at h
    grind [endString?_spelled, Spelled, Mode.letters]
  | escape isKey units | unicode isKey units missing bits =>
    simp only [step?] at h
    grind [Option.map_eq_some_iff, Spelled, Mode.letters]
  | number l chars =>
    simp only [step?] at h
    grind [settled?_spelled, accept_spelled, Spelled, Mode.letters]
  | word rest v =>
    simp only [step?] at h
    grind [accept_spelled, Spelled, Mode.letters]

theorem run?_spelled {cs : List Char} (hr : r.Spelled) (h : r.run? cs = some r') : r'.Spelled :=
  run?_keeps step?_spelled hr h

/-- A U+FFFD stands in a string and leaves it open. -/
theorem step?_replacement (hr : r.Spelled) (h : r.step? replacement = some r') : r'.result? = none := by
  obtain ⟨stack, mode⟩ := r
  match mode with
  | .value | .firstItem | .key | .colon | .escape _ _ | .unicode _ _ _ _ => cases h
  | .firstKey | .after | .finished _ =>
    match stack with
    | [] => cases h
    | .array _ :: _ => cases h
    | .object _ _ :: _ => cases h
  | .string isKey units =>
    cases h
    rfl
  | .number l chars =>
    match stack with
    | [] => cases l <;> cases h
    | .array _ :: _ => cases l <;> cases h
    | .object _ _ :: _ => cases l <;> cases h
  | .word [] v => cases h
  | .word (x :: xs) v =>
    have hx : replacement ≠ x := List.ne_of_not_mem_cons hr
    cases xs <;> simp [step?, hx] at h

end Reader

/-! ## (3) Beginnings -/

theorem read?_ofList (cs : List Char) : read? (String.ofList cs) = (Reader.start.run? cs).bind Reader.result? := by
  rw [read?, String.toList_ofList]

/-- No text goes on to a closing brace. -/
theorem read?_beginning (front behind : List Char)
    (h : (read? (String.ofList (front ++ behind ++ ['}']))).isSome) : read? (String.ofList front) = none := by
  rw [Option.eq_none_iff_forall_ne_some]
  intro v hfront
  rw [read?_ofList, List.append_assoc, Reader.run?_append] at h
  rw [read?_ofList] at hfront
  obtain ⟨r, hrun, hresult⟩ := Option.bind_eq_some_iff.mp hfront
  rw [hrun, Option.bind_some, Reader.run?_closed (Reader.over_of_result hresult)] at h
  cases h

/-- No text ends with a U+FFFD. -/
theorem read?_replaced (cs : List Char) : read? (String.ofList (cs ++ [Text.Utf8.replacement])) = none := by
  rw [Option.eq_none_iff_forall_ne_some]
  intro v h
  rw [read?_ofList, Reader.run?_append] at h
  obtain ⟨last, hrun, hresult⟩ := Option.bind_eq_some_iff.mp h
  obtain ⟨r, hbefore, hlast⟩ := Option.bind_eq_some_iff.mp hrun
  have hstep : r.step? Text.Utf8.replacement = some last := by
    rw [Reader.run?_cons] at hlast
    obtain ⟨next, hnext, hnil⟩ := Option.bind_eq_some_iff.mp hlast
    cases hnil
    exact hnext
  have hstart : Reader.start.Spelled := List.not_mem_nil
  have hspelled : r.Spelled := Reader.run?_spelled hstart hbefore
  rw [Reader.step?_replacement hspelled hstep] at hresult
  cases hresult

/-! ## (4) What is written -/

/-- None of the characters is a control character below U+0020. -/
def Printable (cs : List Char) : Prop := ∀ c ∈ cs, 0x20 ≤ c.toNat

instance (cs : List Char) : Decidable (Printable cs) := List.decidableBAll (fun c : Char => 0x20 ≤ c.toNat) cs

theorem Printable.append {cs ds : List Char} (hcs : Printable cs) (hds : Printable ds) : Printable (cs ++ ds) := by
  intro c hc
  exact (List.mem_append.mp hc).elim (hcs c) (hds c)

theorem Printable.cons {c : Char} {cs : List Char} (hc : 0x20 ≤ c.toNat) (hcs : Printable cs) : Printable (c :: cs) :=
  List.forall_mem_cons.mpr ⟨hc, hcs⟩

theorem hexDigit_printable {n : Nat} (h : n < 16) : 0x20 ≤ (Text.hexDigit n).toNat := by
  revert n
  decide

theorem escapeChar_printable (c : Char) : Printable (escapeChar c) := by
  unfold escapeChar
  split_ifs with _ _ _ _ _ _ _ hcontrol
  iterate 7 decide
  · have hhigh := hexDigit_printable (show c.toNat / 16 < 16 by omega)
    have hlow := hexDigit_printable (show c.toNat % 16 < 16 by omega)
    have hmark : Printable ['\\', 'u', '0', '0'] := by decide
    exact hmark.append (.cons hhigh (.cons hlow nofun))
  · exact .cons (by omega) nofun

theorem quote_printable (s : String) : Printable (quote s) := by
  have hbody : Printable (s.toList.flatMap escapeChar) := by
    intro x hx
    obtain ⟨c, -, hx⟩ := List.mem_flatMap.mp hx
    exact escapeChar_printable c x hx
  exact .cons (by decide) (hbody.append (.cons (by decide) nofun))

theorem next?_printable {l l' : Lexeme} {c : Char} (h : l.next? c = some l') : 0x20 ≤ c.toNat := by
  have hdigit (hc : Number.Numeral.isDigit c = true) : 0x20 ≤ c.toNat := by
    have hzero : '0' ≤ c := by
      rw [Number.Numeral.isDigit, Bool.and_eq_true, decide_eq_true_eq] at hc
      exact hc.1
    exact le_trans (by decide : 0x20 ≤ '0'.toNat) hzero
  have hmark (hc : c ∈ ['0', '.', 'e', 'E', '+', '-']) : 0x20 ≤ c.toNat :=
    (by decide : Printable ['0', '.', 'e', 'E', '+', '-']) c hc
  cases l <;> grind [Lexeme.next?]

theorem lexed_printable {l l' : Lexeme} {cs : List Char} (h : l.run? cs = some l') : Printable cs := by
  induction cs generalizing l with
  | nil => exact nofun
  | cons c cs ih =>
    rw [Lexeme.run?_cons] at h
    obtain ⟨next, hnext, hrun⟩ := Option.bind_eq_some_iff.mp h
    exact .cons (next?_printable hnext) (ih hrun)

theorem renderNumber_printable (x : Number.Binary64) : Printable (renderNumber x) := by
  match x with
  | .nan | .infinite _ => exact (by decide : Printable ['n', 'u', 'l', 'l'])
  | .finite negative m e =>
    obtain ⟨cs, l, -, hlexed, htext⟩ := Lexeme.text_lexed negative m e
    rw [renderNumber]
    rcases htext with htext | htext
    · rw [htext]
      exact lexed_printable hlexed
    · rw [htext]
      exact .cons (by decide) (lexed_printable hlexed)

mutual

/-- Control characters are escaped in strings and stand nowhere else. -/
theorem render_printable (v : Json) : Printable (render v) := by
  match v with
  | .null | .bool true | .bool false | .arr [] | .obj [] => exact (by decide)
  | .num x => exact renderNumber_printable x
  | .str s => exact quote_printable s
  | .arr (x :: xs) => exact .cons (by decide) ((render_printable x).append (renderItems_printable xs))
  | .obj ((k, v) :: ms) =>
    exact .cons (by decide) ((quote_printable k).append
      (.cons (by decide) ((render_printable v).append (renderMembers_printable ms))))

theorem renderItems_printable (xs : List Json) : Printable (renderItems xs) := by
  match xs with
  | [] => exact .cons (by decide) nofun
  | x :: xs => exact .cons (by decide) ((render_printable x).append (renderItems_printable xs))

theorem renderMembers_printable (ms : List (String × Json)) : Printable (renderMembers ms) := by
  match ms with
  | [] => exact .cons (by decide) nofun
  | (k, v) :: ms =>
    exact .cons (by decide) ((quote_printable k).append
      (.cons (by decide) ((render_printable v).append (renderMembers_printable ms))))

end

theorem renderMembers_closed (ms : List (String × Json)) : ∃ body, renderMembers ms = body ++ ['}'] := by
  induction ms with
  | nil => exact ⟨[], rfl⟩
  | cons m ms ih =>
    obtain ⟨body, hbody⟩ := ih
    refine ⟨',' :: (quote m.1 ++ ':' :: (render m.2 ++ body)), ?_⟩
    rw [renderMembers, hbody]
    simp

/-- The text of an object ends with its brace. -/
theorem render_closed (ms : Keyed Json) : ∃ body, render (.obj ms) = body ++ ['}'] := by
  match ms with
  | [] => exact ⟨['{'], rfl⟩
  | (k, v) :: ms =>
    obtain ⟨body, hbody⟩ := renderMembers_closed ms
    refine ⟨'{' :: (quote k ++ ':' :: (render v ++ body)), ?_⟩
    rw [render, hbody]
    simp

end CheckpointRelay.Json
