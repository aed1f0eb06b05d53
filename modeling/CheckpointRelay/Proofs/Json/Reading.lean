/-
  CheckpointRelay.Proofs.Json.Reading — what holds of every value that is read.

  A property of values is kept by reading (`Kept`) if the words, the strings and the numbers that
  a text can spell have it, and arrays and objects have it as soon as their parts do. The number
  that a text spells is always one: the states of the reader inside a number allow just what a
  decimal is made of, so it is rounded from that decimal and is never the value that is no number.
  - `decimal?_lexed`: a number that is over is a decimal.
  - `step?_kept` / `read?_kept`: what one step keeps, and so what a whole text gives.
  - `read?_doubles`: every number that is read is a double.
-/

import CheckpointRelay.Proofs.Json.Rereading
import CheckpointRelay.Proofs.Number.Rounding

namespace CheckpointRelay

/-- A new member is the only one that may not have been there before. -/
theorem Keyed.mem_put {α : Type} {ms : Keyed α} {key : String} {value : α} {p : String × α}
    (h : p ∈ put ms key value) : p = (key, value) ∨ p ∈ ms := by
  unfold put at h
  split at h
  · obtain ⟨m, hm, rfl⟩ := List.mem_map.mp h
    split
    · exact Or.inl rfl
    · exact Or.inr hm
  · split at h
    · rw [List.mem_append, List.mem_singleton] at h
      exact h.symm
    · rw [List.mem_append, List.mem_cons] at h
      rcases h with h | h | h
      · exact Or.inr ((List.takeWhile_sublist _).subset h)
      · exact Or.inl h
      · exact Or.inr ((List.dropWhile_sublist _).subset h)

namespace Json

open Number (Binary64)
open Number.Numeral (isDigit decimal? exponent? tail?)

/-! ## (1) Decimals -/

namespace Lexeme

variable {l : Lexeme} {cs : List Char}

theorem digits_of_exponentDigits (h : exponentDigits.run? cs = some l) : cs.all isDigit = true := by
  induction cs with
  | nil => rfl
  | cons c cs ih =>
    obtain ⟨next, hnext, hrun⟩ := Option.bind_eq_some_iff.mp h
    simp only [next?] at hnext
    split at hnext
    · rename_i hdigit
      cases hnext
      rw [List.all_cons, hdigit, ih hrun]
      rfl
    · cases hnext

theorem exponent?_of_digits {c : Char} (hdigit : isDigit c = true) (hrun : exponentDigits.run? cs = some l) :
    ∃ n, exponent? (c :: cs) = some n ∧ exponent? ('+' :: c :: cs) = some n ∧
      exponent? ('-' :: c :: cs) = some (-n) := by
  have hall : (c :: cs).all isDigit = true := by
    rw [List.all_cons, hdigit, digits_of_exponentDigits hrun]
    rfl
  refine ⟨Number.Numeral.natOfDigits (c :: cs), ?_, ?_, ?_⟩
  · unfold exponent?
    split
    · rename_i heq
      cases heq
      exact absurd hdigit (by decide)
    · rename_i heq
      cases heq
      exact absurd hdigit (by decide)
    · exact if_pos ⟨List.cons_ne_nil c cs, hall⟩
  · exact if_pos ⟨List.cons_ne_nil c cs, hall⟩
  · simp only [exponent?, if_pos (And.intro (List.cons_ne_nil c cs) hall)]
    rfl

/-- The digits of an exponent, behind its sign if it has one. -/
theorem exponent?_lexed (h : exponent.run? cs = some l) (hcomplete : l.complete = true) :
    ∃ power, exponent? cs = some power := by
  cases cs with
  | nil =>
    cases h
    cases hcomplete
  | cons c cs =>
    obtain ⟨next, hnext, hrun⟩ := Option.bind_eq_some_iff.mp h
    simp only [next?] at hnext
    split at hnext
    · rename_i hdigit
      cases hnext
      obtain ⟨n, hplain, -⟩ := exponent?_of_digits hdigit hrun
      exact ⟨n, hplain⟩
    split at hnext
    · rename_i hsign
      cases hnext
      cases cs with
      | nil =>
        cases hrun
        cases hcomplete
      | cons d ds =>
        obtain ⟨next, hnext, hrun⟩ := Option.bind_eq_some_iff.mp hrun
        simp only [next?] at hnext
        split at hnext
        · rename_i hdigit
          cases hnext
          obtain ⟨n, -, hplus, hminus⟩ := exponent?_of_digits hdigit hrun
          rcases hsign with rfl | rfl
          · exact ⟨n, hplus⟩
          · exact ⟨-n, hminus⟩
        · cases hnext
    · cases hnext

/-- What may stand behind the digits of a decimal. -/
theorem tail?_lexed (hl : cs = [] ∨ ∃ c rest, cs = c :: rest ∧ (c = 'e' ∨ c = 'E') ∧ exponent.run? rest = some l)
    (hcomplete : l.complete = true) : ∃ power, tail? cs = some power := by
  rcases hl with rfl | ⟨c, rest, rfl, hletter, hrun⟩
  · exact ⟨0, rfl⟩
  · simp only [tail?, if_pos hletter]
    exact exponent?_lexed hrun hcomplete

theorem fraction_tail (h : fraction.run? cs = some l) (hcomplete : l.complete = true) :
    ∃ power, tail? (cs.dropWhile isDigit) = some power := by
  induction cs with
  | nil => exact ⟨0, rfl⟩
  | cons c cs ih =>
    obtain ⟨next, hnext, hrun⟩ := Option.bind_eq_some_iff.mp h
    simp only [next?] at hnext
    split at hnext
    · rename_i hdigit
      cases hnext
      rw [List.dropWhile_cons_of_pos hdigit]
      exact ih hrun
    split at hnext
    · rename_i hdigit hletter
      cases hnext
      rw [List.dropWhile_cons_of_neg hdigit]
      exact tail?_lexed (Or.inr ⟨c, cs, rfl, by simpa using hletter, hrun⟩) hcomplete
    · cases hnext

/-- Behind the digits before the point there is a fraction, an exponent or nothing. -/
def Tailed (rest : List Char) : Prop :=
  match rest with
  | '.' :: cs => ∃ power, tail? (cs.dropWhile isDigit) = some power
  | cs => ∃ power, tail? cs = some power

theorem point_tail (h : point.run? cs = some l) (hcomplete : l.complete = true) :
    ∃ power, tail? (cs.dropWhile isDigit) = some power := by
  cases cs with
  | nil =>
    cases h
    cases hcomplete
  | cons c cs =>
    obtain ⟨next, hnext, hrun⟩ := Option.bind_eq_some_iff.mp h
    simp only [next?] at hnext
    split at hnext
    · rename_i hdigit
      cases hnext
      rw [List.dropWhile_cons_of_pos hdigit]
      exact fraction_tail hrun hcomplete
    · cases hnext

theorem tailed_of_whole (h : whole.run? cs = some l) (hcomplete : l.complete = true) :
    Tailed (cs.dropWhile isDigit) := by
  induction cs with
  | nil => exact ⟨0, rfl⟩
  | cons c cs ih =>
    obtain ⟨next, hnext, hrun⟩ := Option.bind_eq_some_iff.mp h
    simp only [next?] at hnext
    split at hnext
    · rename_i hdigit
      cases hnext
      rw [List.dropWhile_cons_of_pos hdigit]
      exact ih hrun
    rename_i hdigit
    rw [List.dropWhile_cons_of_neg hdigit]
    split at hnext
    · rename_i hpoint
      cases hnext
      subst hpoint
      exact point_tail hrun hcomplete
    split at hnext
    · rename_i hpoint hletter
      cases hnext
      have htail := tail?_lexed (Or.inr ⟨c, cs, rfl, by simpa using hletter, hrun⟩) hcomplete
      unfold Tailed
      split
      · rename_i heq
        exact absurd (List.cons.inj heq).1 hpoint
      · exact htail
    · cases hnext

/-- A zero in front is followed by what may follow any digits but a digit. -/
theorem whole_of_zero {c : Char} (h : zero.next? c = some l) : whole.next? c = some l := by
  simp only [next?] at h ⊢
  split at h
  · rename_i hpoint
    subst hpoint
    exact h
  · rename_i hpoint
    split at h
    · rename_i hletter
      have hdigit : isDigit c = false := by
        rcases (by simpa using hletter : c = 'e' ∨ c = 'E') with rfl | rfl <;> rfl
      rw [hdigit, if_neg Bool.false_ne_true, if_neg hpoint, if_pos hletter]
      exact h
    · cases h

/-- A number that is over is a decimal. -/
theorem decimal?_lexed (h : sign.run? cs = some l) (hcomplete : l.complete = true) (negative : Bool) :
    ∃ x, decimal? negative cs = some x := by
  cases cs with
  | nil =>
    cases h
    cases hcomplete
  | cons c cs =>
    obtain ⟨next, hnext, hrun⟩ := Option.bind_eq_some_iff.mp h
    obtain ⟨hdigit, rfl⟩ := Reader.sign_next hnext
    have htailed : Tailed (cs.dropWhile isDigit) := by
      split at hrun
      · cases cs with
        | nil => exact ⟨0, rfl⟩
        | cons d ds =>
          obtain ⟨next, hnext, hrun⟩ := Option.bind_eq_some_iff.mp hrun
          refine tailed_of_whole (l := l) ?_ hcomplete
          rw [run?_cons, whole_of_zero hnext]
          exact hrun
      · exact tailed_of_whole hrun hcomplete
    unfold decimal?
    extract_lets digits rest
    have hdigits : digits ≠ [] := by
      show (c :: cs).takeWhile isDigit ≠ []
      rw [List.takeWhile_cons_of_pos hdigit]
      exact List.cons_ne_nil _ _
    have hrest : rest = cs.dropWhile isDigit := List.dropWhile_cons_of_pos hdigit
    rw [← hrest] at htailed
    clear_value rest
    unfold Tailed at htailed
    split at htailed
    · obtain ⟨power, hpower⟩ := htailed
      simp only [hdigits, false_and, if_false, hpower]
      exact ⟨_, rfl⟩
    · obtain ⟨power, hpower⟩ := htailed
      simp only [hdigits, false_and, if_false, hpower]
      exact ⟨_, rfl⟩

end Lexeme

/-- The characters of a number so far, a minus sign in front not counted. -/
def NumberSoFar (l : Lexeme) (chars : List Char) : Prop :=
  Lexeme.sign.run? chars = some l ∨ ∃ cs, chars = '-' :: cs ∧ Lexeme.sign.run? cs = some l

theorem NumberSoFar.next {l next : Lexeme} {chars : List Char} {c : Char} (h : NumberSoFar l chars)
    (hnext : l.next? c = some next) : NumberSoFar next (chars ++ [c]) := by
  have hrun {cs : List Char} (h : Lexeme.sign.run? cs = some l) : Lexeme.sign.run? (cs ++ [c]) = some next := by
    rw [Lexeme.run?_append, h, Option.bind_some, Lexeme.run?_cons, hnext]
    rfl
  rcases h with h | ⟨cs, rfl, h⟩
  · exact Or.inl (hrun h)
  · exact Or.inr ⟨cs ++ [c], rfl, hrun h⟩

/-- A number in a text is a double. -/
theorem numberOf_double {l : Lexeme} {chars : List Char} (h : NumberSoFar l chars) (hcomplete : l.complete = true) :
    ∃ x, numberOf chars = .num x ∧ x.IsDouble ∧ x ≠ .nan := by
  have hdouble (negative : Bool) {cs : List Char} (h : Lexeme.sign.run? cs = some l) :
      ∃ x, decimal? negative cs = some x ∧ x.IsDouble ∧ x ≠ .nan := by
    obtain ⟨x, hx⟩ := Lexeme.decimal?_lexed h hcomplete negative
    exact ⟨x, hx, Number.Numeral.isDouble_decimal? hx, Number.Numeral.decimal?_ne_nan hx⟩
  rcases h with h | ⟨cs, rfl, h⟩
  · obtain ⟨x, hx, hkind⟩ := hdouble false h
    refine ⟨x, ?_, hkind⟩
    unfold numberOf
    split
    · cases h
    · rw [hx]
      rfl
  · obtain ⟨x, hx, hkind⟩ := hdouble true h
    refine ⟨x, ?_, hkind⟩
    simp only [numberOf, hx]
    rfl

/-! ## (2) What is kept -/

/-- A property that all values have which are read of a text. -/
structure Kept (V : Json → Prop) : Prop where
  null : V .null
  bool (b : Bool) : V (.bool b)
  str (s : String) : V (.str s)
  number (x : Binary64) : x.IsDouble → x ≠ .nan → V (.num x)
  arr (items : List Json) : (∀ v ∈ items, V v) → V (.arr items)
  empty : V (.obj [])
  put (members : Keyed Json) (key : String) (v : Json) : V (.obj members) → V v → V (.obj (Keyed.put members key v))

namespace Reader

variable {V : Json → Prop} {stack : List Frame} {c : Char} {r r' : Reader}

def FrameKept (V : Json → Prop) : Frame → Prop
  | .array items => ∀ v ∈ items, V v
  | .object members _ => V (.obj members)

def ModeKept (V : Json → Prop) : Mode → Prop
  | .finished v => V v
  | .word _ v => V v
  | .number l chars => NumberSoFar l chars.reverse
  | _ => True

/-- All that the reader holds has the property. -/
def Holds (V : Json → Prop) (r : Reader) : Prop := (∀ f ∈ r.stack, FrameKept V f) ∧ ModeKept V r.mode

theorem accept_kept (hV : Kept V) {v : Json} (hv : V v) (hs : ∀ f ∈ stack, FrameKept V f) :
    (accept v stack).Holds V := by
  match stack, hs with
  | [], hs => exact ⟨hs, hv⟩
  | .array items :: rest, hs =>
    obtain ⟨hitems, hrest⟩ := List.forall_mem_cons.mp hs
    exact ⟨List.forall_mem_cons.mpr ⟨List.forall_mem_cons.mpr ⟨hv, hitems⟩, hrest⟩, trivial⟩
  | .object members key :: rest, hs =>
    obtain ⟨hmembers, hrest⟩ := List.forall_mem_cons.mp hs
    exact ⟨List.forall_mem_cons.mpr ⟨hV.put members key v hmembers hv, hrest⟩, trivial⟩

theorem open?_kept (hV : Kept V) (hs : ∀ f ∈ stack, FrameKept V f) (h : open? stack c = some r) : r.Holds V := by
  have hdigit {c : Char} {l : Lexeme} (h : Lexeme.sign.next? c = some l) : NumberSoFar l [c] := by
    left
    rw [Lexeme.run?_cons, h]
    rfl
  unfold open? at h
  split at h
  · cases h
    exact ⟨hs, trivial⟩
  split at h
  · cases h
    exact ⟨List.forall_mem_cons.mpr ⟨List.forall_mem_nil _, hs⟩, trivial⟩
  split at h
  · cases h
    exact ⟨List.forall_mem_cons.mpr ⟨hV.empty, hs⟩, trivial⟩
  split at h
  · cases h
    exact ⟨hs, hV.bool true⟩
  split at h
  · cases h
    exact ⟨hs, hV.bool false⟩
  split at h
  · cases h
    exact ⟨hs, hV.null⟩
  split at h
  · cases h
    exact ⟨hs, Or.inr ⟨[], rfl, rfl⟩⟩
  split at h
  · cases h
    exact ⟨hs, hdigit rfl⟩
  · rename_i hzero
    split at h
    · rename_i hc
      cases h
      refine ⟨hs, hdigit ?_⟩
      simp only [Lexeme.next?, if_neg hzero, hc, if_true]
    · cases h

theorem close?_kept (hV : Kept V) (hs : ∀ f ∈ stack, FrameKept V f) (h : close? stack c = some r) : r.Holds V := by
  match stack, hs, h with
  | .array items :: rest, hs, h =>
    obtain ⟨hitems, hrest⟩ := List.forall_mem_cons.mp hs
    simp only [close?, Option.ite_none_right_eq_some, Option.some.injEq] at h
    obtain ⟨-, rfl⟩ := h
    exact accept_kept hV (hV.arr _ fun v hv => hitems v (List.mem_reverse.mp hv)) hrest
  | .object members key :: rest, hs, h =>
    obtain ⟨hmembers, hrest⟩ := List.forall_mem_cons.mp hs
    simp only [close?, Option.ite_none_right_eq_some, Option.some.injEq] at h
    obtain ⟨-, rfl⟩ := h
    exact accept_kept hV hmembers hrest

theorem settled?_kept (hV : Kept V) (hr : r.Holds V) (h : r.settled? c = some r') : r'.Holds V := by
  unfold settled? at h
  split at h
  · cases h
    exact hr
  split at h
  · rename_i items rest hmode hstack
    have hs := hr.1
    rw [hstack] at hs
    split at h
    · cases h
      exact ⟨hs, trivial⟩
    · exact close?_kept hV hr.1 h
  · rename_i members key rest hmode hstack
    have hs := hr.1
    rw [hstack] at hs
    split at h
    · cases h
      exact ⟨hs, trivial⟩
    · exact close?_kept hV hr.1 h
  · cases h

theorem endString?_kept (hV : Kept V) (hs : ∀ f ∈ stack, FrameKept V f) {isKey : Bool} {units : List Nat}
    (h : endString? stack isKey units = some r) : r.Holds V := by
  unfold endString? at h
  split at h
  · cases h
    obtain ⟨hmembers, hrest⟩ := List.forall_mem_cons.mp hs
    exact ⟨List.forall_mem_cons.mpr ⟨hmembers, hrest⟩, trivial⟩
  · cases h
  · cases h
    exact accept_kept hV (hV.str _) hs

theorem numberOf_kept (hV : Kept V) {l : Lexeme} {chars : List Char} (h : NumberSoFar l chars)
    (hcomplete : l.complete = true) : V (numberOf chars) := by
  obtain ⟨x, hx, hdouble, hnan⟩ := numberOf_double h hcomplete
  rw [hx]
  exact hV.number x hdouble hnan

/-- One character more. -/
theorem step?_kept (hV : Kept V) (hr : r.Holds V) (h : r.step? c = some r') : r'.Holds V := by
  obtain ⟨stack, mode⟩ := r
  obtain ⟨hs, hmode⟩ := hr
  cases mode with
  | value =>
    simp only [step?] at h
    split at h
    · cases h; exact ⟨hs, trivial⟩
    · exact open?_kept hV hs h
  | firstItem =>
    simp only [step?] at h
    split at h
    · cases h; exact ⟨hs, trivial⟩
    split at h
    · exact close?_kept hV hs h
    · exact open?_kept hV hs h
  | firstKey =>
    simp only [step?] at h
    split at h
    · cases h; exact ⟨hs, trivial⟩
    split at h
    · cases h; exact ⟨hs, trivial⟩
    · exact close?_kept hV hs h
  | key =>
    simp only [step?] at h
    repeat' split at h
    all_goals cases h
    all_goals exact ⟨hs, trivial⟩
  | colon =>
    simp only [step?] at h
    repeat' split at h
    all_goals cases h
    all_goals exact ⟨hs, trivial⟩
  | after => exact settled?_kept hV ⟨hs, hmode⟩ h
  | finished v => exact settled?_kept hV ⟨hs, hmode⟩ h
  | string isKey units =>
    simp only [step?] at h
    split at h
    · exact endString?_kept hV hs h
    repeat' split at h
    all_goals cases h
    all_goals exact ⟨hs, trivial⟩
  | escape isKey units =>
    simp only [step?] at h
    split at h
    · cases h; exact ⟨hs, trivial⟩
    · obtain ⟨u, -, rfl⟩ := Option.map_eq_some_iff.mp h
      exact ⟨hs, trivial⟩
  | unicode isKey units missing bits =>
    obtain ⟨d, -, rfl⟩ := Option.map_eq_some_iff.mp h
    simp only
    split <;> exact ⟨hs, trivial⟩
  | number l chars =>
    have hsofar : NumberSoFar l chars.reverse := hmode
    simp only [step?] at h
    split at h
    · rename_i next hnext
      cases h
      refine ⟨hs, ?_⟩
      show NumberSoFar next (c :: chars).reverse
      rw [List.reverse_cons]
      exact hsofar.next hnext
    split at h
    · rename_i hcomplete
      exact settled?_kept hV (accept_kept hV (numberOf_kept hV hsofar hcomplete) hs) h
    · cases h
  | word rest v =>
    simp only [step?] at h
    split at h
    · cases h
    · split at h
      · cases h; exact accept_kept hV hmode hs
      · cases h
    · split at h
      · cases h; exact ⟨hs, hmode⟩
      · cases h

theorem run?_kept (hV : Kept V) {cs : List Char} (hr : r.Holds V) (h : r.run? cs = some r') : r'.Holds V :=
  run?_keeps (step?_kept hV) hr h

end Reader

/-- Every value that is read has the property. -/
theorem read?_kept {V : Json → Prop} (hV : Kept V) {s : String} {v : Json} (h : read? s = some v) : V v := by
  obtain ⟨r, hrun, hresult⟩ := Option.bind_eq_some_iff.mp h
  have hstart : Reader.start.Holds V := ⟨by simp [Reader.start], trivial⟩
  obtain ⟨-, hmode⟩ := Reader.run?_kept hV hstart hrun
  unfold Reader.result? at hresult
  split at hresult
  · rename_i hfinished
    cases hresult
    rw [hfinished] at hmode
    exact hmode
  · rename_i l chars hnumber hstack
    rw [hnumber] at hmode
    split at hresult
    · rename_i hcomplete
      cases hresult
      exact Reader.numberOf_kept hV hmode hcomplete
    · cases hresult
  · cases hresult

/-! ## (3) Numbers -/

mutual

/-- All numbers in the value have the property. -/
def NumbersAre (P : Binary64 → Prop) : Json → Prop
  | .num x => P x
  | .arr items => ItemNumbersAre P items
  | .obj members => MemberNumbersAre P members
  | _ => True

def ItemNumbersAre (P : Binary64 → Prop) : List Json → Prop
  | [] => True
  | x :: xs => NumbersAre P x ∧ ItemNumbersAre P xs

def MemberNumbersAre (P : Binary64 → Prop) : List (String × Json) → Prop
  | [] => True
  | (_, v) :: ms => NumbersAre P v ∧ MemberNumbersAre P ms

end

variable {P : Binary64 → Prop}

theorem itemNumbersAre_iff {items : List Json} : ItemNumbersAre P items ↔ ∀ v ∈ items, v.NumbersAre P := by
  induction items with
  | nil => simp [ItemNumbersAre]
  | cons v vs ih => simp [ItemNumbersAre, ih]

theorem memberNumbersAre_iff {members : Keyed Json} :
    MemberNumbersAre P members ↔ ∀ m ∈ members, m.2.NumbersAre P := by
  induction members with
  | nil => simp [MemberNumbersAre]
  | cons m ms ih => simp [MemberNumbersAre, ih]

theorem kept_numbers (h : ∀ x : Binary64, x.IsDouble → x ≠ .nan → P x) : Kept (NumbersAre P) where
  null := trivial
  bool _ := trivial
  str _ := trivial
  number := h
  arr _ h := itemNumbersAre_iff.mpr h
  empty := trivial
  put members key v hmembers hv := by
    refine memberNumbersAre_iff.mpr fun m hm => ?_
    rcases Keyed.mem_put hm with rfl | hm
    · exact hv
    · exact memberNumbersAre_iff.mp hmembers m hm

/-- Every number that is read is a double, and is a number. -/
theorem read?_doubles {s : String} {v : Json} (h : read? s = some v) :
    v.NumbersAre fun x => x.IsDouble ∧ x ≠ .nan :=
  read?_kept (kept_numbers fun _ hdouble hnan => ⟨hdouble, hnan⟩) h

theorem mem_of_get? {members : Keyed Json} {key : String} {v : Json} (h : Keyed.get? members key = some v) :
    (key, v) ∈ members := by
  obtain ⟨before, after, rfl, -⟩ := List.lookup_eq_some_iff.mp h
  exact List.mem_append_right _ List.mem_cons_self

/-- The numbers under the keys of an object are numbers in it. -/
theorem NumbersAre.get? {members : Keyed Json} (h : (Json.obj members).NumbersAre P) {key : String} {x : Binary64}
    (hx : Keyed.get? members key = some (.num x)) : P x :=
  memberNumbersAre_iff.mp h _ (mem_of_get? hx)

end Json

end CheckpointRelay
