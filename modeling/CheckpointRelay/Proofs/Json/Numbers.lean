/-
  CheckpointRelay.Proofs.Json.Numbers — reading the text of a number.

  Behind every character of a number the reader knows what may come next (`Lexeme`), and it is
  followed here through each of the four layouts: digits alone, digits around a point, a fraction
  behind a zero, and an exponent. In all of them it ends where a number may end. A number is over
  only when something else comes, so its text is read together with the character behind it.
  - `layout_lexed`: digits that do not begin with a zero, laid out.
  - `text_lexed`: the text of a number.
  - `run?_keeps`: what holds of the reader throughout a text.
  - `run_number`: the reader behind the text of a number.
-/

import CheckpointRelay.Json.Reader
import CheckpointRelay.Json.Writer
import CheckpointRelay.Proofs.Number.Digits

namespace CheckpointRelay.Json

open Number (Binary64)
open Number.Numeral (isDigit)

namespace Lexeme

/-! ## (1) Parts of a number -/

/-- The state behind some characters of a number, if they may stand there. -/
def run? (l : Lexeme) (cs : List Char) : Option Lexeme := cs.foldlM next? l

@[simp] theorem run?_nil (l : Lexeme) : l.run? [] = some l := rfl

@[simp] theorem run?_cons (l : Lexeme) (c : Char) (cs : List Char) :
    l.run? (c :: cs) = (l.next? c).bind fun l => l.run? cs := rfl

theorem run?_append (l : Lexeme) (cs ds : List Char) : l.run? (cs ++ ds) = (l.run? cs).bind fun l => l.run? ds :=
  List.foldlM_append

/-- Digits leave the state that they leave one by one. -/
theorem run?_digits {l : Lexeme} (h : ∀ c, isDigit c = true → l.next? c = some l) {ds : List Char}
    (hds : ∀ c ∈ ds, isDigit c = true) : l.run? ds = some l := by
  induction ds with
  | nil => rfl
  | cons d ds ih =>
    obtain ⟨hd, hds⟩ := List.forall_mem_cons.mp hds
    rw [run?_cons, h d hd, Option.bind_some, ih hds]

theorem whole_digit {c : Char} (h : isDigit c = true) : whole.next? c = some whole := by simp [next?, h]

theorem fraction_digit {c : Char} (h : isDigit c = true) : fraction.next? c = some fraction := by simp [next?, h]

theorem exponent_digit {c : Char} (h : isDigit c = true) : exponentDigits.next? c = some exponentDigits := by
  simp [next?, h]

/-- The digits before a point. -/
theorem whole_lexed {d : Char} (hd : d ≠ '0') {ds : List Char} (h : ∀ c ∈ d :: ds, isDigit c = true) :
    sign.run? (d :: ds) = some whole := by
  obtain ⟨hfirst, hds⟩ := List.forall_mem_cons.mp h
  have hsign : sign.next? d = some whole := by simp [next?, hd, hfirst]
  rw [run?_cons, hsign, Option.bind_some, run?_digits (fun c => whole_digit) hds]

/-- The digits behind a point. -/
theorem fraction_lexed {ds : List Char} (hne : ds ≠ []) (h : ∀ c ∈ ds, isDigit c = true) :
    point.run? ds = some fraction := by
  cases ds with
  | nil => exact absurd rfl hne
  | cons d ds =>
    obtain ⟨hfirst, hds⟩ := List.forall_mem_cons.mp h
    have hpoint : point.next? d = some fraction := by simp [next?, hfirst]
    rw [run?_cons, hpoint, Option.bind_some, run?_digits (fun c => fraction_digit) hds]

theorem pointed_lexed {d : Char} (hd : d ≠ '0') {ds fraction : List Char} (h : ∀ c ∈ d :: ds, isDigit c = true)
    (hne : fraction ≠ []) (hfraction : ∀ c ∈ fraction, isDigit c = true) :
    sign.run? (d :: ds ++ '.' :: fraction) = some .fraction := by
  rw [run?_append, whole_lexed hd h, Option.bind_some, run?_cons]
  exact fraction_lexed hne hfraction

/-- The exponent, with its sign. -/
theorem exponent_lexed {l : Lexeme} (hl : l = whole ∨ l = fraction) {mark : Char} (hmark : mark = '+' ∨ mark = '-')
    (n : Nat) : l.run? ('e' :: mark :: Nat.toDigits 10 n) = some exponentDigits := by
  have hletter : l.next? 'e' = some exponent := by rcases hl with rfl | rfl <;> rfl
  have hsign : exponent.next? mark = some exponentSign := by rcases hmark with rfl | rfl <;> rfl
  have hdigits := Number.isDigit_toDigits (n := n)
  rw [run?_cons, hletter, Option.bind_some, run?_cons, hsign, Option.bind_some]
  cases hall : Nat.toDigits 10 n with
  | nil => exact absurd hall Nat.toDigits_ne_nil
  | cons d ds =>
    rw [hall] at hdigits
    obtain ⟨hfirst, hds⟩ := List.forall_mem_cons.mp hdigits
    have hfirst : exponentSign.next? d = some exponentDigits := by simp [next?, hfirst]
    rw [run?_cons, hfirst, Option.bind_some, run?_digits (fun c => exponent_digit) hds]

/-! ## (2) Layouts -/

theorem isDigit_replicate (n : Nat) : ∀ c ∈ List.replicate n '0', isDigit c = true := by
  intro c hc
  rw [List.eq_of_mem_replicate hc]
  rfl

/-- Digits laid out are a number, wherever the point is. -/
theorem layout_lexed {d : Char} (hd : d ≠ '0') {ds : List Char} (h : ∀ c ∈ d :: ds, isDigit c = true) (position : Int) :
    ∃ l, l.complete = true ∧ sign.run? (Binary64.layout (d :: ds) position) = some l := by
  have hds : ∀ c ∈ ds, isDigit c = true := (List.forall_mem_cons.mp h).2
  simp only [Binary64.layout]
  split
  · -- all digits stand before the point
    rw [List.cons_append]
    refine ⟨whole, rfl, whole_lexed hd fun c hc => ?_⟩
    rw [← List.cons_append, List.mem_append] at hc
    exact hc.elim (h c) (isDigit_replicate _ c)
  split
  · -- the point stands among the digits
    rename_i houtside hinside
    obtain ⟨k, hk⟩ : ∃ k : Nat, position.toNat = k + 1 := ⟨position.toNat - 1, by omega⟩
    have hlength : k < ds.length := by
      rw [List.length_cons] at houtside
      omega
    have hdrop : ds.drop k ≠ [] := by
      rw [ne_eq, List.drop_eq_nil_iff]
      omega
    rw [hk, List.take_succ_cons, List.drop_succ_cons]
    have hwhole : ∀ c ∈ d :: ds.take k, isDigit c = true := fun c hc =>
      h c ((List.cons_sublist_cons.mpr (List.take_sublist k ds)).subset hc)
    have hfraction : ∀ c ∈ ds.drop k, isDigit c = true := fun c hc => hds c ((List.drop_sublist k ds).subset hc)
    exact ⟨fraction, rfl, pointed_lexed hd hwhole hdrop hfraction⟩
  split
  · -- the digits stand behind a zero and the point
    refine ⟨fraction, rfl, fraction_lexed (by simp) fun c hc => ?_⟩
    rw [List.mem_append] at hc
    exact hc.elim (isDigit_replicate _ c) (h c)
  · -- an exponent stands behind the digits
    refine ⟨exponentDigits, rfl, ?_⟩
    have hmark (b : Prop) [Decidable b] : (if b then '-' else '+') = '+' ∨ (if b then '-' else '+') = '-' := by
      split
      · exact Or.inr rfl
      · exact Or.inl rfl
    cases ds with
    | nil =>
      rw [run?_append, whole_lexed hd h, Option.bind_some]
      exact exponent_lexed (Or.inl rfl) (hmark _) _
    | cons next ds =>
      have hfirst : ∀ c ∈ [d], isDigit c = true := List.forall_mem_singleton.mpr (h d List.mem_cons_self)
      have hmantissa : sign.run? ([d] ++ '.' :: next :: ds) = some fraction :=
        pointed_lexed hd hfirst (List.cons_ne_nil next ds) hds
      rw [List.singleton_append] at hmantissa
      rw [run?_append, hmantissa, Option.bind_some]
      exact exponent_lexed (Or.inr rfl) (hmark _) _

theorem finiteChars_lexed {m : Nat} (h : m ≠ 0) (e : Int) :
    ∃ l, l.complete = true ∧ sign.run? (Binary64.finiteChars m e) = some l := by
  obtain ⟨d, ds, hdigits, hd, hall⟩ := Binary64.stripZeros_shortest h e
  simp only [Binary64.finiteChars, hdigits]
  exact layout_lexed hd hall _

/-- The text of a number is a number, perhaps behind a minus sign. -/
theorem text_lexed (negative : Bool) (m : Nat) (e : Int) :
    ∃ cs l, l.complete = true ∧ sign.run? cs = some l ∧
      ((Binary64.finite negative m e).text.toList = cs ∨ (Binary64.finite negative m e).text.toList = '-' :: cs) := by
  rw [Binary64.text]
  split
  · exact ⟨['0'], zero, rfl, rfl, Or.inl rfl⟩
  · rename_i hm
    obtain ⟨l, hcomplete, hlexed⟩ := finiteChars_lexed hm e
    refine ⟨Binary64.finiteChars m e, l, hcomplete, hlexed, ?_⟩
    rw [String.toList_ofList]
    cases negative
    · exact Or.inl rfl
    · exact Or.inr rfl

end Lexeme

/-! ## (3) The reader -/

namespace Reader

@[simp] theorem run?_nil (r : Reader) : r.run? [] = some r := rfl

@[simp] theorem run?_cons (r : Reader) (c : Char) (cs : List Char) :
    r.run? (c :: cs) = (r.step? c).bind fun r => r.run? cs := rfl

theorem run?_append (r : Reader) (cs ds : List Char) : r.run? (cs ++ ds) = (r.run? cs).bind fun r => r.run? ds :=
  List.foldlM_append

/-- What every step keeps, a run keeps. -/
theorem run?_keeps {P : Reader → Prop} (hstep : ∀ {r r' : Reader} {c : Char}, P r → r.step? c = some r' → P r')
    {r r' : Reader} {cs : List Char} (hr : P r) (h : r.run? cs = some r') : P r' := by
  induction cs generalizing r with
  | nil =>
    cases h
    exact hr
  | cons c cs ih =>
    rw [run?_cons] at h
    obtain ⟨next, hnext, hrun⟩ := Option.bind_eq_some_iff.mp h
    exact ih (hstep hr hnext) hrun

variable (stack : List Frame) (rest : List Char)

/-- Characters of a number go on with it. -/
theorem run_lexed {l l' : Lexeme} {cs : List Char} (h : l.run? cs = some l') (chars : List Char) :
    run? ⟨stack, .number l chars⟩ (cs ++ rest) = run? ⟨stack, .number l' (cs.reverse ++ chars)⟩ rest := by
  induction cs generalizing l chars with
  | nil =>
    cases h
    rfl
  | cons c cs ih =>
    rw [Lexeme.run?_cons] at h
    obtain ⟨next, hnext, hrun⟩ := Option.bind_eq_some_iff.mp h
    have hstep : step? ⟨stack, .number l chars⟩ c = some ⟨stack, .number next (c :: chars)⟩ := by
      simp only [step?, hnext]
    rw [List.cons_append, Reader.run?_cons, hstep, Option.bind_some, ih hrun, List.reverse_cons, List.append_assoc]
    rfl

theorem ne_of_isDigit {c : Char} (h : isDigit c = true) (x : Char) (hx : isDigit x = false) : c ≠ x := by
  rintro rfl
  rw [h] at hx
  cases hx

/-- A digit stands neither between tokens nor behind the last item. -/
theorem digit_opens {c : Char} (h : isDigit c = true) : isGap c = false ∧ c ≠ ']' := by
  have hne := ne_of_isDigit h
  exact ⟨by simp [isGap, hne ' ' rfl, hne '\t' rfl, hne '\n' rfl, hne '\r' rfl], hne ']' rfl⟩

theorem sign_next {l : Lexeme} {c : Char} (h : Lexeme.sign.next? c = some l) :
    isDigit c = true ∧ l = if c = '0' then .zero else .whole := by
  simp only [Lexeme.next?] at h
  split at h
  · rename_i hzero
    cases h
    exact ⟨by rw [hzero]; rfl, (if_pos hzero).symm⟩
  · rename_i hzero
    obtain ⟨hdigit, hl⟩ : isDigit c = true ∧ Lexeme.whole = l := by simpa using h
    exact ⟨hdigit, by rw [if_neg hzero, hl]⟩

/-- A value may begin with what a number may begin with. -/
theorem step_lexed {l : Lexeme} {c : Char} (h : Lexeme.sign.next? c = some l) :
    step? ⟨stack, .value⟩ c = some ⟨stack, .number l [c]⟩ := by
  obtain ⟨hdigit, rfl⟩ := sign_next h
  have hne := ne_of_isDigit hdigit
  have hopen : open? stack c = if c = '0' then some ⟨stack, .number .zero ['0']⟩ else some ⟨stack, .number .whole [c]⟩ := by
    simp [open?, hne '"' rfl, hne '[' rfl, hne '{' rfl, hne 't' rfl, hne 'f' rfl, hne 'n' rfl, hne '-' rfl, hdigit]
  simp only [step?, (digit_opens hdigit).1, Bool.false_eq_true, if_false, hopen]
  split
  · rename_i hzero
    rw [hzero]
  · rfl

/-- A value that is a number, behind its minus sign or its first digit. -/
theorem run_value_lexed {l : Lexeme} {cs : List Char} (h : Lexeme.sign.run? cs = some l) (hne : cs ≠ []) :
    run? ⟨stack, .value⟩ (cs ++ rest) = run? ⟨stack, .number l cs.reverse⟩ rest ∧
      run? ⟨stack, .value⟩ ('-' :: cs ++ rest) = run? ⟨stack, .number l ('-' :: cs).reverse⟩ rest := by
  constructor
  · cases cs with
    | nil => exact absurd rfl hne
    | cons c cs =>
      rw [Lexeme.run?_cons] at h
      obtain ⟨next, hnext, hrun⟩ := Option.bind_eq_some_iff.mp h
      rw [List.cons_append, run?_cons, step_lexed stack hnext, Option.bind_some, run_lexed stack rest hrun,
        List.reverse_cons]
  · have hstep : step? ⟨stack, .value⟩ '-' = some ⟨stack, .number .sign ['-']⟩ := rfl
    rw [List.cons_append, run?_cons, hstep, Option.bind_some, run_lexed stack rest h, List.reverse_cons]

/-- The text of a finite number is read to a place where a number may end. -/
theorem run_finite (negative : Bool) (m : Nat) (e : Int) :
    ∃ l, l.complete = true ∧ run? ⟨stack, .value⟩ (renderNumber (.finite negative m e) ++ rest)
      = run? ⟨stack, .number l (renderNumber (.finite negative m e)).reverse⟩ rest := by
  obtain ⟨cs, l, hcomplete, hlexed, htext⟩ := Lexeme.text_lexed negative m e
  have hne : cs ≠ [] := by
    rintro rfl
    cases hlexed
    cases hcomplete
  obtain ⟨hplain, hsigned⟩ := run_value_lexed stack rest hlexed hne
  refine ⟨l, hcomplete, ?_⟩
  rw [renderNumber]
  rcases htext with htext | htext
  · rw [htext, hplain]
  · rw [htext, hsigned]

theorem step_accept (v : Json) (c : Char) : (accept v stack).step? c = (accept v stack).settled? c := by
  match stack with
  | [] => rfl
  | .array _ :: _ => rfl
  | .object _ _ :: _ => rfl

end Reader

/-- What the text of a number is read as. -/
def rereadNumber : Binary64 → Json
  | .finite negative m e => numberOf (renderNumber (.finite negative m e))
  | _ => .null

namespace Reader

/-- A number is over when something comes that no number has. -/
theorem run_number (stack : List Frame) (x : Binary64) {c : Char} (hc : c ∈ [',', ']', '}']) (rest : List Char) :
    run? ⟨stack, .value⟩ (renderNumber x ++ c :: rest) = run? (accept (rereadNumber x) stack) (c :: rest) := by
  match x with
  | .nan | .infinite _ => rfl
  | .finite negative m e =>
    obtain ⟨l, hcomplete, hrun⟩ := run_finite stack (c :: rest) negative m e
    have hover : l.next? c = none := by
      simp only [List.mem_cons, List.not_mem_nil, or_false] at hc
      rcases hc with rfl | rfl | rfl <;> cases l <;> rfl
    rw [hrun, run?_cons, run?_cons, step_accept]
    simp only [step?, hover, hcomplete, if_true, List.reverse_reverse]
    rfl

/-- A number begins like any other value. -/
theorem renderNumber_head (x : Binary64) : ∃ c cs, renderNumber x = c :: cs ∧ isGap c = false ∧ c ≠ ']' := by
  match x with
  | .nan | .infinite _ => exact ⟨'n', _, rfl, by decide, by decide⟩
  | .finite negative m e =>
    obtain ⟨cs, l, hcomplete, hlexed, htext⟩ := Lexeme.text_lexed negative m e
    rw [renderNumber]
    rcases htext with htext | htext
    · match cs with
      | [] =>
        cases hlexed
        cases hcomplete
      | c :: cs =>
        rw [Lexeme.run?_cons] at hlexed
        obtain ⟨next, hnext, -⟩ := Option.bind_eq_some_iff.mp hlexed
        exact ⟨c, cs, htext, digit_opens (sign_next hnext).1⟩
    · exact ⟨'-', cs, htext, by decide, by decide⟩

/-- A number may be a whole text. -/
theorem read_number (x : Binary64) : read? (text (.num x)) = some (rereadNumber x) := by
  rw [read?, text, String.toList_ofList, render]
  match x with
  | .nan | .infinite _ => rfl
  | .finite negative m e =>
    obtain ⟨l, hcomplete, hrun⟩ := run_finite [] [] negative m e
    rw [List.append_nil] at hrun
    have hstart : Reader.start.run? (renderNumber (.finite negative m e))
        = some ⟨[], .number l (renderNumber (.finite negative m e)).reverse⟩ := hrun
    rw [hstart, Option.bind_some, result?]
    simp only [hcomplete, if_true, List.reverse_reverse]
    rfl

end Reader

end CheckpointRelay.Json
