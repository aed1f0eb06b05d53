/-
  CheckpointRelay.Proofs.Text.Literals — byte literals are read back.

  A literal is read from left to right: behind a backslash stands a short escape or `x` and two
  digits, every other printable character but a quote is a byte by itself, and a quote ends the
  literal. A backslash and what it escapes are taken together, so neither a backslash that is a
  byte nor a digit behind an escape is taken for part of another one.
  - `readBody_written`: what stands for one byte is read as it, whatever follows.
  - `readBody_body`: all bytes, up to the closing quote.
  - `literals_read_back`: the whole literal, and what it is written in.
-/

import CheckpointRelay.Text.ByteLiteral

namespace CheckpointRelay.Text.ByteLiteral

open Utf8 (Bytes)

/-! ## (1) The notation -/

/-- The value of a hexadecimal digit in lower case. -/
def digit? (c : Char) : Option Nat :=
  if '0' ≤ c ∧ c ≤ '9' then some (c.toNat - '0'.toNat)
  else if 'a' ≤ c ∧ c ≤ 'f' then some (c.toNat - 'a'.toNat + 10)
  else none

def shortEscape? (c : Char) : Option UInt8 :=
  if c = 't' then some 0x09
  else if c = 'n' then some 0x0A
  else if c = 'r' then some 0x0D
  else if c = '\'' then some 0x27
  else if c = '\\' then some 0x5C
  else none

def isPrintable (c : Char) : Bool := 0x20 ≤ c.toNat && c.toNat ≤ 0x7E

/-- The bytes up to the closing quote, behind which nothing may stand. -/
def readBody? : List Char → Option Bytes
  | ['\''] => some []
  | '\\' :: 'x' :: high :: low :: rest => do
    return UInt8.ofNat ((← digit? high) * 16 + (← digit? low)) :: (← readBody? rest)
  | '\\' :: c :: rest => do return (← shortEscape? c) :: (← readBody? rest)
  | c :: rest =>
    if isPrintable c ∧ c ≠ '\'' ∧ c ≠ '\\' then (readBody? rest).map (UInt8.ofNat c.toNat :: ·) else none
  | [] => none

def read? (s : String) : Option Bytes :=
  match s.toList with
  | 'b' :: '\'' :: rest => readBody? rest
  | _ => none

/-- Every quote stands behind a backslash that escapes it, and every backslash escapes. -/
inductive Escaped : List Char → Prop
  | nil : Escaped []
  | escape (c : Char) (cs : List Char) : Escaped cs → Escaped ('\\' :: c :: cs)
  | plain (c : Char) (cs : List Char) : c ≠ '\'' → c ≠ '\\' → Escaped cs → Escaped (c :: cs)

/-! ## (2) One byte -/

theorem digit?_hexDigit {n : Nat} (h : n < 16) : digit? (hexDigit n) = some n := by
  revert n
  decide

/-- A digit is printable, and neither a quote nor a backslash. -/
theorem hexDigit_plain {n : Nat} (h : n < 16) :
    isPrintable (hexDigit n) = true ∧ hexDigit n ≠ '\'' ∧ hexDigit n ≠ '\\' := by
  revert n
  decide

theorem toNat_ascii {n : Nat} (h : n < 0x80) : (Char.ofNat n).toNat = n := by
  revert n
  decide

/-- The ways in which a byte is written. -/
inductive Written (b : UInt8) : List Char → Prop
  | short (c : Char) : shortEscape? c = some b → c ≠ 'x' → isPrintable c = true → Written b ['\\', c]
  | plain (c : Char) : c.toNat = b.toNat → isPrintable c = true → c ≠ '\'' → c ≠ '\\' → Written b [c]
  | hex (high low : Nat) : high < 16 → low < 16 → high * 16 + low = b.toNat →
      Written b ['\\', 'x', hexDigit high, hexDigit low]

theorem escapeByte_written (b : UInt8) : Written b (escapeByte b) := by
  have hbyte : b.toNat < 256 := b.toNat_lt
  unfold escapeByte
  split
  · subst b; exact .short 't' rfl (by decide) rfl
  split
  · subst b; exact .short 'n' rfl (by decide) rfl
  split
  · subst b; exact .short 'r' rfl (by decide) rfl
  split
  · subst b; exact .short '\'' rfl (by decide) rfl
  rename_i hquote
  split
  · subst b; exact .short '\\' rfl (by decide) rfl
  rename_i hslash
  split
  · rename_i hprintable
    obtain ⟨hlow, hhigh⟩ : 0x20 ≤ b.toNat ∧ b.toNat < 0x7F := hprintable
    have hcode : (Char.ofNat b.toNat).toNat = b.toNat := toNat_ascii (by omega)
    refine .plain _ hcode ?_ ?_ ?_
    · simp only [isPrintable, hcode, Bool.and_eq_true, decide_eq_true_eq]
      omega
    · intro h
      rw [h] at hcode
      exact hquote (UInt8.toNat_inj.mp hcode.symm)
    · intro h
      rw [h] at hcode
      exact hslash (UInt8.toNat_inj.mp hcode.symm)
  · exact .hex _ _ (by omega) (by omega) (by omega)

variable {b : UInt8} {cs rest : List Char}

/-- What stands for a byte is read as it, whatever follows. -/
theorem readBody_written (h : Written b cs) : readBody? (cs ++ rest) = (readBody? rest).map (b :: ·) := by
  cases h with
  | short c hc hx _ =>
    have hstep : readBody? ('\\' :: c :: rest) = do return (← shortEscape? c) :: (← readBody? rest) := by
      rw [readBody?.eq_def]
      simp [hx]
    rw [List.cons_append, List.cons_append, List.nil_append, hstep, hc]
    cases readBody? rest <;> rfl
  | plain c hcode hprintable hquote hslash =>
    have hstep : readBody? (c :: rest) = (readBody? rest).map (UInt8.ofNat c.toNat :: ·) := by
      rw [readBody?.eq_def]
      simp [hprintable, hquote, hslash]
    rw [List.singleton_append, hstep, hcode, UInt8.ofNat_toNat]
  | hex high low hhigh hlow hbyte =>
    have hstep : readBody? ('\\' :: 'x' :: hexDigit high :: hexDigit low :: rest)
        = do
          return UInt8.ofNat ((← digit? (hexDigit high)) * 16 + (← digit? (hexDigit low))) :: (← readBody? rest) := by
      rw [readBody?.eq_def]
      simp
    show readBody? ('\\' :: 'x' :: hexDigit high :: hexDigit low :: rest) = _
    rw [hstep, digit?_hexDigit hhigh, digit?_hexDigit hlow]
    show (do return UInt8.ofNat (high * 16 + low) :: (← readBody? rest)) = _
    rw [hbyte, UInt8.ofNat_toNat]
    cases readBody? rest <;> rfl

theorem printable_of_written (h : Written b cs) : ∀ c ∈ cs, isPrintable c = true := by
  intro d hd
  cases h with
  | short c _ _ hprintable =>
    simp only [List.mem_cons, List.not_mem_nil, or_false] at hd
    rcases hd with rfl | rfl
    · rfl
    · exact hprintable
  | plain c _ hprintable _ _ =>
    rw [List.mem_singleton.mp hd]
    exact hprintable
  | hex high low hhigh hlow _ =>
    simp only [List.mem_cons, List.not_mem_nil, or_false] at hd
    rcases hd with rfl | rfl | rfl | rfl
    · rfl
    · rfl
    · exact (hexDigit_plain hhigh).1
    · exact (hexDigit_plain hlow).1

theorem escaped_of_written (h : Written b cs) (hrest : Escaped rest) : Escaped (cs ++ rest) := by
  cases h with
  | short c _ _ _ => exact .escape c rest hrest
  | plain c _ _ hquote hslash => exact .plain c rest hquote hslash hrest
  | hex high low hhigh hlow _ =>
    obtain ⟨-, hquote, hslash⟩ := hexDigit_plain hhigh
    obtain ⟨-, hquote', hslash'⟩ := hexDigit_plain hlow
    exact .escape 'x' _ (.plain _ _ hquote hslash (.plain _ _ hquote' hslash' hrest))

/-! ## (3) Whole literals -/

theorem readBody_body (bs : Bytes) : readBody? (bs.flatMap escapeByte ++ ['\'']) = some bs := by
  induction bs with
  | nil => rfl
  | cons b bs ih =>
    rw [List.flatMap_cons, List.append_assoc, readBody_written (escapeByte_written b), ih, Option.map_some]

theorem escaped_body (bs : Bytes) : Escaped (bs.flatMap escapeByte) := by
  induction bs with
  | nil => exact .nil
  | cons b bs ih =>
    rw [List.flatMap_cons]
    exact escaped_of_written (escapeByte_written b) ih

theorem toList_format (bs : Bytes) : (format bs).toList = 'b' :: '\'' :: (bs.flatMap escapeByte ++ ['\'']) := by
  rw [format, String.toList_ofList, chars]

theorem read_format (bs : Bytes) : read? (format bs) = some bs := by
  rw [read?, toList_format]
  exact readBody_body bs

theorem format_printable (bs : Bytes) : ∀ c ∈ (format bs).toList, isPrintable c = true := by
  intro c hc
  rw [toList_format] at hc
  simp only [List.mem_cons, List.mem_append, List.not_mem_nil, or_false, List.mem_flatMap] at hc
  rcases hc with rfl | rfl | ⟨b, -, hc⟩ | rfl
  · rfl
  · rfl
  · exact printable_of_written (escapeByte_written b) c hc
  · rfl

/-- No two byte sequences are shown alike. -/
theorem format_inj {as bs : Bytes} (h : format as = format bs) : as = bs := by
  have hread : some as = some bs := by
    calc some as = read? (format as) := (read_format as).symm
      _ = read? (format bs) := by rw [h]
      _ = some bs := read_format bs
  exact Option.some.inj hread

/-- A literal is printable ASCII between its quotes, which no quote inside it can be taken for.
    It is read back as the bytes that it shows, so no other bytes are shown like them. -/
theorem literals_read_back (bs : Bytes) :
    (∀ c ∈ (format bs).toList, 0x20 ≤ c.toNat ∧ c.toNat ≤ 0x7E) ∧
    (∃ body, (format bs).toList = ['b', '\''] ++ body ++ ['\''] ∧ Escaped body) ∧
    read? (format bs) = some bs ∧
    (∀ others, format others = format bs → others = bs) := by
  refine ⟨fun c hc => ?_, ⟨_, toList_format bs, escaped_body bs⟩, read_format bs, fun others h => format_inj h⟩
  have hprintable : isPrintable c = true := format_printable bs c hc
  simpa [isPrintable] using hprintable

/-- A backslash before what would be an escape, a quote, a line feed, and a digit behind an escape. -/
theorem a_reply_of_backslashes :
    let bs : Bytes := [0x5C, 0x78, 0x34, 0x31, 0x27, 0x0A, 0xFF, 0x61]
    format bs = "b'\\\\x41\\'\\n\\xffa'" ∧ '\\' ∈ (format bs).toList ∧ 0x20 ≤ '\\'.toNat ∧
      read? "b'\\\\x41\\'\\n\\xffa'" = some bs := by
  intro bs
  have hformat : format bs = "b'\\\\x41\\'\\n\\xffa'" := by decide
  obtain ⟨hprintable, -, hread, -⟩ := literals_read_back bs
  have hmem : '\\' ∈ (format bs).toList := by decide
  refine ⟨hformat, hmem, (hprintable '\\' hmem).1, ?_⟩
  rw [← hformat]
  exact hread

end CheckpointRelay.Text.ByteLiteral
