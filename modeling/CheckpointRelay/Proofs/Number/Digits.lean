/-
  CheckpointRelay.Proofs.Number.Digits — the digits that a number is written with.

  The digits of a number that is not zero are those of a natural that is not zero either: zero
  does not read back as it. So they begin with a digit that is no zero, and it stays when the
  zeros behind the others are taken away.
  - `head_toDigits`: the first digit of a natural.
  - `shortest_ne_zero`: the natural that is written.
  - `stripZeros_shortest`: the digits that are laid out.
-/

import CheckpointRelay.Number.Decimal
import CheckpointRelay.Number.Numeral
import CheckpointRelay.Proofs.Number.Whole
import Mathlib.Data.List.DropRight

namespace CheckpointRelay.Number

/-! ## (1) Naturals -/

/-- No number but zero begins with a zero. -/
theorem head_toDigits {n : Nat} (h : 0 < n) : (Nat.toDigits 10 n).head? ≠ some '0' := by
  induction n using Nat.strongRecOn with
  | ind n ih =>
    by_cases hn : n < 10
    · rw [Nat.toDigits_of_lt_base hn, List.head?_cons]
      intro heq
      have hvalue : n.digitChar.toNat = '0'.toNat := congrArg Char.toNat (Option.some.inj heq)
      have hzero : '0'.toNat = 48 := rfl
      rw [Nat.toNat_digitChar_of_lt_ten hn] at hvalue
      omega
    · have hhigh : (Nat.toDigits 10 (n / 10)).head? ≠ some '0' := ih (n / 10) (by omega) (by omega)
      rw [Nat.toDigits_of_base_le (by decide) (by omega)]
      cases hdigits : Nat.toDigits 10 (n / 10) with
      | nil => exact absurd hdigits Nat.toDigits_ne_nil
      | cons c cs => rwa [hdigits] at hhigh

theorem isDigit_toDigits {n : Nat} : ∀ c ∈ Nat.toDigits 10 n, Numeral.isDigit c = true := by
  intro c hc
  have hdigit : c.isDigit = true := Nat.isDigit_of_mem_toDigits (by decide) (by decide) hc
  simpa [Numeral.isDigit, Char.isDigit, Char.le_def] using hdigit

namespace Binary64

/-! ## (2) The number that is written -/

/-- The interval that rounds to a number other than zero lies above zero. -/
theorem readsBack_zero {m : Nat} (h : m ≠ 0) (e j : Int) : readsBack m (gauge m e 0 j) = false := by
  have hunit : 0 < power 2 (e - 2) * power 10 (-j) :=
    Nat.mul_pos (power_pos (by decide) _) (power_pos (by decide) _)
  have hlow : 0 < (gauge m e 0 j).low := by
    refine Nat.mul_pos ?_ hunit
    split <;> omega
  have hcandidate : (gauge m e 0 j).candidate = 0 := by simp [gauge]
  rw [readsBack, hcandidate]
  split
  · rw [Bool.and_eq_false_iff]
    exact Or.inl (decide_eq_false (by omega))
  · rw [Bool.and_eq_false_iff]
    exact Or.inl (decide_eq_false (by omega))

/-- The digits that are chosen on a grid read back. -/
theorem readsBack_of_onGrid {m d : Nat} {e j : Int} (h : onGrid m e j = some d) :
    readsBack m (gauge m e d j) = true := by
  simp only [onGrid] at h
  generalize m * power 2 e * power 10 (-j) / (power 2 (-e) * power 10 j) = k at h
  split at h
  · rename_i hbelow habove
    repeat' split at h
    all_goals
      cases h
      assumption
  · cases h
    assumption
  · cases h
    assumption
  · cases h

theorem shortest_ne_zero {m : Nat} (h : m ≠ 0) (e : Int) : (shortest m e).1 ≠ 0 := by
  rw [shortest]
  cases hfound : (List.range 17).findSome? fun (k : Nat) =>
      (onGrid m e (leading m e - k)).map fun d => (d, leading m e - k) with
  | none => exact h
  | some found =>
    obtain ⟨k, -, hk⟩ := List.exists_of_findSome?_eq_some hfound
    obtain ⟨d, hd, rfl⟩ := Option.map_eq_some_iff.mp hk
    rintro rfl
    have hreads := readsBack_of_onGrid hd
    rw [readsBack_zero h] at hreads
    cases hreads

/-! ## (3) The digits that are laid out -/

/-- The zeros at the end are taken away, and a first digit that is no zero stays. -/
theorem stripZeros_cons {d : Char} (h : d ≠ '0') (ds : List Char) :
    ∃ rest, stripZeros (d :: ds) = d :: rest ∧ rest <+: ds := by
  have hstrip : stripZeros (d :: ds) = (d :: ds).rdropWhile (· == '0') := rfl
  have hbegins : stripZeros (d :: ds) <+: d :: ds := hstrip ▸ List.rdropWhile_prefix _ _
  cases hrest : stripZeros (d :: ds) with
  | nil =>
    rw [hstrip, List.rdropWhile_eq_nil_iff] at hrest
    exact absurd (beq_iff_eq.mp (hrest d List.mem_cons_self)) h
  | cons first rest =>
    rw [hrest, List.cons_prefix_cons] at hbegins
    exact ⟨rest, by rw [hbegins.1], hbegins.2⟩

/-- The digits of a number that is not zero begin with one that is no zero. -/
theorem stripZeros_shortest {m : Nat} (h : m ≠ 0) (e : Int) :
    ∃ d ds, stripZeros (Nat.toDigits 10 (shortest m e).1) = d :: ds ∧ d ≠ '0' ∧
      ∀ c ∈ d :: ds, Numeral.isDigit c = true := by
  have hhead := head_toDigits (Nat.pos_of_ne_zero (shortest_ne_zero h e))
  have hdigits := isDigit_toDigits (n := (shortest m e).1)
  cases hall : Nat.toDigits 10 (shortest m e).1 with
  | nil => exact absurd hall Nat.toDigits_ne_nil
  | cons d ds =>
    rw [hall] at hhead hdigits
    have hd : d ≠ '0' := fun hd => hhead (congrArg some hd)
    obtain ⟨rest, hstrip, hrest⟩ := stripZeros_cons hd ds
    refine ⟨d, rest, hstrip, hd, fun c hc => hdigits c ?_⟩
    exact (List.cons_prefix_cons.mpr ⟨rfl, hrest⟩).subset hc

end Binary64

end CheckpointRelay.Number
