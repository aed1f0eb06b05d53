/-
  CheckpointRelay.Proofs.Number.Whole — the doubles that are natural numbers.

  A double denotes a natural when it is that number exactly (`Denotes`); both zeros denote 0.
  Every test of a number can be told from what it denotes, and a whole number that is not
  negative denotes its natural part.
  - `isInteger_of_denotes` / `below_of_denotes` / `above_of_denotes` / `toNat_of_denotes`.
  - `denotes_toNat`: the way back.
  - `whole_from_iff`: the two together, for the numbers from a bound on.
-/

import CheckpointRelay.Number.Binary64

namespace CheckpointRelay.Number.Binary64

/-- The number is that natural, exactly. -/
def Denotes (x : Binary64) (n : Nat) : Prop :=
  match x with
  | .finite false significand exponent => significand * power 2 exponent = n * power 2 (-exponent)
  | .finite true significand _ => significand = 0 ∧ n = 0
  | _ => False

variable {x : Binary64} {n : Nat}

theorem power_pos {base : Nat} (h : 0 < base) (exponent : Int) : 0 < power base exponent := Nat.pow_pos h

/-- One of the two powers of a quotient is 1. -/
theorem power_two_one (exponent : Int) : power 2 exponent = 1 ∨ power 2 (-exponent) = 1 := by
  unfold power
  rcases Int.le_total 0 exponent with h | h
  · right
    rw [Int.toNat_of_nonpos (by omega)]
  · left
    rw [Int.toNat_of_nonpos h]

theorem isInteger_of_denotes (h : x.Denotes n) : x.isInteger = true := by
  match x, h with
  | .finite true significand exponent, h => simp [isInteger, h.1]
  | .finite false significand exponent, h =>
    have hquotient : significand * power 2 exponent = n * power 2 (-exponent) := h
    simp only [isInteger, beq_iff_eq]
    rcases power_two_one exponent with hone | hone
    · rw [hone, Nat.mul_one] at hquotient
      rw [hquotient, Nat.mul_mod_left]
    · rw [hone, Nat.mod_one]

theorem below_of_denotes (h : x.Denotes n) (bound : Nat) : x.below bound = decide (n < bound) := by
  match x, h with
  | .finite true significand exponent, h =>
    obtain ⟨rfl, rfl⟩ : significand = 0 ∧ n = 0 := h
    cases bound <;> simp [below]
  | .finite false significand exponent, h =>
    have hquotient : significand * power 2 exponent = n * power 2 (-exponent) := h
    rw [below, hquotient]
    exact decide_eq_decide.mpr (Nat.mul_lt_mul_right (power_pos (by decide) _))

theorem above_of_denotes (h : x.Denotes n) (bound : Nat) : x.above bound = decide (bound < n) := by
  match x, h with
  | .finite true significand exponent, h =>
    obtain ⟨rfl, rfl⟩ : significand = 0 ∧ n = 0 := h
    simp [above]
  | .finite false significand exponent, h =>
    have hquotient : significand * power 2 exponent = n * power 2 (-exponent) := h
    rw [above, hquotient]
    exact decide_eq_decide.mpr (Nat.mul_lt_mul_right (power_pos (by decide) _))

theorem toNat_of_denotes (h : x.Denotes n) : x.toNat = n := by
  match x, h with
  | .finite true significand exponent, h =>
    obtain ⟨rfl, rfl⟩ : significand = 0 ∧ n = 0 := h
    rw [toNat, Nat.zero_mul, Nat.zero_div]
  | .finite false significand exponent, h =>
    have hquotient : significand * power 2 exponent = n * power 2 (-exponent) := h
    rw [toNat, hquotient]
    exact Nat.mul_div_cancel n (power_pos (by decide) _)

/-- A whole number that is not below a natural is a natural itself. -/
theorem denotes_toNat {bound : Nat} (hinteger : x.isInteger = true) (hbelow : x.below bound = false) :
    x.Denotes x.toNat := by
  match x with
  | .nan | .infinite _ => cases hinteger
  | .finite true significand exponent =>
    simp only [below, Bool.or_eq_false_iff, bne_eq_false_iff_eq] at hbelow
    refine ⟨hbelow.1, ?_⟩
    rw [toNat, hbelow.1, Nat.zero_mul, Nat.zero_div]
  | .finite false significand exponent =>
    have hdvd : power 2 (-exponent) ∣ significand := by
      simp only [isInteger, beq_iff_eq] at hinteger
      exact Nat.dvd_of_mod_eq_zero hinteger
    exact (Nat.div_mul_cancel (Nat.dvd_mul_right_of_dvd hdvd _)).symm

theorem whole_from_iff {bound : Nat} :
    x.isInteger = true ∧ x.below bound = false ∧ x.toNat = n ↔ x.Denotes n ∧ bound ≤ n := by
  constructor
  · rintro ⟨hinteger, hbelow, rfl⟩
    have hdenotes : x.Denotes x.toNat := denotes_toNat hinteger hbelow
    rw [below_of_denotes hdenotes, decide_eq_false_iff_not] at hbelow
    exact ⟨hdenotes, by omega⟩
  · rintro ⟨hdenotes, hbound⟩
    refine ⟨isInteger_of_denotes hdenotes, ?_, toNat_of_denotes hdenotes⟩
    rw [below_of_denotes hdenotes, decide_eq_false_iff_not]
    omega

end CheckpointRelay.Number.Binary64
