/-
  CheckpointRelay.Proofs.Number.Rounding — which numbers rounding leaves alone.

  A number of the format has at most 53 binary digits and an exponent of its range (`IsDouble`),
  and whatever is rounded becomes such a number. A natural with that few digits, zeros behind
  them not counted, is kept exactly, so what denotes a natural is that natural rounded; and a
  natural with more digits never becomes one with fewer.
  - `fits_roundingExponent`: the exponent that is chosen leaves at most 53 digits.
  - `isDouble_ofRatio` / `isDouble_ofDecimal` / `isDouble_read`: what is rounded is a double.
  - `roundingExponent_natural`: the exponent of a natural.
  - `denotes_ofNat` / `denotes_again`: what is kept.
  - `denotes_mono`: rounding keeps the order.
  - `denotes_ofNat_iff` / `denotes_ofDecimal_iff`: below `2 ^ 53` nothing else is.
-/

import CheckpointRelay.Number.Numeral
import CheckpointRelay.Proofs.Number.Whole
import Mathlib.Tactic.Ring

namespace CheckpointRelay.Number

namespace Binary64

/-- At most 53 binary digits, at an exponent of the range. -/
def IsDouble : Binary64 → Prop
  | .finite _ significand exponent =>
    significand < 2 * fullSignificand ∧ minExponent ≤ exponent ∧ exponent ≤ maxExponent
  | _ => True

/-! ## (1) What is rounded -/

variable {num den n m : Nat} {exponent : Int}

/-- The quotient has at most 53 binary digits before the point, in units of `2 ^ exponent`. -/
def Fits (num den : Nat) (exponent : Int) : Prop :=
  num * power 2 (-exponent) < 2 * fullSignificand * (den * power 2 exponent)

theorem power_two_nat {k : Nat} (h : exponent = k) : power 2 exponent = 2 ^ k ∧ power 2 (-exponent) = 1 := by
  subst h
  have hneg : (-(k : Int)).toNat = 0 := by omega
  unfold power
  rw [hneg, Int.toNat_natCast]
  exact ⟨rfl, rfl⟩

theorem power_two_neg {k : Nat} (h : exponent = -k) : power 2 exponent = 1 ∧ power 2 (-exponent) = 2 ^ k := by
  have hk : -exponent = k := by omega
  obtain ⟨hpower, hone⟩ := power_two_nat hk
  rw [neg_neg] at hone
  exact ⟨hone, hpower⟩

theorem full_eq : 2 * fullSignificand = 2 ^ 53 := by decide

/-- Counting the digits of both sides is enough from a certain exponent on. -/
theorem fits_of_log (hden : den ≠ 0) (h : (num.log2 : Int) - den.log2 - 52 ≤ exponent) : Fits num den exponent := by
  have hnum : num < 2 ^ (num.log2 + 1) := Nat.lt_log2_self
  have hlow : 2 ^ den.log2 ≤ den := Nat.log2_self_le hden
  unfold Fits
  rw [full_eq]
  rcases Int.le_total 0 exponent with hsign | hsign
  · obtain ⟨k, hk⟩ := Int.eq_ofNat_of_zero_le hsign
    obtain ⟨hpower, hone⟩ := power_two_nat hk
    rw [hpower, hone, Nat.mul_one]
    calc num < 2 ^ (num.log2 + 1) := hnum
      _ ≤ 2 ^ (53 + (den.log2 + k)) := Nat.pow_le_pow_right (by decide) (by omega)
      _ = 2 ^ 53 * (2 ^ den.log2 * 2 ^ k) := by rw [Nat.pow_add, Nat.pow_add]
      _ ≤ 2 ^ 53 * (den * 2 ^ k) := Nat.mul_le_mul_left _ (Nat.mul_le_mul_right _ hlow)
  · obtain ⟨k, hk⟩ := Int.exists_eq_neg_ofNat hsign
    obtain ⟨hone, hpower⟩ := power_two_neg hk
    rw [hpower, hone, Nat.mul_one]
    calc num * 2 ^ k < 2 ^ (num.log2 + 1) * 2 ^ k := Nat.mul_lt_mul_of_pos_right hnum (Nat.two_pow_pos k)
      _ = 2 ^ (num.log2 + 1 + k) := (Nat.pow_add ..).symm
      _ ≤ 2 ^ (53 + den.log2) := Nat.pow_le_pow_right (by decide) (by omega)
      _ = 2 ^ 53 * 2 ^ den.log2 := Nat.pow_add ..
      _ ≤ 2 ^ 53 * den := Nat.mul_le_mul_left _ hlow

/-- One exponent less makes one digit more. -/
theorem fits_below (h : num * power 2 (-exponent) < fullSignificand * (den * power 2 exponent)) :
    Fits num den (exponent - 1) := by
  unfold Fits
  rcases Int.lt_or_le 0 exponent with hsign | hsign
  · obtain ⟨k, hk⟩ : ∃ k : Nat, exponent = (k + 1 : Nat) := ⟨exponent.toNat - 1, by omega⟩
    have hnext : exponent - 1 = k := by omega
    obtain ⟨hpower, hone⟩ := power_two_nat hk
    obtain ⟨hpower', hone'⟩ := power_two_nat hnext
    rw [hpower, hone] at h
    rw [hpower', hone']
    calc num * 1 < fullSignificand * (den * 2 ^ (k + 1)) := h
      _ = 2 * fullSignificand * (den * 2 ^ k) := by ring
  · obtain ⟨k, hk⟩ := Int.exists_eq_neg_ofNat hsign
    have hnext : exponent - 1 = -(k + 1 : Nat) := by omega
    obtain ⟨hone, hpower⟩ := power_two_neg hk
    obtain ⟨hone', hpower'⟩ := power_two_neg hnext
    rw [hpower, hone] at h
    rw [hpower', hone']
    calc num * 2 ^ (k + 1) = 2 * (num * 2 ^ k) := by ring
      _ < 2 * (fullSignificand * (den * 1)) := Nat.mul_lt_mul_of_pos_left h (by decide)
      _ = 2 * fullSignificand * (den * 1) := (Nat.mul_assoc ..).symm

theorem roundingExponent_eq {guess : Int} (h : (num.log2 : Int) - den.log2 - 52 = guess) :
    roundingExponent num den = max minExponent
      (if num * power 2 (-guess) / (den * power 2 guess) < fullSignificand then guess - 1 else guess) := by
  subst h
  rfl

/-- The exponent that is chosen leaves at most 53 digits. -/
theorem fits_roundingExponent (hden : 0 < den) (num : Nat) :
    Fits num den (roundingExponent num den) ∧ minExponent ≤ roundingExponent num den := by
  refine ⟨?_, Int.le_max_left ..⟩
  generalize hguess : (num.log2 : Int) - den.log2 - 52 = guess
  rw [roundingExponent_eq hguess]
  by_cases hsmall : num * power 2 (-guess) / (den * power 2 guess) < fullSignificand
  · rw [if_pos hsmall]
    by_cases hleast : guess - 1 < minExponent
    · exact fits_of_log hden.ne' (by omega)
    · rw [max_eq_right (by omega)]
      rw [Nat.div_lt_iff_lt_mul (Nat.mul_pos hden (power_pos (by decide) _))] at hsmall
      exact fits_below hsmall
  · rw [if_neg hsmall]
    exact fits_of_log hden.ne' (by omega)

theorem nearest_le {k : Nat} (h : num < k * den) : nearest num den ≤ k := by
  have hfloor : num / den < k := Nat.div_lt_of_lt_mul (by rw [Nat.mul_comm]; exact h)
  unfold nearest
  split <;> omega

theorem isDouble_zero (negative : Bool) : (zero negative).IsDouble := ⟨by decide, Int.le_refl _, by decide⟩

theorem isDouble_pack {significand : Nat} (hsignificand : significand ≤ 2 * fullSignificand)
    (hexponent : minExponent ≤ exponent) (negative : Bool) : (pack negative significand exponent).IsDouble := by
  unfold pack
  split
  · split
    · trivial
    · exact ⟨by decide, by omega, by omega⟩
  · split
    · trivial
    · exact ⟨by omega, hexponent, by omega⟩

/-- Whatever is rounded becomes a double. -/
theorem isDouble_ofRatio (hden : 0 < den) (negative : Bool) (num : Nat) : (ofRatio negative num den).IsDouble := by
  unfold ofRatio
  split
  · exact isDouble_zero negative
  · obtain ⟨hfits, hleast⟩ := fits_roundingExponent hden num
    exact isDouble_pack (nearest_le hfits) hleast negative

theorem isDouble_ofNat (n : Nat) : (ofNat n).IsDouble := isDouble_ofRatio (by decide) false n

theorem isDouble_ofDecimal (negative : Bool) (digits : Nat) (exponent : Int) :
    (ofDecimal negative digits exponent).IsDouble := by
  simp only [ofDecimal]
  split
  · exact isDouble_zero negative
  split
  · trivial
  · exact isDouble_ofRatio (power_pos (by decide) _) negative _

theorem ofDecimal_ne_nan (negative : Bool) (digits : Nat) (exponent : Int) :
    ofDecimal negative digits exponent ≠ .nan := by
  have hpack (significand : Nat) (exponent : Int) : pack negative significand exponent ≠ .nan := by
    unfold pack
    repeat' split
    all_goals simp
  simp only [ofDecimal, ofRatio, zero]
  repeat' split
  all_goals first
    | exact hpack _ _
    | simp

/-! ## (2) Naturals -/

/-- The exponent of a natural puts its digits at full length. -/
theorem roundingExponent_natural (h : n ≠ 0) : roundingExponent n 1 = (n.log2 : Int) - 52 := by
  have hlow : 2 ^ n.log2 ≤ n := Nat.log2_self_le h
  have hone : (1 : Nat).log2 = 0 := by decide
  have hfull : fullSignificand = 2 ^ 52 := by decide
  have hguess : (n.log2 : Int) - (1 : Nat).log2 - 52 = n.log2 - 52 := by rw [hone]; omega
  have hlong : ¬n * power 2 (-((n.log2 : Int) - 52)) / (1 * power 2 ((n.log2 : Int) - 52)) < fullSignificand := by
    rw [Nat.not_lt, hfull, Nat.one_mul, Nat.le_div_iff_mul_le (power_pos (by decide) _)]
    rcases Nat.le_total 52 n.log2 with hsign | hsign
    · obtain ⟨hpower, hone⟩ := power_two_nat (show (n.log2 : Int) - 52 = (n.log2 - 52 : Nat) by omega)
      rw [hpower, hone, Nat.mul_one, ← Nat.pow_add]
      exact (Nat.pow_le_pow_right (by decide) (by omega)).trans hlow
    · obtain ⟨hone, hpower⟩ := power_two_neg (show (n.log2 : Int) - 52 = -(52 - n.log2 : Nat) by omega)
      rw [hpower, hone, Nat.mul_one]
      calc 2 ^ 52 = 2 ^ n.log2 * 2 ^ (52 - n.log2) := by rw [← Nat.pow_add]; congr 1; omega
        _ ≤ n * 2 ^ (52 - n.log2) := Nat.mul_le_mul_right _ hlow
  rw [roundingExponent_eq hguess, if_neg hlong]
  exact max_eq_right (by rw [minExponent]; omega)

theorem nearest_mul (hden : 0 < den) (k : Nat) : nearest (k * den) den = k := by
  unfold nearest
  rw [Nat.mul_mod_left, Nat.mul_div_cancel k hden, if_neg (by omega)]

theorem denotes_zero (negative : Bool) : (zero negative).Denotes 0 := by
  cases negative with
  | false =>
    show 0 * power 2 minExponent = 0 * power 2 (-minExponent)
    rw [Nat.zero_mul, Nat.zero_mul]
  | true => exact ⟨rfl, rfl⟩

/-- A natural of at most 53 digits is filled up to that length. -/
theorem ofRatio_short (hn : n ≠ 0) (h : n < 2 ^ 53) (negative : Bool) :
    ofRatio negative n 1 = finite negative (n * 2 ^ (52 - n.log2)) ((n.log2 : Int) - 52) := by
  have hlog : n.log2 < 53 := (Nat.log2_lt hn).mpr h
  have hhigh : n < 2 ^ (n.log2 + 1) := Nat.lt_log2_self
  have hlt : n * 2 ^ (52 - n.log2) < 2 ^ 53 := by
    calc n * 2 ^ (52 - n.log2) < 2 ^ (n.log2 + 1) * 2 ^ (52 - n.log2) :=
          Nat.mul_lt_mul_of_pos_right hhigh (Nat.two_pow_pos _)
      _ = 2 ^ 53 := by rw [← Nat.pow_add]; congr 1; omega
  have hmax : ¬maxExponent < (n.log2 : Int) - 52 := by rw [maxExponent]; omega
  have hnearest := nearest_mul Nat.one_pos (n * 2 ^ (52 - n.log2))
  obtain ⟨hone, hpower⟩ := power_two_neg (show (n.log2 : Int) - 52 = -(52 - n.log2 : Nat) by omega)
  rw [Nat.mul_one] at hnearest
  unfold ofRatio
  rw [if_neg hn, roundingExponent_natural hn]
  simp only [scaled, Nat.one_mul]
  rw [hpower, hone, hnearest, pack, full_eq, if_neg hlt.ne, if_neg hmax]

/-- The digits of a longer one from the fifty-third on are rounded. -/
theorem ofRatio_long {k : Nat} (h : n.log2 = 52 + k) (negative : Bool) :
    ofRatio negative n 1 = pack negative (nearest n (2 ^ k)) k := by
  have hn : n ≠ 0 := by
    rintro rfl
    have hzero : (0 : Nat).log2 = 0 := by decide
    omega
  have hexponent : (n.log2 : Int) - 52 = k := by omega
  obtain ⟨hpower, hone⟩ := power_two_nat (show (k : Int) = k by rfl)
  unfold ofRatio
  rw [if_neg hn, roundingExponent_natural hn, hexponent]
  simp only [scaled, Nat.one_mul, hpower, hone, Nat.mul_one]

/-- And make a number of 53 digits, or the next power of two. -/
theorem nearest_long {k : Nat} (h : n.log2 = 52 + k) : 2 ^ 52 ≤ nearest n (2 ^ k) ∧ nearest n (2 ^ k) ≤ 2 ^ 53 := by
  have hn : n ≠ 0 := by
    rintro rfl
    have hzero : (0 : Nat).log2 = 0 := by decide
    omega
  have hlow : 2 ^ n.log2 ≤ n := Nat.log2_self_le hn
  have hhigh : n < 2 ^ (n.log2 + 1) := Nat.lt_log2_self
  have hfloor : 2 ^ 52 ≤ n / 2 ^ k := by
    rw [Nat.le_div_iff_mul_le (Nat.two_pow_pos _), ← Nat.pow_add, ← h]
    exact hlow
  constructor
  · unfold nearest
    split <;> omega
  · refine nearest_le ?_
    rw [← Nat.pow_add]
    exact hhigh.trans_le (Nat.pow_le_pow_right (by decide) (by omega))

theorem denotes_pack {significand k : Nat} (h : (pack false significand k).Denotes m) : m = significand * 2 ^ k := by
  have hfinite {significand k : Nat} {exponent : Int} (hk : exponent = k)
      (h : (finite false significand exponent).Denotes m) : m = significand * 2 ^ k := by
    obtain ⟨hpower, hone⟩ := power_two_nat hk
    have hquotient : significand * power 2 exponent = m * power 2 (-exponent) := h
    rw [hpower, hone, Nat.mul_one] at hquotient
    exact hquotient.symm
  unfold pack at h
  split at h
  · rename_i hfull
    split at h
    · cases h
    · rw [hfinite (k := k + 1) rfl h, hfull, Nat.pow_succ]
      ring
  · split at h
    · cases h
    · exact hfinite rfl h

theorem pack_denotes {significand k : Nat} (h : (k : Int) < maxExponent) :
    (pack false significand k).Denotes (significand * 2 ^ k) := by
  have hfinite {significand k : Nat} {exponent : Int} (hk : exponent = k) :
      (finite false significand exponent).Denotes (significand * 2 ^ k) := by
    obtain ⟨hpower, hone⟩ := power_two_nat hk
    show significand * power 2 exponent = significand * 2 ^ k * power 2 (-exponent)
    rw [hpower, hone, Nat.mul_one]
  unfold pack
  split
  · rename_i hfull
    have hdouble : significand * 2 ^ k = fullSignificand * 2 ^ (k + 1) := by
      rw [hfull, Nat.pow_succ]
      ring
    rw [if_neg (by omega), hdouble]
    exact hfinite rfl
  · rw [if_neg (by omega)]
    exact hfinite rfl

theorem denotes_ofNat_small (h : n < 2 ^ 53) : (ofNat n).Denotes n := by
  by_cases hn : n = 0
  · subst hn
    exact denotes_zero false
  have hlog : n.log2 < 53 := (Nat.log2_lt hn).mpr h
  obtain ⟨hone, hpower⟩ := power_two_neg (show (n.log2 : Int) - 52 = -(52 - n.log2 : Nat) by omega)
  rw [ofNat, ofRatio_short hn h]
  show n * 2 ^ (52 - n.log2) * power 2 _ = n * power 2 _
  rw [hpower, hone, Nat.mul_one]

/-- A natural is kept when all its digits but 53 are zeros at its end. -/
theorem denotes_ofNat {k : Nat} (hdvd : 2 ^ k ∣ n) (hshort : n < 2 ^ (k + 53)) (hrange : (k : Int) ≤ maxExponent) :
    (ofNat n).Denotes n := by
  by_cases hsmall : n < 2 ^ 53
  · exact denotes_ofNat_small hsmall
  have hn : n ≠ 0 := by omega
  have hlog : n.log2 < k + 53 := (Nat.log2_lt hn).mpr hshort
  have hlarge : 53 ≤ n.log2 := (Nat.le_log2 hn).mpr (by omega)
  have hhigh : n < 2 ^ (n.log2 + 1) := Nat.lt_log2_self
  obtain ⟨j, hj⟩ : ∃ j, n.log2 = 52 + j := ⟨n.log2 - 52, by omega⟩
  obtain ⟨q, hq⟩ : 2 ^ j ∣ n := (Nat.pow_dvd_pow 2 (by omega)).trans hdvd
  have hlt : q < 2 ^ 53 := by
    have hexp : n.log2 + 1 = j + 53 := by omega
    rw [hexp, hq, Nat.pow_add] at hhigh
    exact Nat.lt_of_mul_lt_mul_left hhigh
  have hnearest : nearest n (2 ^ j) = q := by
    rw [hq, Nat.mul_comm]
    exact nearest_mul (Nat.two_pow_pos j) q
  have hmax : ¬maxExponent < (j : Int) := by omega
  obtain ⟨hpower, hone⟩ := power_two_nat (show (j : Int) = j by rfl)
  rw [ofNat, ofRatio_long hj, hnearest, pack, full_eq, if_neg hlt.ne, if_neg hmax]
  show q * power 2 _ = n * power 2 _
  rw [hpower, hone, Nat.mul_one, hq, Nat.mul_comm]

/-- What denotes a natural and is a double is that natural rounded, in value. -/
theorem denotes_again {x : Binary64} (hx : x.IsDouble) (h : x.Denotes n) : (ofNat n).Denotes n := by
  match x, hx, h with
  | .finite true significand exponent, hx, h =>
    obtain ⟨-, rfl⟩ : significand = 0 ∧ n = 0 := h
    exact denotes_ofNat_small (by decide)
  | .finite false significand exponent, hx, h =>
    obtain ⟨hshort, -, hrange⟩ := hx
    have hquotient : significand * power 2 exponent = n * power 2 (-exponent) := h
    rw [full_eq] at hshort
    rcases Int.le_total 0 exponent with hsign | hsign
    · obtain ⟨k, hk⟩ := Int.eq_ofNat_of_zero_le hsign
      obtain ⟨hpower, hone⟩ := power_two_nat hk
      rw [hpower, hone, Nat.mul_one] at hquotient
      subst hquotient
      refine denotes_ofNat (Nat.dvd_mul_left ..) ?_ (hk ▸ hrange)
      rw [Nat.pow_add, Nat.mul_comm]
      exact Nat.mul_lt_mul_of_pos_left hshort (Nat.two_pow_pos k)
    · obtain ⟨k, hk⟩ := Int.exists_eq_neg_ofNat hsign
      obtain ⟨hone, hpower⟩ := power_two_neg hk
      rw [hpower, hone, Nat.mul_one] at hquotient
      refine denotes_ofNat_small (Nat.lt_of_le_of_lt ?_ hshort)
      rw [hquotient]
      exact Nat.le_mul_of_pos_right n (Nat.two_pow_pos k)

theorem denotes_unique {x : Binary64} (hn : x.Denotes n) (hm : x.Denotes m) : n = m :=
  (toNat_of_denotes hn).symm.trans (toNat_of_denotes hm)

/-- What a natural of more than 52 digits is rounded to. -/
theorem denotes_ofNat_long {k : Nat} (hlog : n.log2 = 52 + k) (h : (ofNat n).Denotes m) :
    m = nearest n (2 ^ k) * 2 ^ k := by
  rw [ofNat, ofRatio_long hlog] at h
  exact denotes_pack h

/-- A natural of more than 53 digits is rounded to none of fewer. -/
theorem denotes_ofNat_large (hlarge : 2 ^ 53 ≤ n) (h : (ofNat n).Denotes m) : 2 ^ 53 ≤ m := by
  have hlog : 53 ≤ n.log2 := (Nat.le_log2 (by omega)).mpr hlarge
  obtain ⟨k, hk⟩ : ∃ k, n.log2 = 52 + (k + 1) := ⟨n.log2 - 53, by omega⟩
  rw [denotes_ofNat_long hk h]
  calc 2 ^ 53 = 2 ^ 52 * 2 ^ 1 := rfl
    _ ≤ nearest n (2 ^ (k + 1)) * 2 ^ (k + 1) :=
      Nat.mul_le_mul (nearest_long hk).1 (Nat.pow_le_pow_right (by decide) (by omega))

/-- A natural far from the end of the range is rounded to a natural. -/
theorem exists_denotes (h : n < 2 ^ 200) : ∃ m, (ofNat n).Denotes m := by
  by_cases hsmall : n < 2 ^ 53
  · exact ⟨n, denotes_ofNat_small hsmall⟩
  have hn : n ≠ 0 := by omega
  have hlarge : 53 ≤ n.log2 := (Nat.le_log2 hn).mpr (by omega)
  have hlog : n.log2 < 200 := (Nat.log2_lt hn).mpr h
  obtain ⟨k, hk⟩ : ∃ k, n.log2 = 52 + k := ⟨n.log2 - 52, by omega⟩
  rw [ofNat, ofRatio_long hk]
  exact ⟨_, pack_denotes (by rw [maxExponent]; omega)⟩

theorem nearest_mono (h : n ≤ m) (den : Nat) : nearest n den ≤ nearest m den := by
  have hquotient : n / den ≤ m / den := Nat.div_le_div_right h
  have hn := Nat.div_add_mod n den
  have hm := Nat.div_add_mod m den
  unfold nearest
  rcases hquotient.lt_or_eq with hlt | heq
  · split <;> split <;> omega
  · -- between the same two naturals what is further up is not rounded down
    rw [heq] at hn ⊢
    split <;> split <;> omega

/-- Rounding keeps the order. -/
theorem denotes_mono {a b : Nat} (h : n ≤ m) (ha : (ofNat n).Denotes a) (hb : (ofNat m).Denotes b) : a ≤ b := by
  by_cases hn : n < 2 ^ 53
  · by_cases hm : m < 2 ^ 53
    · rw [denotes_unique ha (denotes_ofNat_small hn), denotes_unique hb (denotes_ofNat_small hm)]
      exact h
    · have hlarge := denotes_ofNat_large (by omega) hb
      rw [denotes_unique ha (denotes_ofNat_small hn)]
      omega
  · have hlogn : 53 ≤ n.log2 := (Nat.le_log2 (by omega)).mpr (by omega)
    have hlogs : n.log2 ≤ m.log2 := (Nat.le_log2 (by omega)).mpr ((Nat.log2_self_le (by omega)).trans h)
    obtain ⟨k, hk⟩ : ∃ k, n.log2 = 52 + k := ⟨n.log2 - 52, by omega⟩
    obtain ⟨j, hj⟩ : ∃ j, m.log2 = 52 + j := ⟨m.log2 - 52, by omega⟩
    rw [denotes_ofNat_long hk ha, denotes_ofNat_long hj hb]
    rcases (show k ≤ j by omega).lt_or_eq with hlt | rfl
    · calc nearest n (2 ^ k) * 2 ^ k ≤ 2 ^ 53 * 2 ^ k := Nat.mul_le_mul_right _ (nearest_long hk).2
        _ = 2 ^ 52 * 2 ^ (k + 1) := by rw [Nat.pow_succ]; ring
        _ ≤ nearest m (2 ^ j) * 2 ^ j :=
          Nat.mul_le_mul (nearest_long hj).1 (Nat.pow_le_pow_right (by decide) hlt)
    · exact Nat.mul_le_mul_right _ (nearest_mono h _)

/-- Below `2 ^ 53` a natural denotes itself, and nothing else is rounded to it. -/
theorem denotes_ofNat_iff (hm : m < 2 ^ 53) : (ofNat n).Denotes m ↔ n = m := by
  constructor
  · intro h
    by_cases hn : n < 2 ^ 53
    · exact denotes_unique (denotes_ofNat_small hn) h
    · have hlarge := denotes_ofNat_large (by omega) h
      omega
  · rintro rfl
    exact denotes_ofNat_small hm

/-- However many digits there are. -/
theorem denotes_ofDecimal_iff (hm : m < 2 ^ 53) : (ofDecimal false n 0).Denotes m ↔ n = m := by
  have hpowers : power 10 0 = 1 ∧ power 10 (-0) = 1 := ⟨rfl, rfl⟩
  have hsize : 0 < (Nat.toDigits 10 n).length := Nat.length_toDigits_pos
  simp only [ofDecimal, hpowers.1, hpowers.2, Nat.mul_one]
  split
  · rename_i hzero
    have hn : n = 0 := by omega
    subst hn
    exact denotes_ofNat_iff (n := 0) hm
  split
  · rename_i hlong
    -- so many digits are those of no natural below `2 ^ 53`
    constructor
    · intro h
      cases h
    · rintro rfl
      have hshort : (Nat.toDigits 10 n).length ≤ 16 :=
        (Nat.length_toDigits_le_iff (by decide) (by decide)).mpr (by omega)
      omega
  · exact denotes_ofNat_iff hm

end Binary64

/-! ## (3) Texts -/

namespace Numeral

open Binary64

theorem decimal?_some {negative : Bool} {cs : List Char} {x : Binary64} (h : decimal? negative cs = some x) :
    ∃ digits power, x = ofDecimal negative digits power := by
  unfold decimal? at h
  extract_lets whole rest at h
  split at h
  split at h
  · cases h
  · obtain ⟨power, -, rfl⟩ := Option.map_eq_some_iff.mp h
    exact ⟨_, _, rfl⟩

theorem isDouble_decimal? {negative : Bool} {cs : List Char} {x : Binary64} (h : decimal? negative cs = some x) :
    x.IsDouble := by
  obtain ⟨digits, power, rfl⟩ := decimal?_some h
  exact isDouble_ofDecimal ..

theorem decimal?_ne_nan {negative : Bool} {cs : List Char} {x : Binary64} (h : decimal? negative cs = some x) :
    x ≠ .nan := by
  obtain ⟨digits, power, rfl⟩ := decimal?_some h
  exact ofDecimal_ne_nan _ _ _

theorem isDouble_signed? {negative : Bool} {cs : List Char} {x : Binary64} (h : signed? negative cs = some x) :
    x.IsDouble := by
  unfold signed? at h
  split at h
  · cases h
    trivial
  · exact isDouble_decimal? h

/-- Every text is read as a double, if not as none. -/
theorem isDouble_read (s : String) : (read s).IsDouble := by
  have hbase {base : Nat} {cs : List Char} {x : Binary64} (h : (natOfBase? base cs).map Binary64.ofNat = some x) :
      x.IsDouble := by
    obtain ⟨n, -, rfl⟩ := Option.map_eq_some_iff.mp h
    exact isDouble_ofNat n
  unfold read
  cases h : unpadded? (Text.trimChars s.toList) with
  | none => trivial
  | some x =>
    show x.IsDouble
    unfold unpadded? at h
    split at h
    · cases h
      exact isDouble_zero false
    · exact isDouble_signed? h
    · exact isDouble_signed? h
    · repeat' split at h
      all_goals first
        | exact hbase h
        | exact isDouble_signed? h
    · exact isDouble_signed? h

end Numeral

end CheckpointRelay.Number
