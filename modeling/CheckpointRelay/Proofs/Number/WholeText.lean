/-
  CheckpointRelay.Proofs.Number.WholeText — a whole number is written with its digits.

  Below `2 ^ 53` two naturals lie further apart than what rounds to one of them. So the digits that
  are chosen for a natural are its own ones, down to the last that is no zero, and the layout puts
  the zeros back.
  - `readsBack_whole`: what reads back on a grid of whole numbers.
  - `shortest_whole`: the digits that are chosen.
  - `finiteChars_whole`: and how they are laid out.
  - `text_ofInt`: the text of an integer.
-/

import CheckpointRelay.Proofs.Number.Digits
import CheckpointRelay.Proofs.Number.Rounding

namespace CheckpointRelay.Number

/-! ## (1) Zeros at the end -/

theorem toDigits_zeros {n : Nat} (h : 0 < n) (j : Nat) :
    Nat.toDigits 10 (n * 10 ^ j) = Nat.toDigits 10 n ++ List.replicate j '0' := by
  induction j with
  | zero => simp
  | succ j ih =>
    have hpos : 0 < n * 10 ^ j := Nat.mul_pos h (Nat.pow_pos (by decide))
    have hstep : n * 10 ^ (j + 1) = n * 10 ^ j * 10 := by rw [Nat.pow_succ, Nat.mul_assoc]
    rw [hstep, Nat.toDigits_of_base_le (by decide) (by omega), Nat.mul_div_cancel _ (by decide), Nat.mul_mod_left, ih,
      List.append_assoc, List.replicate_succ']
    rfl

namespace Binary64

/-- The zeros that are taken away, put back. -/
theorem stripZeros_append (ds : List Char) :
    stripZeros ds ++ List.replicate (ds.length - (stripZeros ds).length) '0' = ds := by
  have hparts : stripZeros ds ++ ds.rtakeWhile (· == '0') = ds := List.rdropWhile_append_rtakeWhile
  have hlength := congrArg List.length hparts
  rw [List.length_append] at hlength
  have hzeros : ds.rtakeWhile (· == '0') = List.replicate (ds.length - (stripZeros ds).length) '0' := by
    refine List.eq_replicate_iff.mpr ⟨by omega, fun c hc => ?_⟩
    have hzero := List.mem_rtakeWhile_imp hc
    exact beq_iff_eq.mp hzero
  rw [← hzeros]
  exact hparts

/-! ## (2) The digits -/

variable {n d k j : Nat}

theorem digitCount_pos (n : Nat) : 0 < digitCount n := Nat.length_toDigits_pos

theorem leading_whole (h : 0 < n) : leading (n * 2 ^ k) (-k) = digitCount n - 1 := by
  obtain ⟨hone, hpower⟩ := power_two_neg (k := k) rfl
  have hle : 2 ^ k ≤ n * 2 ^ k := Nat.le_mul_of_pos_left _ h
  simp only [leading, hone, hpower, Nat.mul_one]
  rw [if_pos hle, Nat.mul_div_cancel n (Nat.two_pow_pos k)]

/-- On a grid of whole numbers nothing reads back as a natural but itself. -/
theorem readsBack_whole (h : 0 < n) :
    readsBack (n * 2 ^ k) (gauge (n * 2 ^ k) (-k) d j) = true ↔ d * 10 ^ j = n := by
  have hfirst : power 2 (-(k : Int) - 2) = 1 := (power_two_neg (k := k + 2) (by omega)).1
  have hsecond : power 2 (2 - -(k : Int)) = 2 ^ (k + 2) := (power_two_nat (k := k + 2) (by omega)).1
  have hten : power 10 (j : Int) = 10 ^ j ∧ power 10 (-(j : Int)) = 1 := by
    have hneg : (-(j : Int)).toNat = 0 := by omega
    unfold power
    rw [hneg, Int.toNat_natCast]
    exact ⟨rfl, rfl⟩
  have hpos : 0 < 2 ^ k := Nat.two_pow_pos k
  have hm : 0 < n * 2 ^ k := Nat.mul_pos h hpos
  -- four times the value and the candidate: an interval of two around the one holds no other multiple
  have hcandidate : d * 10 ^ j * 2 ^ (k + 2) = 4 * (d * 10 ^ j * 2 ^ k) := by rw [Nat.pow_add]; ring
  simp only [readsBack, gauge, hfirst, hsecond, hten, Nat.mul_one, hcandidate]
  constructor
  · intro hreads
    have hclose : 4 * (n * 2 ^ k) ≤ 4 * (d * 10 ^ j * 2 ^ k) + 2 ∧ 4 * (d * 10 ^ j * 2 ^ k) ≤ 4 * (n * 2 ^ k) + 2 := by
      split at hreads <;> simp only [Bool.and_eq_true, decide_eq_true_eq] at hreads <;> split at hreads <;> omega
    exact Nat.eq_of_mul_eq_mul_right hpos (by omega)
  · intro heq
    rw [heq]
    split <;> simp only [Bool.and_eq_true, decide_eq_true_eq] <;> split <;> omega

theorem onGrid_units (h : 0 < n) : onGrid (n * 2 ^ k) (-k) 0 = some n := by
  obtain ⟨hone, hpower⟩ := power_two_neg (k := k) rfl
  have hten : power 10 0 = 1 ∧ power 10 (-0) = 1 := ⟨rfl, rfl⟩
  have hbelow : readsBack (n * 2 ^ k) (gauge (n * 2 ^ k) (-k) n 0) = true := (readsBack_whole (j := 0) h).mpr (by omega)
  have habove : readsBack (n * 2 ^ k) (gauge (n * 2 ^ k) (-k) (n + 1) 0) = false := by
    rw [Bool.eq_false_iff]
    intro hreads
    have heq := (readsBack_whole (j := 0) h).mp hreads
    omega
  simp only [onGrid, hone, hpower, hten, Nat.mul_one, Nat.mul_div_cancel n (Nat.two_pow_pos k), hbelow, habove]

/-- The digits are chosen on the coarsest grid that the natural lies on, and that is a grid of
    whole numbers. -/
theorem shortest_whole (h : 0 < n) (hcount : digitCount n ≤ 17) :
    ∃ d j : Nat, shortest (n * 2 ^ k) (-k) = (d, (j : Int)) ∧ d * 10 ^ j = n := by
  have hpos := digitCount_pos n
  obtain ⟨top, htop⟩ : ∃ top, digitCount n = top + 1 := ⟨digitCount n - 1, by omega⟩
  have hleading : leading (n * 2 ^ k) (-k) = top := by rw [leading_whole h, htop]; omega
  let find (i : Nat) : Option (Nat × Int) :=
    (onGrid (n * 2 ^ k) (-k) (top - i)).map fun d => (d, (top : Int) - i)
  have hunits : find top = some (n, 0) := by
    simp only [find, Int.sub_self, onGrid_units h]
    rfl
  -- the units are one of the grids, and what is found before them is found on a coarser one
  cases hfound : (List.range 17).findSome? find with
  | none =>
    rw [List.findSome?_eq_none_iff] at hfound
    have hnone := hfound top (List.mem_range.mpr (by omega))
    rw [hunits] at hnone
    cases hnone
  | some found =>
    obtain ⟨before, i, after, hrange, hi, hbefore⟩ := List.findSome?_eq_some_iff.mp hfound
    have hle : i ≤ top := by
      by_contra hlt
      have hsorted := List.pairwise_lt_range (n := 17)
      rw [hrange, List.pairwise_append, List.pairwise_cons] at hsorted
      have hmem : top ∈ before ++ i :: after := hrange ▸ List.mem_range.mpr (by omega)
      rcases List.mem_append.mp hmem with hmem | hmem
      · have hnone := hbefore top hmem
        rw [hunits] at hnone
        cases hnone
      · rcases List.mem_cons.mp hmem with heq | hmem
        · omega
        · have hafter := hsorted.2.1.1 top hmem
          omega
    obtain ⟨d, hd, hpair⟩ := Option.map_eq_some_iff.mp hi
    have hgrid : (top : Int) - i = (top - i : Nat) := by omega
    rw [hgrid] at hd hpair
    refine ⟨d, top - i, ?_, (readsBack_whole h).mp (readsBack_of_onGrid hd)⟩
    simp only [shortest, hleading]
    show ((List.range 17).findSome? find).getD _ = _
    rw [hfound, ← hpair]
    rfl

/-! ## (3) The text -/

/-- The zeros that are not among the digits are those that the layout adds. -/
theorem finiteChars_whole (h : 0 < n) (hcount : digitCount n ≤ 17) :
    finiteChars (n * 2 ^ k) (-k) = Nat.toDigits 10 n := by
  obtain ⟨d, j, hshortest, rfl⟩ := shortest_whole (k := k) h hcount
  have hd : 0 < d := Nat.pos_of_ne_zero (by rintro rfl; simp at h)
  have hdigits := toDigits_zeros hd j
  have hlength : (Nat.toDigits 10 d).length + j = digitCount (d * 10 ^ j) := by
    rw [digitCount, hdigits, List.length_append, List.length_replicate]
  have hstrip := stripZeros_append (Nat.toDigits 10 d)
  have hshort := congrArg List.length hstrip
  rw [List.length_append, List.length_replicate] at hshort
  have hfill : ((Nat.toDigits 10 d).length + (j : Int) - (stripZeros (Nat.toDigits 10 d)).length).toNat
      = (Nat.toDigits 10 d).length - (stripZeros (Nat.toDigits 10 d)).length + j := by omega
  simp only [finiteChars, hshortest, layout]
  rw [if_pos (by omega), hfill, ← List.replicate_append_replicate, ← List.append_assoc, hstrip, hdigits]

theorem text_ofRatio (h : n < 2 ^ 53) (negative : Bool) : (ofRatio negative n 1).text
    = if n = 0 then "0" else String.ofList ((if negative then ['-'] else []) ++ Nat.toDigits 10 n) := by
  by_cases hn : n = 0
  · rw [hn, ofRatio, if_pos rfl, zero, text, if_pos rfl, if_pos rfl]
  have hlog : n.log2 < 53 := (Nat.log2_lt hn).mpr h
  have hcount : digitCount n ≤ 17 := (Nat.length_toDigits_le_iff (by decide) (by decide)).mpr (by omega)
  have hexponent : (n.log2 : Int) - 52 = -(52 - n.log2 : Nat) := by omega
  have hsignificand : n * 2 ^ (52 - n.log2) ≠ 0 := Nat.mul_ne_zero hn (Nat.two_pow_pos _).ne'
  rw [ofRatio_short hn h, hexponent, text, if_neg hsignificand, if_neg hn,
    finiteChars_whole (Nat.pos_of_ne_zero hn) hcount]

/-- An integer of at most 53 binary digits is written as it is. -/
theorem text_ofInt {z : Int} (h : z.natAbs < 2 ^ 53) : (ofInt z).text = toString z := by
  rw [ofInt, text_ofRatio h]
  match z with
  | .ofNat n =>
    have hsign : decide (Int.ofNat n < 0) = false := decide_eq_false (by simp)
    have htext : toString (Int.ofNat n) = String.ofList (Nat.toDigits 10 n) := Nat.repr_eq_ofList_toDigits
    rw [hsign, htext]
    split
    · rename_i hzero
      have hn : n = 0 := hzero
      subst hn
      rfl
    · rfl
  | .negSucc n =>
    have hsign : decide (Int.negSucc n < 0) = true := decide_eq_true (Int.negSucc_lt_zero n)
    have htext : toString (Int.negSucc n) = "-" ++ String.ofList (Nat.toDigits 10 (n + 1)) := by
      rw [← Nat.repr_eq_ofList_toDigits]
      rfl
    rw [hsign, htext, Int.natAbs_negSucc, if_neg (Nat.succ_ne_zero n), ← String.toList_inj]
    simp

end Binary64

end CheckpointRelay.Number
