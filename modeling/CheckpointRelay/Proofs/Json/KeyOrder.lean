/-
  CheckpointRelay.Proofs.Json.KeyOrder — the keys of an object, by the names it is built from.

  `KeyOrder` says where the names of a list stand among the keys: those that are the decimal text
  of an index come first, by their numbers, and the others follow as they are listed. It speaks of
  names and numbers alone, not of how members are put in order.
  - `index?_eq_some_iff`: the names that spell an index.
  - `before_split`: names in order are those of indices, and then others.
  - `others_ofPairs`: putting members in order moves no name among the others.
  - `keyOrder_ofPairs`: the keys of an object.
-/

import CheckpointRelay.Proofs.Json.Order
import CheckpointRelay.Proofs.Number.Digits

namespace CheckpointRelay.Keyed

/-! ## (1) Names of indices -/

theorem toList_toString (n : Nat) : (toString n).toList = Nat.toDigits 10 n := by
  rw [Nat.toString_eq_ofList_toDigits, String.toList_ofList]

theorem index?_toString {n : Nat} (h : n < 4294967295) : index? (toString n) = some n := by
  have hdigits : (Nat.toDigits 10 n).all (fun c => '0' ≤ c && c ≤ '9') = true :=
    List.all_eq_true.mpr Number.isDigit_toDigits
  have hhead : (Nat.toDigits 10 n).head? ≠ some '0' ∨ Nat.toDigits 10 n = ['0'] := by
    rcases Nat.eq_zero_or_pos n with rfl | hn
    · exact Or.inr (Nat.toDigits_zero 10)
    · exact Or.inl (Number.head_toDigits hn)
  have hlength : (Nat.toDigits 10 n).length ≤ 10 := by
    rw [Nat.length_toDigits_le_iff (by decide) (by decide)]
    omega
  have hvalue : (Nat.toDigits 10 n).foldl (fun n c => n * 10 + (c.toNat - '0'.toNat)) 0 = n := by
    have hread : Nat.ofDigitChars 10 (Nat.toDigits 10 n) 0 = n := Nat.ofDigitChars_ten_toDigits
    rw [Nat.ofDigitChars_eq_foldl] at hread
    simpa only [Nat.mul_comm] using hread
  simp only [index?, toList_toString, hvalue]
  exact if_pos ⟨Nat.toDigits_ne_nil, hdigits, hhead, hlength, h⟩

/-- The names that spell an index are the decimal texts of the numbers below `2 ^ 32 - 1`. -/
theorem index?_eq_some_iff {key : String} {n : Nat} : index? key = some n ↔ n < 4294967295 ∧ key = toString n := by
  constructor
  · intro h
    have hname : key = toString n := by
      rw [← String.toList_inj, toList_toString, toDigits_index h]
    unfold index? at h
    simp only [Option.ite_none_right_eq_some, Option.some.injEq] at h
    obtain ⟨⟨-, -, -, -, hbound⟩, rfl⟩ := h
    exact ⟨hbound, hname⟩
  · rintro ⟨hn, rfl⟩
    exact index?_toString hn

/-! ## (2) Names in order -/

/-- The names of some keys that spell no index. -/
def others (keys : List String) : List String := keys.filter fun key => index? key = none

theorem others_append (front back : List String) : others (front ++ back) = others front ++ others back :=
  List.filter_append front back

theorem others_cons_index {key : String} {n : Nat} (h : index? key = some n) (keys : List String) :
    others (key :: keys) = others keys := by
  simp [others, h]

/-- Names in order are those of indices, by their numbers, and then the others. -/
theorem before_split {keys : List String} (h : keys.Pairwise Before) :
    keys = (keys.filterMap index?).map toString ++ others keys ∧ (keys.filterMap index?).Pairwise (· < ·) := by
  induction keys with
  | nil => exact ⟨rfl, .nil⟩
  | cons key keys ih =>
    obtain ⟨hbefore, hkeys⟩ := List.pairwise_cons.mp h
    obtain ⟨hsplit, hindices⟩ := ih hkeys
    cases hkey : index? key with
    | none =>
      -- an index would have to stand behind a smaller one
      have hnone : ∀ b ∈ keys, index? b = none := by
        intro b hb
        cases hindex : index? b with
        | none => rfl
        | some n =>
          obtain ⟨m, hm, -⟩ := (hbefore b hb).2 n hindex
          rw [hkey] at hm
          cases hm
      have hempty : keys.filterMap index? = [] := List.filterMap_eq_nil_iff.mpr hnone
      have hothers : others keys = keys := List.filter_eq_self.mpr fun b hb => decide_eq_true (hnone b hb)
      rw [List.filterMap_cons_none hkey, hempty]
      exact ⟨by simpa [others, hkey] using hothers.symm, .nil⟩
    | some n =>
      have hname : key = toString n := (index?_eq_some_iff.mp hkey).2
      have hsmaller : ∀ m ∈ keys.filterMap index?, n < m := by
        intro m hm
        obtain ⟨b, hb, hindex⟩ := List.mem_filterMap.mp hm
        obtain ⟨l, hl, hlt⟩ := (hbefore b hb).2 m hindex
        rw [hkey] at hl
        cases hl
        exact hlt
      rw [List.filterMap_cons_some hkey, others_cons_index hkey, List.map_cons, List.cons_append, ← hsplit, ← hname]
      exact ⟨rfl, List.pairwise_cons.mpr ⟨hsmaller, hindices⟩⟩

/-! ## (3) Keys -/

variable {α : Type} {ms : Keyed α} {key : String}

/-- A new name comes behind all others that spell no index. -/
theorem others_put (h : has ms key = false) (value : α) :
    others ((put ms key value).map (·.1)) = others (ms.map (·.1)) ++ others [key] := by
  rw [put, h, if_neg Bool.false_ne_true]
  cases hkey : index? key with
  | none => simp only [List.map_append, List.map_cons, List.map_nil, others_append]
  | some n =>
    have hsplit : ms.map (·.1) = (ms.takeWhile (precedes n)).map (·.1) ++ (ms.dropWhile (precedes n)).map (·.1) := by
      rw [← List.map_append, List.takeWhile_append_dropWhile]
    have hnone : others [key] = [] := others_cons_index hkey []
    rw [hnone, List.append_nil, hsplit, List.map_append, List.map_cons, others_append, others_append,
      others_cons_index hkey]

theorem others_foldl_put {pairs : List (String × α)} (hnames : (pairs.map (·.1)).Nodup)
    (hnew : ∀ q ∈ pairs, has ms q.1 = false) :
    others ((pairs.foldl (fun ms p => put ms p.1 p.2) ms).map (·.1))
      = others (ms.map (·.1)) ++ others (pairs.map (·.1)) := by
  induction pairs generalizing ms with
  | nil => simp [others]
  | cons q pairs ih =>
    obtain ⟨hq, hpairs⟩ : q.1 ∉ pairs.map (·.1) ∧ (pairs.map (·.1)).Nodup := List.nodup_cons.mp hnames
    obtain ⟨hfirst, hrest⟩ := List.forall_mem_cons.mp hnew
    have hcons : others ((q :: pairs).map (·.1)) = others [q.1] ++ others (pairs.map (·.1)) :=
      others_append [q.1] _
    rw [List.foldl_cons, ih hpairs (has_put_of_nodup hq hrest), others_put hfirst, hcons, List.append_assoc]

/-- Putting members in order moves no name among those that spell no index. -/
theorem others_ofPairs {pairs : List (String × α)} (h : (pairs.map (·.1)).Nodup) :
    others ((ofPairs pairs).map (·.1)) = others (pairs.map (·.1)) :=
  others_foldl_put h fun _ _ => rfl

/-- The keys of an object that is built from some names: those that spell an index come first, by
    their numbers, and the others follow as they are listed. -/
inductive KeyOrder (names : List String) : List String → Prop
  | mk (indices : List Nat) (rest : List String) :
      indices.Pairwise (· < ·) → (∀ n ∈ indices, n < 4294967295) →
      rest.Sublist names → (∀ name ∈ rest, ∀ n, n < 4294967295 → name ≠ toString n) →
      (∀ name, name ∈ indices.map toString ++ rest ↔ name ∈ names) →
      KeyOrder names (indices.map toString ++ rest)

theorem keyOrder_ofPairs {pairs : List (String × α)} (h : (pairs.map (·.1)).Nodup) :
    KeyOrder (pairs.map (·.1)) ((ofPairs pairs).map (·.1)) := by
  obtain ⟨hsplit, hindices⟩ := before_split (ofPairs_inOrder pairs)
  rw [others_ofPairs h] at hsplit
  have hbound : ∀ n ∈ ((ofPairs pairs).map (·.1)).filterMap index?, n < 4294967295 := by
    intro n hn
    obtain ⟨key, -, hkey⟩ := List.mem_filterMap.mp hn
    exact (index?_eq_some_iff.mp hkey).1
  have hother : ∀ name ∈ others (pairs.map (·.1)), ∀ n, n < 4294967295 → name ≠ toString n := by
    rintro name hname n hn rfl
    have hnone : index? (toString n) = none := by simpa [others] using (List.mem_filter.mp hname).2
    rw [index?_toString hn] at hnone
    cases hnone
  have hmem : ∀ name, name ∈ (ofPairs pairs).map (·.1) ↔ name ∈ pairs.map (·.1) := by
    intro name
    simp only [List.mem_map, mem_ofPairs_iff h]
  rw [hsplit] at hmem ⊢
  exact .mk _ _ hindices hbound List.filter_sublist hother hmem

end CheckpointRelay.Keyed
