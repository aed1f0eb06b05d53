/-
  CheckpointRelay.Proofs.Json.Order — the order of members.

  `Before` is the order of names: all of them differ, and an index stands behind smaller indices
  only. A list of members in that order (`Keyed.InOrder`) is what `put` keeps and what it leaves
  alone, and so it is with the values all of whose objects are in order (`InOrder`).
  - `index?_inj`: no two names spell one index.
  - `mem_ofPairs_iff`: members of different names are all kept.
  - `get?_put_self` / `get?_put_of_ne` / `get?_without`: what is found where.
  - `put_inOrder` / `ofPairs_of_inOrder`: one member more, and members in order.
  - `ordered_of_inOrder`: a value in order stays as it is when it is read back.
  - `read?_inOrder`: every value that is read is in order.
  - `Ordered` / `Members`: values and lists of members that carry their order; they are read back
    as they are (`Ordered.read_text`).
-/

import CheckpointRelay.Proofs.Json.Reading
import Mathlib.Data.List.TakeWhile

namespace CheckpointRelay

namespace Keyed

/-! ## (1) Indices -/

theorem digit_lt {c : Char} (h : '0' ≤ c ∧ c ≤ '9') : c.toNat - '0'.toNat < 10 := by
  obtain ⟨hlow, hhigh⟩ : '0'.toNat ≤ c.toNat ∧ c.toNat ≤ '9'.toNat := h
  have hbounds : '0'.toNat = 48 ∧ '9'.toNat = 57 := ⟨rfl, rfl⟩
  omega

theorem toDigits_digit {c : Char} (h : '0' ≤ c ∧ c ≤ '9') : Nat.toDigits 10 (c.toNat - '0'.toNat) = [c] := by
  have hlow : '0'.toNat ≤ c.toNat := h.1
  have hzero : '0'.toNat = 48 := rfl
  rw [Nat.toDigits_of_lt_base (digit_lt h)]
  refine congrArg (fun c => [c]) (Char.toNat_inj.mp ?_)
  rw [Nat.toNat_digitChar_of_lt_ten (digit_lt h)]
  omega

/-- Digits behind a number that is not zero spell the number that they are read as. -/
theorem toDigits_foldl {cs : List Char} (h : ∀ c ∈ cs, '0' ≤ c ∧ c ≤ '9') {n : Nat} (hn : 0 < n) :
    Nat.toDigits 10 (cs.foldl (fun n c => n * 10 + (c.toNat - '0'.toNat)) n) = Nat.toDigits 10 n ++ cs := by
  induction cs generalizing n with
  | nil => rw [List.foldl_nil, List.append_nil]
  | cons c cs ih =>
    have hc : '0' ≤ c ∧ c ≤ '9' := h c List.mem_cons_self
    have hcs : ∀ d ∈ cs, '0' ≤ d ∧ d ≤ '9' := fun d hd => h d (List.mem_cons_of_mem c hd)
    have hstep : Nat.toDigits 10 (n * 10 + (c.toNat - '0'.toNat)) = Nat.toDigits 10 n ++ [c] := by
      rw [Nat.mul_comm, ← Nat.toDigits_append_toDigits (by decide) hn (digit_lt hc), toDigits_digit hc]
    rw [List.foldl_cons, ih hcs (by omega), hstep, List.append_assoc]
    rfl

/-- A name that spells an index is its digits. -/
theorem toDigits_index {key : String} {n : Nat} (h : index? key = some n) : Nat.toDigits 10 n = key.toList := by
  unfold index? at h
  simp only [Option.ite_none_right_eq_some, Option.some.injEq] at h
  obtain ⟨⟨hne, hall, hhead, -, -⟩, rfl⟩ := h
  have hdigits : ∀ c ∈ key.toList, '0' ≤ c ∧ c ≤ '9' := by simpa using hall
  cases hkey : key.toList with
  | nil => exact absurd hkey hne
  | cons c cs =>
    rw [hkey] at hhead hdigits
    have hc : '0' ≤ c ∧ c ≤ '9' := hdigits c List.mem_cons_self
    have hcs : ∀ d ∈ cs, '0' ≤ d ∧ d ≤ '9' := fun d hd => hdigits d (List.mem_cons_of_mem c hd)
    by_cases hzero : c = '0'
    · -- a leading zero is the whole name
      rcases hhead with hhead | hhead
      · exact absurd (congrArg some hzero) hhead
      · rw [hhead]
        rfl
    · have hlow : '0'.toNat ≤ c.toNat := hc.1
      have hne : c.toNat ≠ '0'.toNat := fun heq => hzero (Char.toNat_inj.mp heq)
      rw [List.foldl_cons, Nat.zero_mul, Nat.zero_add, toDigits_foldl hcs (by omega), toDigits_digit hc]
      rfl

/-- No two names spell one index. -/
theorem index?_inj {a b : String} {n : Nat} (ha : index? a = some n) (hb : index? b = some n) : a = b :=
  String.toList_inj.mp ((toDigits_index ha).symm.trans (toDigits_index hb))

/-! ## (2) Members in order -/

/-- Two names in the order of object members: an index comes behind smaller indices only. -/
def Before (a b : String) : Prop := a ≠ b ∧ ∀ n, index? b = some n → ∃ m, index? a = some m ∧ m < n

instance (a b : String) : Decidable (Before a b) :=
  inferInstanceAs (Decidable (a ≠ b ∧ ∀ n ∈ index? b, ∃ m ∈ index? a, m < n))

variable {α : Type}

/-- The order that `put` keeps; it is a matter of the names alone. -/
def InOrder (ms : Keyed α) : Prop := (ms.map (·.1)).Pairwise Before

instance (ms : Keyed α) : Decidable (InOrder ms) := inferInstanceAs (Decidable (List.Pairwise _ _))

variable {ms : Keyed α} {key : String} {value : α}

theorem mem_foldl_put {p : String × α} {pairs : List (String × α)}
    (h : p ∈ pairs.foldl (fun ms p => put ms p.1 p.2) ms) : p ∈ pairs ∨ p ∈ ms := by
  induction pairs generalizing ms with
  | nil => exact Or.inr h
  | cons q pairs ih =>
    rcases ih h with h | h
    · exact Or.inl (List.mem_cons_of_mem q h)
    · rcases mem_put h with rfl | h
      · exact Or.inl List.mem_cons_self
      · exact Or.inr h

/-- Putting members in order makes no new ones. -/
theorem mem_ofPairs {p : String × α} {pairs : List (String × α)} (h : p ∈ ofPairs pairs) : p ∈ pairs := by
  rcases mem_foldl_put h with h | h
  · exact h
  · cases h

theorem not_mem_names (h : has ms key = false) : ∀ p ∈ ms, p.1 ≠ key := by
  simpa [has] using h

theorem names_put_of_has (h : has ms key = true) : (put ms key value).map (·.1) = ms.map (·.1) := by
  rw [put, if_pos h, List.map_map]
  refine List.map_congr_left fun p _ => ?_
  by_cases hp : p.1 = key
  · simp [hp]
  · simp [hp]

/-- A new name is added, and nothing is lost. -/
theorem mem_put_iff (h : has ms key = false) {p : String × α} :
    p ∈ put ms key value ↔ p = (key, value) ∨ p ∈ ms := by
  refine ⟨mem_put, fun hp => ?_⟩
  rw [put, h, if_neg Bool.false_ne_true]
  cases index? key with
  | none =>
    rw [List.mem_append, List.mem_singleton]
    exact hp.symm
  | some n =>
    have hsplit : p ∈ ms ↔ p ∈ ms.takeWhile (precedes n) ∨ p ∈ ms.dropWhile (precedes n) := by
      rw [← List.mem_append, List.takeWhile_append_dropWhile]
    rw [hsplit] at hp
    rw [List.mem_append, List.mem_cons]
    rcases hp with hp | hp | hp
    · exact Or.inr (Or.inl hp)
    · exact Or.inl hp
    · exact Or.inr (Or.inr hp)

theorem has_put {name : String} (h : has ms name = false) (hne : key ≠ name) : has (put ms key value) name = false := by
  rw [has, List.any_eq_false]
  intro m hm hname
  rw [beq_iff_eq] at hname
  rcases mem_put hm with rfl | hm
  · exact hne hname
  · exact not_mem_names h m hm hname

/-- Behind a first member, the others are as new as before. -/
theorem has_put_of_nodup {q : String × α} {pairs : List (String × α)} (hq : q.1 ∉ pairs.map (·.1))
    (hnew : ∀ r ∈ pairs, has ms r.1 = false) : ∀ r ∈ pairs, has (put ms q.1 q.2) r.1 = false := by
  intro r hr
  exact has_put (hnew r hr) fun heq => hq (heq ▸ List.mem_map_of_mem hr)

theorem mem_foldl_put_iff {pairs : List (String × α)} (hnames : (pairs.map (·.1)).Nodup)
    (hnew : ∀ q ∈ pairs, has ms q.1 = false) {p : String × α} :
    p ∈ pairs.foldl (fun ms p => put ms p.1 p.2) ms ↔ p ∈ pairs ∨ p ∈ ms := by
  induction pairs generalizing ms with
  | nil => simp
  | cons q pairs ih =>
    obtain ⟨hq, hpairs⟩ : q.1 ∉ pairs.map (·.1) ∧ (pairs.map (·.1)).Nodup := List.nodup_cons.mp hnames
    obtain ⟨hfirst, hrest⟩ := List.forall_mem_cons.mp hnew
    have hrest : ∀ r ∈ pairs, has (put ms q.1 q.2) r.1 = false := has_put_of_nodup hq hrest
    rw [List.foldl_cons, ih hpairs hrest, mem_put_iff hfirst, List.mem_cons]
    exact or_left_comm.trans or_assoc.symm

/-- Putting members of different names in order loses none. -/
theorem mem_ofPairs_iff {pairs : List (String × α)} (h : (pairs.map (·.1)).Nodup) {p : String × α} :
    p ∈ ofPairs pairs ↔ p ∈ pairs := by
  rw [ofPairs, mem_foldl_put_iff h fun q _ => rfl]
  simp

/-- Behind the names that stand before an index `n`, every index is larger. -/
theorem lt_of_mem_dropWhile {n : Nat} (hms : InOrder ms) (hkey : index? key = some n) (hne : ∀ p ∈ ms, p.1 ≠ key) :
    ∀ p ∈ ms.dropWhile (precedes n), ∀ i, index? p.1 = some i → n < i := by
  induction ms with
  | nil => simp
  | cons q ms ih =>
    have hq : q.1 ≠ key := hne q List.mem_cons_self
    have hrest : ∀ p ∈ ms, p.1 ≠ key := fun p hp => hne p (List.mem_cons_of_mem q hp)
    obtain ⟨hbefore, hms⟩ : (∀ b ∈ ms.map (·.1), Before q.1 b) ∧ InOrder ms := List.pairwise_cons.mp hms
    rw [List.dropWhile_cons]
    split
    · exact ih hms hrest
    · rename_i hstop
      -- from the first name that does not stand before `n` on, an index is not below it
      have hfirst : ∀ i, index? q.1 = some i → n < i := by
        intro i hi
        have hle : n ≤ i := by simpa [precedes, hi] using hstop
        have hni : n ≠ i := by
          rintro rfl
          exact hq (index?_inj hi hkey)
        omega
      intro p hp i hi
      rcases List.mem_cons.mp hp with rfl | hp
      · exact hfirst i hi
      · obtain ⟨m, hm, hmi⟩ := (hbefore p.1 (List.mem_map_of_mem hp)).2 i hi
        exact Nat.lt_trans (hfirst m hm) hmi

/-- One member more leaves the members in order. -/
theorem put_inOrder (hms : InOrder ms) (key : String) (value : α) : InOrder (put ms key value) := by
  cases hhas : has ms key with
  | true =>
    rw [InOrder, names_put_of_has hhas]
    exact hms
  | false =>
    have hne : ∀ p ∈ ms, p.1 ≠ key := not_mem_names hhas
    rw [put, hhas, if_neg Bool.false_ne_true]
    cases hkey : index? key with
    | none =>
      simp only [InOrder, List.map_append, List.map_cons, List.map_nil]
      rw [List.pairwise_append]
      refine ⟨hms, List.pairwise_singleton _ _, fun a ha b hb => ?_⟩
      obtain ⟨p, hp, rfl⟩ := List.mem_map.mp ha
      rw [List.mem_singleton] at hb
      exact ⟨hb ▸ hne p hp, fun n hn => by rw [hb, hkey] at hn; cases hn⟩
    | some n =>
      have hms' : InOrder (ms.takeWhile (precedes n) ++ ms.dropWhile (precedes n)) := by
        rw [List.takeWhile_append_dropWhile]
        exact hms
      simp only [InOrder, List.map_append, List.map_cons] at hms' ⊢
      obtain ⟨htake, hdrop, hacross⟩ := List.pairwise_append.mp hms'
      have hbefore : ∀ a ∈ (ms.takeWhile (precedes n)).map (·.1), Before a key := by
        intro a ha
        obtain ⟨p, hp, rfl⟩ := List.mem_map.mp ha
        refine ⟨hne p ((List.takeWhile_sublist _).subset hp), fun i hi => ?_⟩
        have hprecedes : precedes n p = true := List.mem_takeWhile_imp hp
        rw [hkey] at hi
        cases hi
        cases hindex : index? p.1 with
        | none => simp [precedes, hindex] at hprecedes
        | some m => exact ⟨m, rfl, by simpa [precedes, hindex] using hprecedes⟩
      have hafter : ∀ b ∈ (ms.dropWhile (precedes n)).map (·.1), Before key b := by
        intro b hb
        obtain ⟨p, hp, rfl⟩ := List.mem_map.mp hb
        refine ⟨(hne p ((List.dropWhile_sublist _).subset hp)).symm, fun i hi => ?_⟩
        exact ⟨n, hkey, lt_of_mem_dropWhile hms hkey hne p hp i hi⟩
      refine List.pairwise_append.mpr ⟨htake, List.pairwise_cons.mpr ⟨hafter, hdrop⟩, fun a ha b hb => ?_⟩
      rcases List.mem_cons.mp hb with rfl | hb
      · exact hbefore a ha
      · exact hacross a ha b hb

theorem foldl_put_inOrder {pairs : List (String × α)} (hms : InOrder ms) :
    InOrder (pairs.foldl (fun ms p => put ms p.1 p.2) ms) := by
  induction pairs generalizing ms with
  | nil => exact hms
  | cons p pairs ih => exact ih (put_inOrder hms p.1 p.2)

theorem ofPairs_inOrder (pairs : List (String × α)) : InOrder (ofPairs pairs) := foldl_put_inOrder List.Pairwise.nil

/-- A member that all others stand before comes last. -/
theorem put_last (h : ∀ p ∈ ms, Before p.1 key) (value : α) : put ms key value = ms ++ [(key, value)] := by
  have hhas : has ms key = false := by simpa [has] using fun a b hab => (h (a, b) hab).1
  rw [put, hhas, if_neg Bool.false_ne_true]
  cases hkey : index? key with
  | none => rfl
  | some n =>
    have hall : ∀ p ∈ ms, precedes n p = true := by
      intro p hp
      obtain ⟨m, hm, hmn⟩ := (h p hp).2 n hkey
      simp [precedes, hm, hmn]
    simp only [List.takeWhile_eq_self_iff.mpr hall, List.dropWhile_eq_nil_iff.mpr hall]

theorem foldl_put_of_inOrder {behind : Keyed α} (h : InOrder (ms ++ behind)) :
    behind.foldl (fun ms p => put ms p.1 p.2) ms = ms ++ behind := by
  induction behind generalizing ms with
  | nil => rw [List.foldl_nil, List.append_nil]
  | cons p behind ih =>
    have hlast : put ms p.1 p.2 = ms ++ [p] := by
      rw [InOrder, List.map_append, List.pairwise_append] at h
      exact put_last (fun q hq => h.2.2 q.1 (List.mem_map_of_mem hq) p.1 (by simp)) p.2
    have happ : ms ++ p :: behind = ms ++ [p] ++ behind := by simp
    rw [List.foldl_cons, hlast, happ, ih (happ ▸ h)]

/-- Members in order stay as they are. -/
theorem ofPairs_of_inOrder (h : InOrder ms) : ofPairs ms = ms := by
  have hall : InOrder ([] ++ ms) := h
  exact foldl_put_of_inOrder hall

/-! ## (3) What is found -/

theorem get?_without (ms : Keyed α) (keys : List String) (key : String) :
    get? (without ms keys) key = if key ∈ keys then none else get? ms key := by
  induction ms with
  | nil => simp [get?, without]
  | cons m ms ih =>
    obtain ⟨name, v⟩ := m
    simp only [get?, without] at ih ⊢
    by_cases hkept : keys.contains name = true
    · rw [List.filter_cons_of_neg (by simpa using hkept), ih]
      -- a name that is taken out is not looked up behind it either
      by_cases hkey : key ∈ keys
      · rw [if_pos hkey, if_pos hkey]
      · have hother : (key == name) = false := by
          rw [beq_eq_false_iff_ne]
          rintro rfl
          exact hkey (List.contains_iff_mem.mp hkept)
        rw [if_neg hkey, if_neg hkey, List.lookup_cons, hother]
    · rw [List.filter_cons_of_pos (by simpa using hkept), List.lookup_cons, List.lookup_cons]
      cases hname : key == name with
      | true =>
        have hkey : key ∉ keys := by
          rw [beq_iff_eq.mp hname]
          exact fun h => hkept (List.contains_iff_mem.mpr h)
        rw [if_neg hkey]
      | false => exact ih

/-- Where a name is taken out, it does not matter what was put under it. -/
theorem without_put {keys : List String} (h : key ∈ keys) : without (put ms key value) keys = without ms keys := by
  unfold put without
  split
  · rename_i hhas
    clear hhas
    induction ms with
    | nil => rfl
    | cons m ms ih =>
      by_cases hm : m.1 = key
      · simpa [hm, h] using ih
      · simp only [List.map_cons, List.filter_cons, beq_iff_eq, hm, if_false] at ih ⊢
        rw [ih]
  · cases index? key with
    | none => simp [h]
    | some n =>
      simp only
      rw [List.filter_append, List.filter_cons_of_neg (by simpa using h), ← List.filter_append,
        List.takeWhile_append_dropWhile]

/-- What is put is found. -/
theorem get?_put_self (ms : Keyed α) (key : String) (value : α) : get? (put ms key value) key = some value := by
  by_cases hhas : has ms key = true
  · rw [put, if_pos hhas]
    induction ms with
    | nil => cases hhas
    | cons m ms ih =>
      obtain ⟨name, old⟩ := m
      by_cases hname : name = key
      · simp [get?, hname]
      · have hother : (key == name) = false := by simpa using Ne.symm hname
        have hrest : has ms key = true := by simpa [has, hname] using hhas
        simpa [get?, List.lookup_cons, hname, hother] using ih hrest
  · have hnone (part : List (String × α)) (hpart : part ⊆ ms) : part.lookup key = none := by
      rw [List.lookup_eq_none_iff]
      intro m hm
      have hne := not_mem_names (Bool.eq_false_iff.mpr hhas) m (hpart hm)
      simpa using Ne.symm hne
    rw [put, if_neg hhas, get?]
    cases index? key with
    | none => simp [List.lookup_append, hnone ms (List.Subset.refl ms)]
    | some n => simp [List.lookup_append, hnone _ (List.takeWhile_sublist _).subset]

/-- And nothing else is found differently. -/
theorem get?_put_of_ne {name : String} (h : name ≠ key) : get? (put ms key value) name = get? ms name := by
  have hwithout : without (put ms key value) [key] = without ms [key] := without_put (List.mem_singleton_self key)
  have hfound := congrArg (get? · name) hwithout
  simpa [get?_without, h] using hfound

end Keyed

/-! ## (4) Values in order -/

namespace Json

mutual

/-- The members of every object are in order. -/
def InOrder : Json → Prop
  | .arr items => ItemsInOrder items
  | .obj members => Keyed.InOrder members ∧ MembersInOrder members
  | _ => True

def ItemsInOrder : List Json → Prop
  | [] => True
  | x :: xs => InOrder x ∧ ItemsInOrder xs

def MembersInOrder : List (String × Json) → Prop
  | [] => True
  | (_, v) :: ms => InOrder v ∧ MembersInOrder ms

end

theorem itemsInOrder_iff {items : List Json} : ItemsInOrder items ↔ ∀ v ∈ items, v.InOrder := by
  induction items with
  | nil => simp [ItemsInOrder]
  | cons v vs ih => simp [ItemsInOrder, ih]

theorem membersInOrder_iff {members : Keyed Json} : MembersInOrder members ↔ ∀ m ∈ members, m.2.InOrder := by
  induction members with
  | nil => simp [MembersInOrder]
  | cons m ms ih => simp [MembersInOrder, ih]

mutual

/-- Reading back takes nothing from a value in order. -/
theorem ordered_of_inOrder (v : Json) (h : v.InOrder) : v.ordered = v := by
  match v, h with
  | .null, _ | .bool _, _ | .num _, _ | .str _, _ => rfl
  | .arr items, h => rw [ordered, orderedItems_of_inOrder items h]
  | .obj members, h => rw [ordered, orderedMembers_of_inOrder members h.2, Keyed.ofPairs_of_inOrder h.1]

theorem orderedItems_of_inOrder (items : List Json) (h : ItemsInOrder items) : orderedItems items = items := by
  match items, h with
  | [], _ => rfl
  | v :: vs, h => rw [orderedItems, ordered_of_inOrder v h.1, orderedItems_of_inOrder vs h.2]

theorem orderedMembers_of_inOrder (members : List (String × Json)) (h : MembersInOrder members) :
    orderedMembers members = members := by
  match members, h with
  | [], _ => rfl
  | (k, v) :: ms, h => rw [orderedMembers, ordered_of_inOrder v h.1, orderedMembers_of_inOrder ms h.2]

end

/-! ## (5) What is read is in order -/

theorem obj_put_inOrder {members : Keyed Json} (h : (Json.obj members).InOrder) (key : String) {v : Json}
    (hv : v.InOrder) : (Json.obj (Keyed.put members key v)).InOrder := by
  refine ⟨Keyed.put_inOrder h.1 key v, membersInOrder_iff.mpr fun m hm => ?_⟩
  rcases Keyed.mem_put hm with rfl | hm
  · exact hv
  · exact membersInOrder_iff.mp h.2 m hm

theorem kept_inOrder : Kept InOrder where
  null := trivial
  bool _ := trivial
  str _ := trivial
  number _ _ _ := trivial
  arr _ h := itemsInOrder_iff.mpr h
  empty := ⟨List.Pairwise.nil, trivial⟩
  put _ key _ h hv := obj_put_inOrder h key hv

/-- Every value that is read is in order. -/
theorem read?_inOrder {s : String} {v : Json} (h : read? s = some v) : v.InOrder := read?_kept kept_inOrder h

/-! ## (6) Values that carry their order -/

/-- A value all of whose objects are in order. -/
structure Ordered where
  value : Json
  inOrder : value.InOrder

/-- The members of an object that is in order. -/
structure Members where
  list : Keyed Json
  inOrder : (Json.obj list).InOrder

/-- The object of these members. -/
def Members.object (ms : Members) : Ordered := ⟨.obj ms.list, ms.inOrder⟩

/-- The members of other names. -/
def Members.without (ms : Members) (keys : List String) : Members where
  list := Keyed.without ms.list keys
  inOrder := by
    have hsublist : List.Sublist (Keyed.without ms.list keys) ms.list := List.filter_sublist
    refine ⟨ms.inOrder.1.sublist (hsublist.map _), membersInOrder_iff.mpr fun m hm => ?_⟩
    exact membersInOrder_iff.mp ms.inOrder.2 m (hsublist.subset hm)

/-- Without numbers a value in order is read back as it is. -/
theorem Ordered.read_text (v : Ordered) (h : v.value.numberFree = true) : read? v.value.text = some v.value := by
  rw [Json.read_text v.value h, ordered_of_inOrder v.value v.inOrder]

end Json

end CheckpointRelay
