/-
  CheckpointRelay.Proofs.Text.Replacement — decoding of bytes that need not be a text.

  Behind any bytes the machine stands between two characters or inside one, whose first bytes
  it has read (`Opened`). A byte does one of three things there (`Stepped`): it opens a character
  or goes on in it, it ends it, or it cannot belong to it, and then a U+FFFD is written. The first
  byte of a character never goes on in another one, so at the beginning of a text the machine
  finds its place again whatever it has read.
  - `decodeChars_append`: bytes are decoded piece by piece.
  - `decodeChars_append_encode`: a text behind any bytes is decoded to itself.
  - `decodeChars_cut`: bytes that are cut end between two characters, or in a U+FFFD.
  - `encode_decode`: bytes that are decoded without a U+FFFD are the encoding of their text.
-/

import CheckpointRelay.Proofs.Text.Decoding

namespace CheckpointRelay.Text.Utf8

/-! ## (1) Pieces -/

/-- Where the machine stands behind some bytes. -/
def after (p : Progress) (bs : Bytes) : Progress := bs.foldl (fun p b => (step p b).2) p

/-- What it has written by then. -/
def written : Progress → Bytes → List Char
  | _, [] => []
  | p, b :: bs => (step p b).1 ++ written (step p b).2 bs

theorem decodeFrom_append (p : Progress) (bs rest : Bytes) :
    decodeFrom p (bs ++ rest) = written p bs ++ decodeFrom (after p bs) rest := by
  induction bs generalizing p with
  | nil => rfl
  | cons b bs ih =>
    rw [List.cons_append, decodeFrom, ih, written, List.append_assoc]
    rfl

theorem decodeFrom_eq (p : Progress) (bs : Bytes) : decodeFrom p bs = written p bs ++ (after p bs).flush := by
  have happend := decodeFrom_append p bs []
  rwa [List.append_nil] at happend

/-- Bytes in front of others are decoded first. -/
theorem decodeChars_append (bs rest : Bytes) :
    decodeChars (bs ++ rest) = written .idle bs ++ decodeFrom (after .idle bs) rest := decodeFrom_append .idle bs rest

/-! ## (2) Characters that are open -/

/-- The bytes that have been read of the character that the machine is inside of. -/
inductive Opened : Bytes → Progress → Prop
  | idle : Opened [] .idle
  | two (k : Nat) : k < 30 → Opened [UInt8.ofNat (k + 2 + 192)] (.within 1 0x80 0xBF (k + 2))
  | three (k : Nat) : k < 16 →
      Opened [UInt8.ofNat (k + 224)]
        (.within 2 (if k = 0 then 0xA0 else 0x80) (if k = 13 then 0x9F else 0xBF) k)
  | four (k : Nat) : k < 5 →
      Opened [UInt8.ofNat (k + 240)]
        (.within 3 (if k = 0 then 0x90 else 0x80) (if k = 4 then 0x8F else 0xBF) k)
  | inner (seen : Bytes) (missing low high bits t : Nat) : Opened seen (.within (missing + 2) low high bits) →
      t < 64 → low ≤ t + 128 → t + 128 ≤ high →
      Opened (seen ++ [UInt8.ofNat (t + 128)]) (.within (missing + 1) 0x80 0xBF (bits * 64 + t))

variable {seen : Bytes} {p : Progress} {missing low high bits t : Nat}

theorem Opened.missing_pos (h : Opened seen (.within missing low high bits)) : 1 ≤ missing := by
  cases h <;> omega

/-- Inside a character the next byte has to be one that no character begins with. -/
theorem Opened.bounds (h : Opened seen (.within missing low high bits)) : 0x80 ≤ low ∧ high ≤ 0xBF := by
  cases h with
  | three k _ => constructor <;> split <;> omega
  | four k _ => constructor <;> split <;> omega
  | _ => omega

theorem Opened.ne_idle (h : Opened seen p) (hne : seen ≠ []) : p ≠ .idle := by
  rintro rfl
  cases h
  exact hne rfl

theorem toNat_scalar {n : Nat} (h : n < 0xD800 ∨ 0xDFFF < n ∧ n < 0x110000) : (Char.ofNat n).val.toNat = n := by
  have hvalid : n.isValidChar := h
  rw [Char.ofNat, dif_pos hvalid]
  rfl

theorem encode_two {n : Nat} (hlow : 0x80 ≤ n) (hhigh : n ≤ 0x7FF) :
    String.utf8EncodeChar (Char.ofNat n) = [UInt8.ofNat (n / 64 % 32 + 192), UInt8.ofNat (n % 64 + 128)] := by
  have hone : ¬n ≤ 0x7F := by omega
  simp only [String.utf8EncodeChar, toNat_scalar (show n < 0xD800 ∨ _ by omega), hone, hhigh, if_true, if_false]

theorem encode_three {n : Nat} (hlow : 0x800 ≤ n) (hhigh : n ≤ 0xFFFF) (hscalar : n < 0xD800 ∨ 0xDFFF < n) :
    String.utf8EncodeChar (Char.ofNat n)
      = [UInt8.ofNat (n / 4096 % 16 + 224), UInt8.ofNat (n / 64 % 64 + 128), UInt8.ofNat (n % 64 + 128)] := by
  have hone : ¬n ≤ 0x7F := by omega
  have htwo : ¬n ≤ 0x7FF := by omega
  simp only [String.utf8EncodeChar, toNat_scalar (show n < 0xD800 ∨ _ by omega), hone, htwo, hhigh, if_true, if_false]

theorem encode_four {n : Nat} (hlow : 0x10000 ≤ n) (hhigh : n < 0x110000) :
    String.utf8EncodeChar (Char.ofNat n)
      = [UInt8.ofNat (n / 262144 % 8 + 240), UInt8.ofNat (n / 4096 % 64 + 128), UInt8.ofNat (n / 64 % 64 + 128),
         UInt8.ofNat (n % 64 + 128)] := by
  have hone : ¬n ≤ 0x7F := by omega
  have htwo : ¬n ≤ 0x7FF := by omega
  have hthree : ¬n ≤ 0xFFFF := by omega
  simp only [String.utf8EncodeChar, toNat_scalar (show n < 0xD800 ∨ _ by omega), hone, htwo, hthree, if_false]

theorem Opened.missing_le (h : Opened seen (.within missing low high bits)) : missing ≤ 3 := by
  generalize hp : Progress.within missing low high bits = p at h
  induction h generalizing missing low high bits with
  | idle => cases hp
  | two | three | four => cases hp; omega
  | inner seen missing low high bits t _ _ _ _ ih =>
    cases hp
    have hbefore := ih rfl
    omega

/-- The last byte of a character makes its encoding whole. -/
theorem Opened.ends (h : Opened seen (.within 1 low high bits)) (ht : t < 64) (hlow : low ≤ t + 128)
    (hhigh : t + 128 ≤ high) :
    String.utf8EncodeChar (Char.ofNat (bits * 64 + t)) = seen ++ [UInt8.ofNat (t + 128)] := by
  cases h with
  | two k hk =>
    have hlead : ((k + 2) * 64 + t) / 64 % 32 = k + 2 := by omega
    have hlast : ((k + 2) * 64 + t) % 64 = t := by omega
    rw [encode_two (by omega) (by omega), hlead, hlast]
    rfl
  | inner seen _ low' high' k t' h ht' hlow' hhigh' =>
    cases h with
    | three _ hk =>
      have hfirst : (k = 0 → 32 ≤ t') ∧ (k = 13 → t' < 32) := by
        constructor <;> intro hk <;> simp only [hk, if_true] at hlow' hhigh' <;> omega
      have hlead : ((k * 64 + t') * 64 + t) / 4096 % 16 = k := by omega
      have hmid : ((k * 64 + t') * 64 + t) / 64 % 64 = t' := by omega
      have hlast : ((k * 64 + t') * 64 + t) % 64 = t := by omega
      rw [encode_three (by omega) (by omega) (by omega), hlead, hmid, hlast]
      rfl
    | inner seen _ low'' high'' k t'' h ht'' hlow'' hhigh'' =>
      cases h with
      | four _ hk =>
        have hfirst : (k = 0 → 16 ≤ t'') ∧ (k = 4 → t'' < 16) := by
          constructor <;> intro hk <;> simp only [hk, if_true] at hlow'' hhigh'' <;> omega
        have hlead : (((k * 64 + t'') * 64 + t') * 64 + t) / 262144 % 8 = k := by omega
        have hsecond : (((k * 64 + t'') * 64 + t') * 64 + t) / 4096 % 64 = t'' := by omega
        have hthird : (((k * 64 + t'') * 64 + t') * 64 + t) / 64 % 64 = t' := by omega
        have hlast : (((k * 64 + t'') * 64 + t') * 64 + t) % 64 = t := by omega
        rw [encode_four (by omega) (by omega), hlead, hsecond, hthird, hlast]
        rfl
      | inner seen _ _ _ _ _ h =>
        have hfour := h.missing_le
        omega

/-! ## (3) One byte -/

/-- What a byte does behind the bytes of an open character: it goes on in one, it ends it, or
    something is replaced. -/
inductive Stepped (seen : Bytes) (b : UInt8) : List Char × Progress → Prop
  | opens (p : Progress) : Opened (seen ++ [b]) p → Stepped seen b ([], p)
  | ends (c : Char) : String.utf8EncodeChar c = seen ++ [b] → Stepped seen b ([c], .idle)
  | replaces (out : List Char) (seen' : Bytes) (p : Progress) : replacement ∈ out → Opened seen' p →
      Stepped seen b (out, p)

theorem stepped_begin (b : UInt8) : Stepped [] b (begin b) := by
  obtain ⟨n, hn, hb⟩ : ∃ n, n < 256 ∧ b = UInt8.ofNat n := ⟨b.toNat, b.toNat_lt, by simp⟩
  subst hb
  by_cases hone : n < 0x80
  · have hcode : String.utf8EncodeChar (Char.ofNat n) = [UInt8.ofNat n] := by
      have hle : n ≤ 0x7F := by omega
      simp only [String.utf8EncodeChar, toNat_scalar (show n < 0xD800 ∨ _ by omega), hle, if_true]
    rw [begin_one hone]
    exact .ends _ hcode
  by_cases hlone : n < 0xC2
  · have hbegin : begin (UInt8.ofNat n) = ([replacement], .idle) := by
      simp only [begin, toNat_byte hn, hone, hlone, if_true, if_false]
    rw [hbegin]
    exact .replaces _ [] _ List.mem_cons_self .idle
  by_cases htwo : n < 0xE0
  · obtain ⟨k, rfl⟩ : ∃ k, n = k + 2 + 192 := ⟨n - 194, by omega⟩
    rw [begin_two (by omega)]
    exact .opens _ (.two k (by omega))
  by_cases hthree : n < 0xF0
  · obtain ⟨k, rfl⟩ : ∃ k, n = k + 224 := ⟨n - 224, by omega⟩
    rw [begin_three (by omega)]
    exact .opens _ (.three k (by omega))
  by_cases hfour : n < 0xF5
  · obtain ⟨k, rfl⟩ : ∃ k, n = k + 240 := ⟨n - 240, by omega⟩
    rw [begin_four (by omega)]
    exact .opens _ (.four k (by omega))
  · have hbegin : begin (UInt8.ofNat n) = ([replacement], .idle) := by
      have hnot : n ≠ 0xE0 ∧ n ≠ 0xED ∧ n ≠ 0xF0 ∧ ¬n < 0xF4 ∧ n ≠ 0xF4 := by omega
      simp only [begin, toNat_byte hn, hone, hlone, htwo, hthree, hnot, if_false]
    rw [hbegin]
    exact .replaces _ [] _ List.mem_cons_self .idle

/-- A byte that cannot belong to an open character is met as if it stood alone. -/
theorem step_outside {b : UInt8} (hb : ¬(low ≤ b.toNat ∧ b.toNat ≤ high)) :
    step (.within missing low high bits) b = (replacement :: (begin b).1, (begin b).2) := by
  simp only [step, if_neg hb]

theorem Stepped.opened {b : UInt8} {r : List Char × Progress} (h : Stepped seen b r) : ∃ seen', Opened seen' r.2 := by
  cases h with
  | opens p hp => exact ⟨_, hp⟩
  | ends c _ => exact ⟨[], .idle⟩
  | replaces out seen' p _ hp => exact ⟨seen', hp⟩

theorem stepped (h : Opened seen p) (b : UInt8) : Stepped seen b (step p b) := by
  match p with
  | .idle =>
    cases h
    exact stepped_begin b
  | .within missing low high bits =>
    by_cases hb : low ≤ b.toNat ∧ b.toNat ≤ high
    · obtain ⟨hlow, hhigh⟩ := h.bounds
      obtain ⟨t, ht, rfl⟩ : ∃ t, t < 64 ∧ b = UInt8.ofNat (t + 128) := by
        refine ⟨b.toNat - 128, by omega, ?_⟩
        rw [Nat.sub_add_cancel (by omega)]
        simp
      rw [toNat_byte (by omega)] at hb
      have hpos := h.missing_pos
      simp only [step, toNat_byte (show t + 128 < 256 by omega), hb, and_self, if_true, Nat.add_sub_cancel]
      split
      · obtain rfl : missing = 1 := by omega
        exact .ends _ (h.ends ht hb.1 hb.2)
      · obtain ⟨more, rfl⟩ : ∃ more, missing = more + 2 := ⟨missing - 2, by omega⟩
        exact .opens _ (.inner seen more low high bits t h ht hb.1 hb.2)
    · obtain ⟨seen', hseen'⟩ := (stepped_begin b).opened
      rw [step_outside hb]
      exact .replaces _ seen' _ List.mem_cons_self hseen'

/-! ## (4) Runs -/

/-- Behind any bytes the machine stands inside a character that it has read the beginning of. -/
theorem opened_after (h : Opened seen p) (bs : Bytes) : ∃ seen', Opened seen' (after p bs) := by
  induction bs generalizing seen p with
  | nil => exact ⟨seen, h⟩
  | cons b bs ih =>
    obtain ⟨seen', hseen'⟩ := (stepped h b).opened
    exact ih hseen'

/-- Something is written for every byte, if only at the end. -/
theorem decodeFrom_ne_nil (h : Opened seen p) {bs : Bytes} (hne : seen ++ bs ≠ []) : decodeFrom p bs ≠ [] := by
  induction bs generalizing seen p with
  | nil =>
    rw [List.append_nil] at hne
    match p, h.ne_idle hne with
    | .within .., _ => exact List.cons_ne_nil _ _
  | cons b bs ih =>
    have hstep := stepped h b
    rw [decodeFrom]
    generalize step p b = r at hstep
    cases hstep with
    | opens p hp => exact ih hp (by simp)
    | ends c _ => exact List.cons_ne_nil _ _
    | replaces out seen' p hout _ => exact List.append_ne_nil_of_left_ne_nil (List.ne_nil_of_mem hout) _

/-- Bytes that are cut end between two characters, or in a character that is replaced. -/
theorem decodeChars_cut (bs rest : Bytes) :
    decodeChars (bs ++ rest) = decodeChars bs ++ decodeChars rest ∨ ∃ cs, decodeChars bs = cs ++ [replacement] := by
  have hbs : decodeChars bs = written .idle bs ++ (after .idle bs).flush := decodeFrom_eq .idle bs
  rw [decodeChars_append, hbs]
  match after .idle bs with
  | .idle => exact Or.inl (by rw [Progress.flush, List.append_nil]; rfl)
  | .within .. => exact Or.inr ⟨_, rfl⟩

/-- Where nothing is replaced, the bytes are the encoding of what is written. -/
theorem encode_decodeFrom (h : Opened seen p) {bs : Bytes} (hkept : replacement ∉ decodeFrom p bs) :
    (decodeFrom p bs).flatMap String.utf8EncodeChar = seen ++ bs := by
  induction bs generalizing seen p with
  | nil =>
    match p with
    | .idle => cases h; rfl
    | .within .. => exact absurd List.mem_cons_self hkept
  | cons b bs ih =>
    have hstep := stepped h b
    rw [decodeFrom] at hkept ⊢
    generalize step p b = r at hstep hkept ⊢
    cases hstep with
    | opens p hp => rw [List.nil_append, ih hp hkept, List.append_assoc]; rfl
    | ends c hc =>
      rw [List.singleton_append, List.mem_cons, not_or] at hkept
      rw [List.singleton_append, List.flatMap_cons, hc, ih .idle hkept.2, List.append_assoc]
      rfl
    | replaces out seen' p hout _ => exact absurd (List.mem_append_left _ hout) hkept

/-- Bytes that are decoded without a U+FFFD are the encoding of their text. -/
theorem encode_decode {bs : Bytes} (h : replacement ∉ (decode bs).toList) : encode (decode bs) = bs := by
  rw [decode, String.toList_ofList] at h
  rw [encode, decode, String.toList_ofList]
  exact encode_decodeFrom .idle h

/-! ## (5) Texts among other bytes -/

/-- No character begins with a byte that goes on in another one. -/
theorem encode_head (c : Char) : ∃ b bs, String.utf8EncodeChar c = b :: bs ∧ (b.toNat < 0x80 ∨ 0xBF < b.toNat) := by
  unfold String.utf8EncodeChar
  extract_lets n
  split
  · exact ⟨_, _, rfl, Or.inl (by rw [toNat_byte (by omega)]; omega)⟩
  split
  · exact ⟨_, _, rfl, Or.inr (by rw [toNat_byte (by omega)]; omega)⟩
  split
  · exact ⟨_, _, rfl, Or.inr (by rw [toNat_byte (by omega)]; omega)⟩
  · exact ⟨_, _, rfl, Or.inr (by rw [toNat_byte (by omega)]; omega)⟩

/-- In the range of ASCII every byte stands for itself. -/
theorem encode_ascii {c : Char} {b : UInt8} (h : b ∈ String.utf8EncodeChar c) : b.toNat = c.toNat ∨ 0x80 ≤ b.toNat := by
  unfold String.utf8EncodeChar at h
  extract_lets n at h
  split at h
  · obtain rfl := List.mem_singleton.mp h
    exact Or.inl (toNat_byte (by omega))
  right
  split at h
  · simp only [List.mem_cons, List.not_mem_nil, or_false] at h
    rcases h with rfl | rfl <;> rw [toNat_byte (by omega)] <;> omega
  split at h
  · simp only [List.mem_cons, List.not_mem_nil, or_false] at h
    rcases h with rfl | rfl | rfl <;> rw [toNat_byte (by omega)] <;> omega
  · simp only [List.mem_cons, List.not_mem_nil, or_false] at h
    rcases h with rfl | rfl | rfl | rfl <;> rw [toNat_byte (by omega)] <;> omega

/-- A byte that begins a character closes the one before it. -/
theorem decodeFrom_interrupted (h : Opened seen p) {b : UInt8} (hb : b.toNat < 0x80 ∨ 0xBF < b.toNat) (rest : Bytes) :
    decodeFrom p (b :: rest) = p.flush ++ decodeFrom .idle (b :: rest) := by
  match p with
  | .idle => rfl
  | .within missing low high bits =>
    obtain ⟨hlow, hhigh⟩ := h.bounds
    rw [decodeFrom, step_outside (by omega)]
    rfl

theorem decodeFrom_encode (h : Opened seen p) (cs : List Char) :
    decodeFrom p (cs.flatMap String.utf8EncodeChar) = p.flush ++ cs := by
  cases cs with
  | nil => exact (List.append_nil _).symm
  | cons c cs =>
    obtain ⟨b, bs, hbytes, hb⟩ := encode_head c
    rw [List.flatMap_cons, hbytes, List.cons_append, decodeFrom_interrupted h hb, ← List.cons_append, ← hbytes,
      ← List.flatMap_cons]
    exact congrArg (p.flush ++ ·) (decodeChars_encode (c :: cs))

/-- A text behind any bytes is decoded to itself. -/
theorem decodeChars_append_encode (bs : Bytes) (cs : List Char) :
    decodeChars (bs ++ cs.flatMap String.utf8EncodeChar) = decodeChars bs ++ cs := by
  obtain ⟨seen, hseen⟩ := opened_after .idle bs
  rw [decodeChars_append, decodeFrom_encode hseen, ← List.append_assoc, ← decodeFrom_eq]
  rfl

/-- A text in front of any bytes is decoded to itself. -/
theorem decodeChars_encode_append (cs : List Char) (bs : Bytes) :
    decodeChars (cs.flatMap String.utf8EncodeChar ++ bs) = cs ++ decodeChars bs := by
  induction cs with
  | nil => rfl
  | cons c cs ih =>
    rw [List.flatMap_cons, List.append_assoc, decodeChars, decodeFrom_char]
    exact congrArg (c :: ·) ih

theorem decode_between (before after : String) (bs : Bytes) :
    decode (encode before ++ bs ++ encode after) = before ++ decode bs ++ after := by
  rw [decode, encode, encode, decodeChars_append_encode, decodeChars_encode_append, decode, String.ofList_append,
    String.ofList_append, String.ofList_toList, String.ofList_toList]

end CheckpointRelay.Text.Utf8
