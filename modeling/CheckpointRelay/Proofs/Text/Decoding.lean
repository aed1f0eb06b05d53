/-
  CheckpointRelay.Proofs.Text.Decoding — UTF-8 is decoded to the text that it encodes.

  The machine is followed through the bytes of one character: a lead byte opens it with the
  range that the next byte must be in (`begin_two`, `begin_three`, `begin_four`), every further
  byte adds six bits. Between two characters the machine is idle again, whatever follows.
  - `decodeFrom_two` / `decodeFrom_three` / `decodeFrom_four`: the codes of each length.
  - `decodeFrom_char`: the bytes of one character.
  - `decode_encode`: a whole text.
-/

import CheckpointRelay.Text.Utf8

namespace CheckpointRelay.Text.Utf8

/-! ## (1) Single bytes -/

theorem toNat_byte {n : Nat} (h : n < 256) : (UInt8.ofNat n).toNat = n := UInt8.toNat_ofNat_of_lt' h

/-- A byte that is a character by itself. -/
theorem begin_one {n : Nat} (h : n < 0x80) : begin (UInt8.ofNat n) = ([Char.ofNat n], .idle) := by
  simp [begin, toNat_byte (show n < 256 by omega), h]

theorem begin_two {k : Nat} (h : k < 30) : begin (UInt8.ofNat (k + 2 + 192)) = ([], .within 1 0x80 0xBF (k + 2)) := by
  revert k
  decide

/-- The second byte has a smaller range where otherwise a shorter form, or half of a surrogate
    pair, would be spelled. -/
theorem begin_three {k : Nat} (h : k < 16) :
    begin (UInt8.ofNat (k + 224))
      = ([], .within 2 (if k = 0 then 0xA0 else 0x80) (if k = 13 then 0x9F else 0xBF) k) := by
  revert k
  decide

theorem begin_four {k : Nat} (h : k < 5) :
    begin (UInt8.ofNat (k + 240))
      = ([], .within 3 (if k = 0 then 0x90 else 0x80) (if k = 4 then 0x8F else 0xBF) k) := by
  revert k
  decide

variable {low high bits t : Nat} {rest : Bytes}

/-- A byte inside a character, after which more are missing. -/
theorem decodeFrom_inner {missing : Nat} (ht : t < 64) (hlow : low ≤ t + 128) (hhigh : t + 128 ≤ high) :
    decodeFrom (.within (missing + 2) low high bits) (UInt8.ofNat (t + 128) :: rest)
      = decodeFrom (.within (missing + 1) 0x80 0xBF (bits * 64 + t)) rest := by
  have hmore : ¬missing + 2 ≤ 1 := by omega
  simp only [decodeFrom, step, toNat_byte (show t + 128 < 256 by omega), hlow, hhigh, and_self, if_true, hmore,
    if_false, List.nil_append, Nat.add_sub_cancel]
  rfl

/-- The last byte of a character. -/
theorem decodeFrom_last (ht : t < 64) (hlow : low ≤ t + 128) (hhigh : t + 128 ≤ high) :
    decodeFrom (.within 1 low high bits) (UInt8.ofNat (t + 128) :: rest)
      = Char.ofNat (bits * 64 + t) :: decodeFrom .idle rest := by
  simp only [decodeFrom, step, toNat_byte (show t + 128 < 256 by omega), hlow, hhigh, and_self, if_true,
    Nat.le_refl, Nat.add_sub_cancel, List.singleton_append]

/-! ## (2) Codes of each length -/

theorem decodeFrom_two {n : Nat} (hlow : 0x80 ≤ n) (hhigh : n ≤ 0x7FF) :
    decodeFrom .idle (UInt8.ofNat (n / 64 % 32 + 192) :: UInt8.ofNat (n % 64 + 128) :: rest)
      = Char.ofNat n :: decodeFrom .idle rest := by
  have hlead : n / 64 % 32 = n / 64 - 2 + 2 := by omega
  have hcode : (n / 64 - 2 + 2) * 64 + n % 64 = n := by omega
  rw [decodeFrom, step, hlead, begin_two (by omega), List.nil_append,
    decodeFrom_last (by omega) (by omega) (by omega), hcode]

theorem decodeFrom_three {n : Nat} (hlow : 0x800 ≤ n) (hhigh : n ≤ 0xFFFF) (hscalar : n < 0xD800 ∨ 0xDFFF < n) :
    decodeFrom .idle (UInt8.ofNat (n / 4096 % 16 + 224) :: UInt8.ofNat (n / 64 % 64 + 128)
        :: UInt8.ofNat (n % 64 + 128) :: rest)
      = Char.ofNat n :: decodeFrom .idle rest := by
  have hcode : (n / 4096 % 16 * 64 + n / 64 % 64) * 64 + n % 64 = n := by omega
  have hfrom : (if n / 4096 % 16 = 0 then 0xA0 else 0x80) ≤ n / 64 % 64 + 128 := by split <;> omega
  have hto : n / 64 % 64 + 128 ≤ if n / 4096 % 16 = 13 then 0x9F else 0xBF := by split <;> omega
  rw [decodeFrom, step, begin_three (by omega), List.nil_append, decodeFrom_inner (by omega) hfrom hto,
    decodeFrom_last (by omega) (by omega) (by omega), hcode]

theorem decodeFrom_four {n : Nat} (hlow : 0x10000 ≤ n) (hhigh : n < 0x110000) :
    decodeFrom .idle (UInt8.ofNat (n / 262144 % 8 + 240) :: UInt8.ofNat (n / 4096 % 64 + 128)
        :: UInt8.ofNat (n / 64 % 64 + 128) :: UInt8.ofNat (n % 64 + 128) :: rest)
      = Char.ofNat n :: decodeFrom .idle rest := by
  have hcode : ((n / 262144 % 8 * 64 + n / 4096 % 64) * 64 + n / 64 % 64) * 64 + n % 64 = n := by omega
  have hfrom : (if n / 262144 % 8 = 0 then 0x90 else 0x80) ≤ n / 4096 % 64 + 128 := by split <;> omega
  have hto : n / 4096 % 64 + 128 ≤ if n / 262144 % 8 = 4 then 0x8F else 0xBF := by split <;> omega
  rw [decodeFrom, step, begin_four (by omega), List.nil_append, decodeFrom_inner (by omega) hfrom hto,
    decodeFrom_inner (by omega) (by omega) (by omega), decodeFrom_last (by omega) (by omega) (by omega), hcode]

/-! ## (3) Characters and texts -/

/-- The bytes of a character are decoded to it, whatever follows. -/
theorem decodeFrom_char (c : Char) (rest : Bytes) :
    decodeFrom .idle (String.utf8EncodeChar c ++ rest) = c :: decodeFrom .idle rest := by
  obtain ⟨n, hn⟩ : ∃ n, c.val.toNat = n := ⟨_, rfl⟩
  have hscalar : n < 0xD800 ∨ 0xDFFF < n ∧ n < 0x110000 := hn ▸ c.valid
  have hc : c = Char.ofNat n := by rw [← hn]; exact (Char.ofNat_toNat c).symm
  simp only [String.utf8EncodeChar, hn]
  rw [hc]
  split
  · rw [List.singleton_append, decodeFrom, step, begin_one (by omega)]
    rfl
  split
  · exact decodeFrom_two (by omega) (by omega)
  split
  · exact decodeFrom_three (by omega) (by omega) (by omega)
  · exact decodeFrom_four (by omega) (by omega)

theorem decodeChars_encode (cs : List Char) : decodeChars (cs.flatMap String.utf8EncodeChar) = cs := by
  induction cs with
  | nil => rfl
  | cons c cs ih =>
    rw [decodeChars, List.flatMap_cons, decodeFrom_char]
    exact congrArg (c :: ·) ih

/-- Decoding undoes encoding. -/
theorem decode_encode (s : String) : decode (encode s) = s := by
  rw [decode, encode, decodeChars_encode, String.ofList_toList]

end CheckpointRelay.Text.Utf8
