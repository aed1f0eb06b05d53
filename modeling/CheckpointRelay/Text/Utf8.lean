/-
  CheckpointRelay.Text.Utf8 — text as bytes and bytes as text.

  `encode` is UTF-8. `decode` accepts every byte sequence: it runs a machine that takes one
  byte at a time, and each longest beginning of a character that cannot be finished becomes
  one U+FFFD. A byte order mark is a character like any other and is kept.
-/

namespace CheckpointRelay.Text.Utf8

abbrev Bytes := List UInt8

def encode (s : String) : Bytes := s.toList.flatMap String.utf8EncodeChar

def replacement : Char := Char.ofNat 0xFFFD

/-- Where the machine stands inside a character: how many bytes are missing, the range the
    next one must be in, and the bits read so far. -/
inductive Progress where
  | idle
  | within (missing : Nat) (low high : Nat) (bits : Nat)
  deriving DecidableEq

/-- A byte met between two characters. -/
def begin (b : UInt8) : List Char × Progress :=
  let n := b.toNat
  if n < 0x80 then ([Char.ofNat n], .idle)
  else if n < 0xC2 then ([replacement], .idle)
  else if n < 0xE0 then ([], .within 1 0x80 0xBF (n - 0xC0))
  else if n = 0xE0 then ([], .within 2 0xA0 0xBF 0)
  else if n = 0xED then ([], .within 2 0x80 0x9F 0xD)
  else if n < 0xF0 then ([], .within 2 0x80 0xBF (n - 0xE0))
  else if n = 0xF0 then ([], .within 3 0x90 0xBF 0)
  else if n < 0xF4 then ([], .within 3 0x80 0xBF (n - 0xF0))
  else if n = 0xF4 then ([], .within 3 0x80 0x8F 4)
  else ([replacement], .idle)

def step : Progress → UInt8 → List Char × Progress
  | .idle, b => begin b
  | .within missing low high bits, b =>
    let n := b.toNat
    if low ≤ n ∧ n ≤ high then
      let bits := bits * 64 + (n - 0x80)
      if missing ≤ 1 then ([Char.ofNat bits], .idle) else ([], .within (missing - 1) 0x80 0xBF bits)
    else
      let (out, next) := begin b
      (replacement :: out, next)

/-- What an unfinished character leaves at the end of the bytes. -/
def Progress.flush : Progress → List Char
  | .idle => []
  | .within .. => [replacement]

def decodeFrom (p : Progress) : Bytes → List Char
  | [] => p.flush
  | b :: bs => (step p b).1 ++ decodeFrom (step p b).2 bs

def decodeChars (bs : Bytes) : List Char := decodeFrom .idle bs

def decode (bs : Bytes) : String := String.ofList (decodeChars bs)

end CheckpointRelay.Text.Utf8
