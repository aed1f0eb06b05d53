/-
  CheckpointRelay.Text.Blank — the characters that count as padding, and trimming.

  Names, addresses and replies are compared after their padding is taken off. Padding is the
  set of `isBlank`: the five ASCII control blanks, the space, the Unicode space separators,
  the two line separators and the byte order mark. The next-line control (U+0085), the
  Mongolian vowel separator (U+180E) and the zero width space (U+200B) are not padding.
-/

namespace CheckpointRelay.Text

def isBlank (c : Char) : Bool :=
  let n := c.toNat
  (0x09 ≤ n && n ≤ 0x0D) || n == 0x20 || n == 0xA0 || n == 0x1680 || (0x2000 ≤ n && n ≤ 0x200A)
    || n == 0x2028 || n == 0x2029 || n == 0x202F || n == 0x205F || n == 0x3000 || n == 0xFEFF

def trimStartChars (cs : List Char) : List Char := cs.dropWhile isBlank

def trimEndChars (cs : List Char) : List Char := (cs.reverse.dropWhile isBlank).reverse

def trimChars (cs : List Char) : List Char := trimEndChars (trimStartChars cs)

def trim (s : String) : String := String.ofList (trimChars s.toList)

/-- A text of padding only; the empty text is one. -/
def allBlank (s : String) : Bool := s.toList.all isBlank

end CheckpointRelay.Text
