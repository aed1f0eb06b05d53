/-
  CheckpointRelay.Text.Units — a text in the units of UTF-16.

  A character above U+FFFF is two units, a high and a low half; every other one is a unit of
  its own. `units` takes a text apart and `joinUnits` makes characters of units: a half
  without the other one next to it is no character and becomes U+FFFD, and the whole code of
  a character above U+FFFF is taken as well. `width` counts.
-/

import CheckpointRelay.Text.Utf8

namespace CheckpointRelay.Text

def isHigh (unit : Nat) : Bool := 0xD800 ≤ unit && unit < 0xDC00

def isLow (unit : Nat) : Bool := 0xDC00 ≤ unit && unit < 0xE000

def isHalf (unit : Nat) : Bool := isHigh unit || isLow unit

def unitsOf (c : Char) : List Nat :=
  let n := c.toNat
  if n < 0x10000 then [n] else [0xD800 + (n - 0x10000) / 0x400, 0xDC00 + (n - 0x10000) % 0x400]

def units (s : String) : List Nat := s.toList.flatMap unitsOf

def ofUnit (unit : Nat) : Char := if isHalf unit then Utf8.replacement else Char.ofNat unit

def joinUnits : List Nat → List Char
  | [] => []
  | [a] => [ofUnit a]
  | a :: b :: rest =>
    if isHigh a && isLow b then
      Char.ofNat (0x10000 + (a - 0xD800) * 0x400 + (b - 0xDC00)) :: joinUnits rest
    else ofUnit a :: joinUnits (b :: rest)

def widthOf (c : Char) : Nat := if c.toNat < 0x10000 then 1 else 2

def width : List Char → Nat
  | [] => 0
  | c :: cs => widthOf c + width cs

end CheckpointRelay.Text
