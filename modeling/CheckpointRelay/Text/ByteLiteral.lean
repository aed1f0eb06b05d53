/-
  CheckpointRelay.Text.ByteLiteral — bytes shown as a literal of printable ASCII.

  The literal is `b'…'`. Tab, line feed, carriage return, quote and backslash have short
  escapes, other printable ASCII stands for itself, and every other byte is `\x` and two
  hexadecimal digits.
-/

import CheckpointRelay.Text.Hex
import CheckpointRelay.Text.Utf8

namespace CheckpointRelay.Text.ByteLiteral

open Utf8 (Bytes)

def escapeByte (b : UInt8) : List Char :=
  if b = 0x09 then ['\\', 't']
  else if b = 0x0A then ['\\', 'n']
  else if b = 0x0D then ['\\', 'r']
  else if b = 0x27 then ['\\', '\'']
  else if b = 0x5C then ['\\', '\\']
  else if 0x20 ≤ b ∧ b < 0x7F then [Char.ofNat b.toNat]
  else ['\\', 'x', hexDigit (b.toNat / 16), hexDigit (b.toNat % 16)]

def chars (bs : Bytes) : List Char := 'b' :: '\'' :: (bs.flatMap escapeByte ++ ['\''])

def format (bs : Bytes) : String := String.ofList (chars bs)

end CheckpointRelay.Text.ByteLiteral
