/-
  CheckpointRelay.Text.Quoted — a text as a quoted word of a message.

  The quotes are single; a text with single quotes and no double ones gets double quotes, one
  with both gets back quotes if it has neither these nor a dollar sign before an opening
  brace. Control characters, backslashes and the quote in use are escaped. A text too long
  for a line is quoted line by line, and what is then too long for a message is cut. Of a
  text that is longer still the end is not even looked at: it has no say in the quotes.
  Lengths are in UTF-16 units.
-/

import CheckpointRelay.Text.Units
import CheckpointRelay.Text.Utf8

namespace CheckpointRelay.Text.Quoted

def longestText : Nat := 10000
def longestLine : Nat := 76
def longestQuoted : Nat := 128

/-! ## (1) One quoted word -/

/-- Some dollar sign has an opening brace behind it. -/
def opensTemplate : List Char → Bool
  | [] => false
  | c :: cs => (c == '$' && cs.head? == some '{') || opensTemplate cs

def mark (cs : List Char) : Char :=
  let back := Char.ofNat 0x60
  if !cs.contains '\'' then '\''
  else if !cs.contains '"' then '"'
  else if !cs.contains back && !opensTemplate cs then back
  else '\''

def upperHexDigit (n : Nat) : Char := Char.ofNat (if n < 10 then '0'.toNat + n else 'A'.toNat + (n - 10))

def escapeChar (quote c : Char) : List Char :=
  let n := c.toNat
  if c = quote ∨ c = '\\' then ['\\', c]
  else if n = 0x08 then ['\\', 'b']
  else if n = 0x09 then ['\\', 't']
  else if n = 0x0A then ['\\', 'n']
  else if n = 0x0C then ['\\', 'f']
  else if n = 0x0D then ['\\', 'r']
  else if n < 0x20 ∨ (0x7F ≤ n ∧ n < 0xA0) then ['\\', 'x', upperHexDigit (n / 16), upperHexDigit (n % 16)]
  else [c]

def chars (cs : List Char) : List Char :=
  let quote := mark cs
  quote :: (cs.flatMap (escapeChar quote) ++ [quote])

/-! ## (2) Long texts -/

/-- The lines of a text, each with the newline that ends it. -/
def lines : List Char → List (List Char)
  | [] => []
  | c :: cs =>
    if c = '\n' then [c] :: lines cs
    else match lines cs with
      | [] => [[c]]
      | line :: rest => (c :: line) :: rest

/-- The first units of a text. Half of a pair is no character and becomes U+FFFD. -/
def takeUnits (room : Nat) : List Char → List Char
  | [] => []
  | c :: cs =>
    if widthOf c ≤ room then c :: takeUnits (room - widthOf c) cs
    else if room = 0 then [] else [Utf8.replacement]

def layout (cs : List Char) : List Char :=
  if longestLine < width cs then [' ', '+', '\n', ' ', ' '].intercalate ((lines cs).map chars) else chars cs

/-- A text longer than `longestText` is cut twice, and the second cut hides the first. -/
def format (s : String) : String :=
  let cs := layout (takeUnits longestText s.toList)
  if longestQuoted < width cs then String.ofList (takeUnits longestQuoted cs) ++ "..." else String.ofList cs

end CheckpointRelay.Text.Quoted
