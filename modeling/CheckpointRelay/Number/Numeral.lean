/-
  CheckpointRelay.Number.Numeral — reading a number from text.

  `decimal?` reads an unsigned decimal: digits with at most one point and at least one digit,
  then an optional exponent. `read` is the reading of settings and flags: padding is dropped,
  the empty text is zero, a sign may stand before a decimal or `Infinity`, and `0x`, `0o`,
  `0b` (either case, no sign) introduce the other bases. Anything else is not a number.
-/

import CheckpointRelay.Number.Binary64
import CheckpointRelay.Text.Blank

namespace CheckpointRelay.Number.Numeral

def isDigit (c : Char) : Bool := '0' ≤ c && c ≤ '9'

def digitValue (c : Char) : Nat := c.toNat - '0'.toNat

/-- The natural that decimal digits denote; none denote zero. -/
def natOfDigits (cs : List Char) : Nat := cs.foldl (fun n c => n * 10 + digitValue c) 0

/-- The signed exponent after the letter, to the end of the text. -/
def exponent? (cs : List Char) : Option Int :=
  let digits? (cs : List Char) : Option Int :=
    if cs ≠ [] ∧ cs.all isDigit then some (natOfDigits cs) else none
  match cs with
  | '+' :: cs => digits? cs
  | '-' :: cs => (digits? cs).map fun n => -n
  | cs => digits? cs

def tail? : List Char → Option Int
  | [] => some 0
  | c :: cs => if c = 'e' ∨ c = 'E' then exponent? cs else none

def decimal? (negative : Bool) (cs : List Char) : Option Binary64 :=
  let whole := cs.takeWhile isDigit
  let rest := cs.dropWhile isDigit
  let (fraction, rest) := match rest with
    | '.' :: cs => (cs.takeWhile isDigit, cs.dropWhile isDigit)
    | cs => ([], cs)
  if whole = [] ∧ fraction = [] then none
  else (tail? rest).map fun power =>
    Binary64.ofDecimal negative (natOfDigits (whole ++ fraction)) (power - fraction.length)

def letterValue? (c : Char) : Option Nat :=
  if isDigit c then some (digitValue c)
  else if 'a' ≤ c ∧ c ≤ 'f' then some (c.toNat - 'a'.toNat + 10)
  else if 'A' ≤ c ∧ c ≤ 'F' then some (c.toNat - 'A'.toNat + 10)
  else none

/-- Digits of one of the bases up to sixteen; `none` when a character is no digit of it. -/
def natOfBase? (base : Nat) (cs : List Char) : Option Nat :=
  if cs = [] then none
  else cs.foldlM (fun n c => (letterValue? c).bind fun v => if v < base then some (n * base + v) else none) 0

def signed? (negative : Bool) (cs : List Char) : Option Binary64 :=
  if cs = "Infinity".toList then some (.infinite negative) else decimal? negative cs

def unpadded? : List Char → Option Binary64
  | [] => some (.zero false)
  | '+' :: cs => signed? false cs
  | '-' :: cs => signed? true cs
  | '0' :: c :: cs =>
    if c = 'x' ∨ c = 'X' then (natOfBase? 16 cs).map .ofNat
    else if c = 'o' ∨ c = 'O' then (natOfBase? 8 cs).map .ofNat
    else if c = 'b' ∨ c = 'B' then (natOfBase? 2 cs).map .ofNat
    else signed? false ('0' :: c :: cs)
  | cs => signed? false cs

def read (s : String) : Binary64 := (unpadded? (Text.trimChars s.toList)).getD .nan

end CheckpointRelay.Number.Numeral
