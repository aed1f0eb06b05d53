/-
  CheckpointRelay.Number.Decimal — the text of a number.

  A finite value is written with the fewest decimal digits that read back as it, the nearest
  such digits, a tie to the even last digit (`shortest`). `layout` places the point: plain
  notation for values from `1e-6` up to below `1e21`, otherwise one digit before the point
  and a signed exponent. Both zeros are `0`.
-/

import CheckpointRelay.Number.Binary64

namespace CheckpointRelay.Number.Binary64

/-! ## (1) The fewest digits -/

def digitCount (n : Nat) : Nat := (Nat.toDigits 10 n).length

/-- The decimal exponent of the leading digit of `m * 2 ^ e`, for `m ≠ 0`. -/
def leading (m : Nat) (e : Int) : Int :=
  let num := m * power 2 e
  let den := power 2 (-e)
  if den ≤ num then (digitCount (num / den) : Int) - 1
  else -(digitCount ((den + num - 1) / num - 1) : Int)

/-- Four times the value and the two ends of the interval that rounds to it, and the decimal
    candidate `d * 10 ^ j`, all in one unit. -/
structure Gauge where
  value : Nat
  low : Nat
  high : Nat
  candidate : Nat

def gauge (m : Nat) (e : Int) (d : Nat) (j : Int) : Gauge :=
  let unit := power 2 (e - 2) * power 10 (-j)
  let low := if m = fullSignificand ∧ minExponent < e then 4 * m - 1 else 4 * m - 2
  { value := 4 * m * unit
    low := low * unit
    high := (4 * m + 2) * unit
    candidate := d * power 10 j * power 2 (2 - e) }

/-- The ends belong to the interval exactly for an even significand. -/
def readsBack (m : Nat) (g : Gauge) : Bool :=
  if m % 2 = 0 then g.low ≤ g.candidate && g.candidate ≤ g.high
  else g.low < g.candidate && g.candidate < g.high

def Gauge.distance (g : Gauge) : Nat := (g.value - g.candidate) + (g.candidate - g.value)

/-- The digits of `m * 2 ^ e` on the grid of step `10 ^ j`, if one of the two neighbours of
    the value on that grid reads back. -/
def onGrid (m : Nat) (e : Int) (j : Int) : Option Nat :=
  let d := m * power 2 e * power 10 (-j) / (power 2 (-e) * power 10 j)
  let below := gauge m e d j
  let above := gauge m e (d + 1) j
  match readsBack m below, readsBack m above with
  | true, true =>
    if below.distance < above.distance then some d
    else if above.distance < below.distance then some (d + 1)
    else if d % 2 = 0 then some d else some (d + 1)
  | true, false => some d
  | false, true => some (d + 1)
  | false, false => none

/-- Digits and the exponent of the last one. -/
def shortest (m : Nat) (e : Int) : Nat × Int :=
  let top := leading m e
  ((List.range 17).findSome? fun (k : Nat) => (onGrid m e (top - k)).map fun d => (d, top - k)).getD (m, e)

/-! ## (2) The layout -/

def stripZeros (digits : List Char) : List Char := (digits.reverse.dropWhile (· == '0')).reverse

/-- The text of `0.digits * 10 ^ point`. -/
def layout (digits : List Char) (point : Int) : List Char :=
  let size : Int := digits.length
  if size ≤ point ∧ point ≤ 21 then digits ++ List.replicate (point - size).toNat '0'
  else if 0 < point ∧ point ≤ 21 then digits.take point.toNat ++ '.' :: digits.drop point.toNat
  else if -6 < point ∧ point ≤ 0 then '0' :: '.' :: (List.replicate (-point).toNat '0' ++ digits)
  else
    let power := point - 1
    let mark := if power < 0 then '-' else '+'
    let mantissa := match digits with
      | [] => []
      | [d] => [d]
      | d :: ds => d :: '.' :: ds
    mantissa ++ 'e' :: mark :: Nat.toDigits 10 power.natAbs

def finiteChars (m : Nat) (e : Int) : List Char :=
  let (d, j) := shortest m e
  let digits := Nat.toDigits 10 d
  layout (stripZeros digits) (digits.length + j)

def text : Binary64 → String
  | .nan => "NaN"
  | .infinite negative => if negative then "-Infinity" else "Infinity"
  | .finite negative m e =>
    if m = 0 then "0"
    else String.ofList ((if negative then ['-'] else []) ++ finiteChars m e)

end CheckpointRelay.Number.Binary64
