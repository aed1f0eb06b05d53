/-
  CheckpointRelay.Number.Binary64 — the numbers of JSON texts, settings and log lines.

  A value is a double: not a number, an infinity, or `significand * 2 ^ exponent` with a
  sign. Every finite value is kept in one form: `2 ^ 52 ≤ significand < 2 ^ 53`, or
  `significand < 2 ^ 52` at the least exponent. `ofRatio` rounds an exact quotient to the
  nearest such value, a tie to the even significand; all other constructors go through it.
  The tests (`isInteger`, `below`, `above`) are exact comparisons of naturals.
-/

namespace CheckpointRelay.Number

inductive Binary64 where
  | nan
  | infinite (negative : Bool)
  | finite (negative : Bool) (significand : Nat) (exponent : Int)
  deriving DecidableEq

namespace Binary64

def minExponent : Int := -1074
def maxExponent : Int := 971

/-- The least significand of 53 binary digits, `2 ^ 52`. -/
def fullSignificand : Nat := 4503599627370496

/-- The power of a base to a natural exponent; 1 below zero, where the other side of a
    quotient carries the power. -/
def power (base : Nat) (exponent : Int) : Nat := Nat.pow base exponent.toNat

def zero (negative : Bool) : Binary64 := .finite negative 0 minExponent

/-! ## (1) Rounding -/

/-- The quotient `num / den` in units of `2 ^ exponent`. -/
def scaled (num den : Nat) (exponent : Int) : Nat × Nat :=
  (num * power 2 (-exponent), den * power 2 exponent)

/-- The exponent at which the quotient has 53 binary digits, or the least one. -/
def roundingExponent (num den : Nat) : Int :=
  let guess : Int := (num.log2 : Int) - den.log2 - 52
  let (n, d) := scaled num den guess
  max minExponent (if n / d < fullSignificand then guess - 1 else guess)

/-- The nearest natural to `n / d`, a tie to the even one. -/
def nearest (n d : Nat) : Nat :=
  if d < 2 * (n % d) ∨ (2 * (n % d) = d ∧ n / d % 2 = 1) then n / d + 1 else n / d

def pack (negative : Bool) (significand : Nat) (exponent : Int) : Binary64 :=
  if significand = 2 * fullSignificand then
    if maxExponent ≤ exponent then .infinite negative else .finite negative fullSignificand (exponent + 1)
  else if maxExponent < exponent then .infinite negative
  else .finite negative significand exponent

def ofRatio (negative : Bool) (num den : Nat) : Binary64 :=
  if num = 0 then zero negative
  else
    let exponent := roundingExponent num den
    let (n, d) := scaled num den exponent
    pack negative (nearest n d) exponent

def ofNat (n : Nat) : Binary64 := ofRatio false n 1

def ofInt (z : Int) : Binary64 := ofRatio (z < 0) z.natAbs 1

/-- The value nearest to `digits * 10 ^ exponent`; beyond the range of the format no power is
    computed. -/
def ofDecimal (negative : Bool) (digits : Nat) (exponent : Int) : Binary64 :=
  let size : Int := (Nat.toDigits 10 digits).length + exponent
  if digits = 0 ∨ size < -330 then zero negative
  else if 330 < size then .infinite negative
  else ofRatio negative (digits * power 10 exponent) (power 10 (-exponent))

/-! ## (2) Tests -/

def isInteger : Binary64 → Bool
  | .finite _ m e => m % power 2 (-e) == 0
  | _ => false

/-- The comparison `x < n`. -/
def below (n : Nat) : Binary64 → Bool
  | .nan => false
  | .infinite negative => negative
  | .finite true m _ => m != 0 || n != 0
  | .finite false m e => m * power 2 e < n * power 2 (-e)

/-- The comparison `n < x`. -/
def above (n : Nat) : Binary64 → Bool
  | .nan => false
  | .infinite negative => !negative
  | .finite true _ _ => false
  | .finite false m e => n * power 2 (-e) < m * power 2 e

/-- The natural part, sign and fraction dropped; zero for what is not finite. -/
def toNat : Binary64 → Nat
  | .finite _ m e => m * power 2 e / power 2 (-e)
  | _ => 0

end Binary64

end CheckpointRelay.Number
