/-
  CheckpointRelay.Json.Basic — JSON values.

  The members of an object are a `Keyed` list, so they have the order of `Keyed.put`.
  `shape` is the kind of value that messages speak of; it tells what is not a number from
  the numbers.
-/

import CheckpointRelay.Json.Keyed
import CheckpointRelay.Number.Binary64

namespace CheckpointRelay

open Number (Binary64)

inductive Json where
  | null
  | bool (b : Bool)
  | num (x : Binary64)
  | str (s : String)
  | arr (items : List Json)
  | obj (members : List (String × Json))

namespace Json

def ofNat (n : Nat) : Json := .num (.ofNat n)

def ofInt (z : Int) : Json := .num (.ofInt z)

def ofStrings (xs : List String) : Json := .arr (xs.map .str)

/-- The value under a key of an object; other values have no members. -/
def field? (key : String) : Json → Option Json
  | .obj ms => Keyed.get? ms key
  | _ => none

/-- Arrays and objects. -/
def isContainer : Json → Bool
  | .arr _ => true
  | .obj _ => true
  | _ => false

inductive Shape where
  | null | boolean | number | nan | string | array | object
  deriving DecidableEq

def shape : Json → Shape
  | .null => .null
  | .bool _ => .boolean
  | .num .nan => .nan
  | .num _ => .number
  | .str _ => .string
  | .arr _ => .array
  | .obj _ => .object

def Shape.name : Shape → String
  | .null => "null"
  | .boolean => "boolean"
  | .number => "number"
  | .nan => "nan"
  | .string => "string"
  | .array => "array"
  | .object => "object"

end Json

end CheckpointRelay
