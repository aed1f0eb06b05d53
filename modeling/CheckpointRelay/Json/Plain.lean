/-
  CheckpointRelay.Json.Plain — a JSON value as plain text in a message.

  Texts stand for themselves and numbers as they are written. An array is its items with
  commas between them, a null item left empty. An object has one fixed text, unless it has
  a member of its own named `toString`: then it has none, and neither has what holds it.
-/

import CheckpointRelay.Json.Basic
import CheckpointRelay.Number.Decimal

namespace CheckpointRelay.Json

mutual

def plainWith? (forNull : String) : Json → Option String
  | .null => some forNull
  | .bool b => some (if b then "true" else "false")
  | .num x => some x.text
  | .str s => some s
  | .arr [] => some ""
  | .arr (x :: xs) => (plainWith? "" x).bind fun s => (plainItems? xs).map (s ++ ·)
  | .obj ms => if Keyed.has ms "toString" then none else some "[object Object]"

/-- The items after the first, a comma before each. -/
def plainItems? : List Json → Option String
  | [] => some ""
  | x :: xs => (plainWith? "" x).bind fun s => (plainItems? xs).map ("," ++ s ++ ·)

end

def plain? (v : Json) : Option String := plainWith? "null" v

end CheckpointRelay.Json
