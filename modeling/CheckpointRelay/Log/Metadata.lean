/-
  CheckpointRelay.Log.Metadata — what a log line carries besides its message.

  Metadata are entries by key. Of a JSON value (`ofJson`) they are its members, or its items
  by index, or, for a text, its UTF-16 units by index; other values have none. A unit that is
  half of a pair has no character: it is kept as it is and written as an escape.
-/

import CheckpointRelay.Json.Writer
import CheckpointRelay.Text.Units

namespace CheckpointRelay.Log

inductive Datum where
  | json (v : Json)
  /-- A text of one unit that is half of a pair. -/
  | half (unit : Nat)

abbrev Metadata := Keyed Datum

namespace Datum

def ofUnit (unit : Nat) : Datum :=
  if Text.isHalf unit then .half unit else .json (.str (String.singleton (Char.ofNat unit)))

def render : Datum → List Char
  | .json v => v.render
  | .half unit => ['"', '\\', 'u'] ++ Text.hexDigits 4 unit ++ ['"']

/-- The text of an entry that is one. -/
def text? : Datum → Option String
  | .json (.str s) => some s
  | _ => none

/-- The text of an entry that is a number. -/
def numberText? : Datum → Option String
  | .json (.num x) => some x.text
  | _ => none

end Datum

namespace Metadata

def ofMembers (ms : Keyed Json) : Metadata := ms.map fun m => (m.1, .json m.2)

def ofItems (items : List Datum) : Metadata := items.zipIdx.map fun p => (toString p.2, p.1)

def ofJson : Json → Metadata
  | .obj ms => ofMembers ms
  | .arr items => ofItems (items.map .json)
  | .str s => ofItems ((Text.units s).map .ofUnit)
  | _ => []

def renderEntry (m : String × Datum) : List Char := Json.quote m.1 ++ ':' :: m.2.render

/-- The JSON text of an object with these entries. -/
def render (ms : Metadata) : List Char := '{' :: ([','].intercalate (ms.map renderEntry) ++ ['}'])

end Metadata

end CheckpointRelay.Log
