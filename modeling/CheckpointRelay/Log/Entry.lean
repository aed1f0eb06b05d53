/-
  CheckpointRelay.Log.Entry — one log line.

  A line is `[time | LEVEL | service | component] message`, then the context in brackets if
  there is any, then the JSON of the error and the metadata if there is either. Absent fields
  and a level without a name are left out of the head; a missing component is `unknown`.
-/

import CheckpointRelay.Fault
import CheckpointRelay.Json.Writer
import CheckpointRelay.Text.Case

namespace CheckpointRelay.Log

/-- The metadata are kept as JSON text. -/
structure Entry where
  timestamp : Option String
  level : String
  service : Option String
  component : Option String
  message : String
  clientId : Option String
  correlationId : Option String
  duration : Option String
  error : Option Json
  metadata : Option (List Char)

namespace Entry

def head (e : Entry) : String :=
  let level := [Text.toUpper e.level].filter (· ≠ "")
  Text.join " | " (e.timestamp.toList ++ level ++ e.service.toList ++ [e.component.getD "unknown"])

def context (e : Entry) : List String :=
  (e.clientId.map ("client=" ++ ·)).toList ++ (e.correlationId.map ("corr=" ++ ·)).toList
    ++ (e.duration.map fun d => "duration=" ++ d ++ "ms").toList

/-- The members of the structured end, each one with its name. -/
def tailMembers (e : Entry) : List (List Char) :=
  (e.error.map fun v => Json.quote "error" ++ ':' :: v.render).toList
    ++ (e.metadata.map fun m => Json.quote "meta" ++ ':' :: m).toList

/-- The structured end of the line, when there is an error or metadata. -/
def tail? (e : Entry) : Option (List Char) :=
  match e.tailMembers with
  | [] => none
  | members => some ('{' :: ([','].intercalate members ++ ['}']))

def line (e : Entry) : String :=
  let context := if e.context = [] then "" else " [" ++ Text.join ", " e.context ++ "]"
  let tail := match e.tail? with
    | some cs => " " ++ String.ofList cs
    | none => ""
  "[" ++ e.head ++ "] " ++ e.message ++ context ++ tail

/-! ## Entries given as JSON -/

/-- A value that counts as absent in an entry. -/
def isVoid : Json → Bool
  | .null => true
  | .bool b => !b
  | .num (.finite _ m _) => m == 0
  | .num .nan => true
  | .num (.infinite _) => false
  | .str s => s == ""
  | .arr _ => false
  | .obj _ => false

/-- A field that is not void. -/
def present (v : Json) (key : String) : Option Json := (v.field? key).filter fun f => !isVoid f

def optionalText (field : Option Json) : Except Fault (Option String) := field.mapM Fault.plainText

/-- Only a text is a level, and every entry has one. -/
def levelText (v : Json) : Except Fault String :=
  match v.field? "level" with
  | some (.str s) => .ok s
  | some .null => .error (.memberOfNull "toUpperCase")
  | some _ => .error (.notCallable "entry.level.toUpperCase")
  | none => .error (.memberOfNothing "toUpperCase")

/-- A duration is written whatever it is; the other optional fields only when not void. -/
def ofMembers (v : Json) : Except Fault Entry := do
  let level ← levelText v
  return {
    timestamp := ← optionalText (present v "timestamp")
    level
    service := ← optionalText (present v "service")
    component := ← optionalText (present v "component")
    message := ← Fault.memberText v "message"
    clientId := ← optionalText (present v "clientId")
    correlationId := ← optionalText (present v "correlationId")
    duration := ← optionalText (v.field? "duration")
    error := present v "error"
    metadata := (present v "metadata").map Json.render }

def ofJson : Json → Except Fault Entry
  | .null => .error (.memberOfNull "timestamp")
  | v => ofMembers v

end Entry

end CheckpointRelay.Log
