/-
  CheckpointRelay.Log.Logger — records of what happens, and the loggers that show them.

  Code says what happens as `Record`s, at every level. A logger turns records into console
  lines (`Logger.output`): it drops those below its threshold and changes nothing else. The
  first record to be shown at an instant without a date ends the output with a fault. The
  metadata entries `duration`, `correlationId` and `clientId` become context when they have
  the right kind and are dropped otherwise; the rest stays as it is.
-/

import CheckpointRelay.Clock
import CheckpointRelay.Log.Entry
import CheckpointRelay.Log.Level
import CheckpointRelay.Log.Metadata

namespace CheckpointRelay.Log

structure Record where
  time : Clock.Instant
  level : Level
  message : String
  metadata : Metadata
  error : Option Json

/-- A logger without a threshold shows every level. -/
structure Logger where
  threshold : Option Level
  service : String
  component : Option String

/-! ## (1) Errors -/

def errorInfo (name message : String) (stack : Option String) (code : Option Json) : Json :=
  .obj ([("name", .str name), ("message", .str message)]
    ++ (stack.map fun s => ("stack", .str s)).toList
    ++ ((code.bind Fault.codeOf?).bind Json.plain?).toList.map fun s => ("code", .str s))

def faultInfo (f : Fault) : Json := errorInfo f.name f.message f.stack? f.code?

/-- What is logged of anything thrown; nothing for a value without plain text. -/
def thrownInfo? : Thrown → Option Json
  | .error e => some (errorInfo e.name e.message e.stack e.code)
  | .value v => v.plain?.map fun s => errorInfo "Error" s none none

/-! ## (2) Lines -/

def contextKeys : List String := ["duration", "correlationId", "clientId"]

/-- The empty text is no text of a line's head or context. -/
def nonEmpty (s : String) : Option String := if s = "" then none else some s

def textEntry (ms : Metadata) (key : String) : Option String :=
  ((Keyed.get? ms key).bind Datum.text?).bind nonEmpty

def Record.entry (l : Logger) (r : Record) (timestamp : String) : Entry :=
  let rest := Keyed.without r.metadata contextKeys
  { timestamp := some timestamp
    level := r.level.name
    service := nonEmpty l.service
    component := l.component.bind nonEmpty
    message := r.message
    clientId := textEntry r.metadata "clientId"
    correlationId := textEntry r.metadata "correlationId"
    duration := (Keyed.get? r.metadata "duration").bind Datum.numberText?
    error := r.error
    metadata := if rest = [] then none else some (Metadata.render rest) }

/-! ## (3) Output -/

/-- Lines, and the fault that kept the next one from being written. -/
structure Output where
  calls : List Console.Call
  fault : Option Fault

namespace Output

def append (a b : Output) : Output :=
  match a.fault with
  | some _ => a
  | none => ⟨a.calls ++ b.calls, b.fault⟩

def result (o : Output) : Except Fault (List Console.Call) :=
  match o.fault with
  | some f => .error f
  | none => .ok o.calls

end Output

namespace Logger

def serviceName : String := "coordinator-probe"

/-- The logger of one part of the program. -/
def forComponent (component : String) (threshold : Option Level) : Logger :=
  { threshold, service := serviceName, component := some component }

def enables (l : Logger) (level : Level) : Bool :=
  match l.threshold with
  | none => true
  | some t => t.rank ≤ level.rank

def call? (l : Logger) (r : Record) : Option Console.Call :=
  (Clock.stamp? r.time).map fun timestamp => ⟨r.level.channel, (r.entry l timestamp).line⟩

def outputOne (l : Logger) (r : Record) : Output :=
  if l.enables r.level then
    match l.call? r with
    | some call => ⟨[call], none⟩
    | none => ⟨[], some .timeOutOfRange⟩
  else ⟨[], none⟩

def output (l : Logger) : List Record → Output
  | [] => ⟨[], none⟩
  | r :: rs => (l.outputOne r).append (output l rs)

end Logger

end CheckpointRelay.Log
