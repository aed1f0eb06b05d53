/-
  CheckpointRelay.Log.Timer — measuring operations in the log.

  A timer keeps the instant and the metadata of its start, and a correlation that is drawn for it
  then. Each stop writes one line with the time since the start; a timer may be stopped more than
  once. `Session.step` runs the calls of one caller (log lines, starts, stops and the passing of
  time), and `Session.play` shows them as they come.
-/

import CheckpointRelay.Log.Logger

namespace CheckpointRelay.Log

structure Timer where
  operation : String
  startedAt : Clock.Instant
  metadata : Metadata
  correlation : String

namespace Timer

/-- What is drawn where nothing is left to chance. -/
def fixedCorrelation : String := "i"

def startRecord (t : Timer) : Record :=
  { time := t.startedAt
    level := .debug
    message := "Starting operation: " ++ t.operation
    metadata := Keyed.put t.metadata "correlationId" (.json (.str t.correlation))
    error := none }

def stopRecord (t : Timer) (now : Clock.Instant) : Record :=
  { time := now
    level := .debug
    message := "Completed operation: " ++ t.operation
    metadata := Keyed.put (Keyed.put t.metadata "correlationId" (.json (.str t.correlation))) "duration"
      (.json (.ofInt (now - t.startedAt)))
    error := none }

end Timer

inductive Step where
  | say (level : Level) (message : String) (metadata : Metadata)
  | fail (message : String) (error : Option Thrown) (metadata : Metadata)
  | start (operation : String) (metadata : Metadata)
  | stop (timer : Nat)
  | advance (ms : Int)

/-- Timers are numbered in the order of their starts; `correlations` are what is drawn for each. -/
structure Session where
  now : Clock.Instant
  timers : List Timer
  correlations : Nat → String

namespace Session

def start (now : Clock.Instant) : Session := ⟨now, [], fun _ => Timer.fixedCorrelation⟩

def step (s : Session) : Step → Except Fault (Session × List Record)
  | .say level message metadata => .ok (s, [⟨s.now, level, message, metadata, none⟩])
  | .fail message none metadata => .ok (s, [⟨s.now, .error, message, metadata, none⟩])
  | .fail message (some error) metadata =>
    match thrownInfo? error with
    | some info => .ok (s, [⟨s.now, .error, message, metadata, some info⟩])
    | none => .error .noPlainText
  | .start operation metadata =>
    let t : Timer := ⟨operation, s.now, metadata, s.correlations s.timers.length⟩
    .ok ({ s with timers := s.timers ++ [t] }, [t.startRecord])
  | .stop n => .ok (s, (s.timers[n]?.map fun t => t.stopRecord s.now).toList)
  | .advance ms => .ok ({ s with now := s.now + ms }, [])

/-- The lines of each step; a step that fails, or a line that cannot be written, is the end. -/
def play (l : Logger) (s : Session) : List Step → Except Fault (List (List Console.Call))
  | [] => .ok []
  | e :: es => do
    let (s, rs) ← s.step e
    let calls ← (l.output rs).result
    return calls :: (← play l s es)

end Session

end CheckpointRelay.Log
