/-
  CheckpointRelay.Client.Exchange — one exchange with the coordinator, event by event.

  An exchange connects, writes its payload whenever the connection is reported, and is decided
  by the first event that settles it: data (the reply, cut to the largest size), an error, the
  end or the close of the connection (an empty reply), or the timeout. Deciding releases the
  timer and the connection; later events decide nothing. Timers of earlier exchanges that are
  still undecided (`waiting`) live on and may run out in the middle of this one: each then
  settles its own exchange only. What the listeners of a connection do is a list of `Deed`s in
  their order: actions, lines for the log, and exceptions, which nothing catches.
-/

import CheckpointRelay.Client.Config
import CheckpointRelay.Log.Timer
import CheckpointRelay.Text.Utf8

namespace CheckpointRelay.Client

open Text.Utf8 (Bytes)

inductive Event where
  | connected
  | data (chunk : Bytes)
  | failed (error : Thrown)
  | ended
  | closed
  | advance (ms : Int)

/-- What a connection does: it is refused at once, or it reports events. -/
inductive Script where
  | refused (error : Thrown)
  | events (es : List Event)

inductive Action where
  | connect (host : String) (port : Nat)
  | timer (ms : Nat)
  | write (payload : Bytes)
  | clearTimer
  | destroy
  deriving DecidableEq

/-- What a listener does. An exception that is raised leaves it, and the connection as well. -/
inductive Deed where
  | act (action : Action)
  | say (record : Log.Record)
  | raise (fault : Fault)

/-- The bytes of the reply, or why there is none. -/
abbrev Outcome := Except Fault Bytes

/-! ## (1) State -/

/-- An exchange under way; `dueAt` is the instant at which its timer runs out. -/
structure Attempt where
  clientId : Option String
  payload : Bytes
  startedAt : Clock.Instant
  dueAt : Option Clock.Instant

namespace Attempt

def start (c : Config) (clientId : Option String) (payload : Bytes) (now : Clock.Instant) : Attempt where
  clientId
  payload
  startedAt := now
  dueAt := if c.timeoutMs = 0 then none else some (now + c.timeoutMs)

def timed (a : Attempt) : Bool := a.dueAt.isSome

def due (a : Attempt) (now : Clock.Instant) : Bool :=
  match a.dueAt with
  | some t => t ≤ now
  | none => false

/-- Everything an exchange holds is given back. -/
def release (a : Attempt) : List Action := (if a.timed then [.clearTimer] else []) ++ [.destroy]

end Attempt

/-- An exchange that is settled; `own` marks the one that the script was made for. -/
structure Settled where
  attempt : Attempt
  outcome : Outcome
  own : Bool

structure State where
  now : Clock.Instant
  waiting : List Attempt
  current : Attempt
  outcome : Option Outcome
  /-- The exchanges settled so far, in the order of settling. -/
  finished : List Settled

/-! ## (2) Steps -/

namespace State

def settle (s : State) (o : Outcome) : State × List Deed :=
  match s.outcome with
  | some _ => (s, [])
  | none =>
    let finished := s.finished ++ [⟨s.current, o, true⟩]
    ({ s with outcome := some o, finished }, s.current.release.map .act)

def timedOut (c : Config) : Outcome := .error (.timeout (.ofNat c.timeoutMs) c.address)

/-- Time passes: the timers of earlier exchanges run out first, in the order of their start. -/
def pass (c : Config) (s : State) (ms : Int) : State × List Deed :=
  let now := s.now + ms
  let late := s.waiting.filter (·.due now)
  let s : State :=
    { s with
      now
      waiting := s.waiting.filter fun a => !a.due now
      finished := s.finished ++ late.map fun a => ⟨a, timedOut c, false⟩ }
  let (s, own) := if s.current.due now then s.settle (timedOut c) else (s, [])
  (s, (late.flatMap Attempt.release).map .act ++ own)

def connectedRecord (c : Config) (now : Clock.Instant) : Log.Record :=
  ⟨now, .debug, "Connected to " ++ c.address, [], none⟩

/-- One event. The line of a connection comes before the write, and an error that cannot be
    taken for one of the connection settles nothing. -/
def step (c : Config) (s : State) : Event → State × List Deed
  | .connected => (s, [.say (connectedRecord c s.now), .act (.write s.current.payload)])
  | .data chunk => s.settle (.ok (chunk.take c.maxResponseBytes))
  | .failed error =>
    match Fault.ofSocket c.address error with
    | .ok f => s.settle (.error f)
    | .error f => (s, [.raise f])
  | .ended => s.settle (.ok [])
  | .closed => s.settle (.ok [])
  | .advance ms => s.pass c ms

def run (c : Config) (s : State) : List Event → State × List Deed
  | [] => (s, [])
  | e :: es =>
    let (s, first) := s.step c e
    let (s, rest) := run c s es
    (s, first ++ rest)

end State

end CheckpointRelay.Client
