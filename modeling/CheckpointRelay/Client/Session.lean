/-
  CheckpointRelay.Client.Session — the sends of one client, one after the other.

  A send either refuses its envelope or makes one exchange. Its `Delivery` is known when its
  script is over: pending, done (a response or a fault), or broken, when not even a fault
  could be made of what went wrong. The session keeps the clock and the undecided exchanges
  whose timers are live. A `Turn` is what a send does and says, and `Turn.shown` what comes of it
  with a logger: a line that cannot be written breaks the delivery. Before the connection it
  keeps the connection from being made. While the script runs it leaves a listener as an
  exception, and the program ends with what was done so far. Afterwards all is done already.
-/

import CheckpointRelay.Client.Exchange
import CheckpointRelay.Envelope.Wire
import CheckpointRelay.Reply

namespace CheckpointRelay.Client

open Text.Utf8 (Bytes)

structure Response where
  raw : Bytes
  reply : Reply
  bytesSent : Nat
  deriving DecidableEq

inductive Delivery where
  | pending
  | done (result : Except Fault Response)
  | broken (fault : Fault)

/-- What is said of one settled exchange, once the script in which it settled is over. -/
structure Closing where
  own : Bool
  records : List Log.Record

/-- What a send says before it connects, does and says while its script runs, and says of what
    was settled. -/
structure Turn where
  delivery : Delivery
  opening : List Log.Record
  deeds : List Deed
  closings : List Closing

/-- A turn with its lines. A `crash` is an exception that left a listener: the send is broken, and
    the program has ended with it. -/
structure Shown where
  delivery : Delivery
  trace : List Action
  console : List Console.Call
  crash : Option Fault

structure Session where
  now : Clock.Instant
  waiting : List Attempt

def Session.start (now : Clock.Instant) : Session := ⟨now, []⟩

/-! ## (1) Records -/

namespace Attempt

def context (a : Attempt) : Log.Metadata := (a.clientId.map fun id => ("clientId", .json (.str id))).toList

def timer (a : Attempt) : Log.Timer := ⟨"exchange", a.startedAt, a.context, Log.Timer.fixedCorrelation⟩

def openingRecords (c : Config) (a : Attempt) : List Log.Record :=
  [⟨a.startedAt, .info, "Connecting to " ++ c.address, a.context, none⟩, a.timer.startRecord]

def outcomeRecord (c : Config) (a : Attempt) (now : Clock.Instant) : Outcome → Log.Record
  | .error f => ⟨now, .error, "Exchange with " ++ c.address ++ " failed", a.context, some (Log.faultInfo f)⟩
  | .ok raw =>
    let reply := Reply.classify raw
    ⟨now, .info, "Server responded with: " ++ reply.text,
      Keyed.put a.context "kind" (.json (.str reply.kind.name)), none⟩

end Attempt

def Settled.closing (c : Config) (now : Clock.Instant) (s : Settled) : Closing :=
  ⟨s.own, [s.attempt.timer.stopRecord now, s.attempt.outcomeRecord c now s.outcome]⟩

def Response.of (payload raw : Bytes) : Response := ⟨raw, Reply.classify raw, payload.length⟩

/-! ## (2) Sends -/

namespace Session

def openingActions (c : Config) : List Action :=
  .connect c.host c.port :: (if c.timeoutMs = 0 then [] else [.timer c.timeoutMs])

/-- The exchanges that a later script may still settle. -/
def remaining (s : State) : List Attempt :=
  s.waiting ++ (if s.outcome.isNone && s.current.timed then [s.current] else [])

def sendRaw (c : Config) (s : Session) (payload : Bytes) (clientId : Option String) (script : Script) :
    Session × Turn :=
  let attempt := Attempt.start c clientId payload s.now
  let opening := attempt.openingRecords c
  match script with
  | .refused error =>
    let deeds := [.act (.connect c.host c.port)]
    match Fault.ofThrown? error with
    | none => (s, ⟨.broken .noPlainText, opening, deeds, []⟩)
    | some f =>
      let closing := Settled.closing c s.now ⟨attempt, .error f, true⟩
      (s, ⟨.done (.error f), opening, deeds, [closing]⟩)
  | .events es =>
    let (state, deeds) := State.run c ⟨s.now, s.waiting, attempt, none, []⟩ es
    let delivery := match state.outcome with
      | none => .pending
      | some o => .done (o.map (Response.of payload))
    (⟨state.now, remaining state⟩,
      { delivery
        opening
        deeds := (openingActions c).map .act ++ deeds
        closings := state.finished.map (Settled.closing c state.now) })

def refusalRecord (s : Session) (v : Json) (f : Fault) : Log.Record :=
  ⟨s.now, .error, "Refusing to send invalid envelope",
    ((v.field? "id").map fun id => ("clientId", .json id)).toList, some (Log.faultInfo f)⟩

/-- The id in whose name an envelope is sent. -/
def senderId (v : Json) : Option String :=
  match v.field? "id" with
  | some (.str s) => some s
  | _ => none

def send (c : Config) (s : Session) (v : Json) (script : Script) : Session × Turn :=
  match Envelope.serialize v with
  | .ok payload => sendRaw c s payload (senderId v) script
  | .error f =>
    match v with
    | .null => (s, ⟨.broken (.memberOfNull "id"), [], [], []⟩)
    | v => (s, ⟨.done (.error f), [s.refusalRecord v f], [], []⟩)

end Session

/-! ## (3) Showing -/

/-- What was done and what was said of it, up to the deed that failed. -/
structure Course where
  trace : List Action
  output : Log.Output

/-- Deeds as they come, with a logger that shows their lines. -/
def Deed.course (l : Log.Logger) : List Deed → Course
  | [] => ⟨[], ⟨[], none⟩⟩
  | .act a :: ds =>
    let rest := course l ds
    ⟨a :: rest.trace, rest.output⟩
  | .say r :: ds =>
    let said := l.outputOne r
    match said.fault with
    | some _ => ⟨[], said⟩
    | none =>
      let rest := course l ds
      ⟨rest.trace, said.append rest.output⟩
  | .raise f :: _ => ⟨[], ⟨[], some f⟩⟩

namespace Turn

/-- The lines of all closings. A closing that cannot be shown stops short, and only the send's
    own breaks the delivery. -/
def shownClosings (l : Log.Logger) : List Closing → Log.Output
  | [] => ⟨[], none⟩
  | c :: cs =>
    let shown := l.output c.records
    let rest := shownClosings l cs
    ⟨shown.calls ++ rest.calls, if c.own then shown.fault else rest.fault⟩

def shown (l : Log.Logger) (t : Turn) : Shown :=
  let opening := l.output t.opening
  match opening.fault with
  | some f => ⟨.broken f, [], opening.calls, none⟩
  | none =>
    let course := Deed.course l t.deeds
    match course.output.fault with
    | some f => ⟨.broken f, course.trace, opening.calls ++ course.output.calls, some f⟩
    | none =>
      let closing := shownClosings l t.closings
      let delivery := match closing.fault with
        | some f => .broken f
        | none => t.delivery
      ⟨delivery, course.trace, opening.calls ++ course.output.calls ++ closing.calls, none⟩

end Turn

/-- The session after a send that is shown: a send that breaks before it connects leaves it as it
    was, for the script was that of the connection. -/
def Session.showing (l : Log.Logger) (s : Session) (sent : Session × Turn) : Session × Shown :=
  let session := match (l.output sent.2.opening).fault with
    | some _ => s
    | none => sent.1
  (session, sent.2.shown l)

end CheckpointRelay.Client
