/-
  CheckpointRelay.Proofs.Log.Lines — the parts of a line, and the calls that write one.

  The line of a record is a lead and, when there is an error or metadata are left over, a tail
  behind a blank. The lead is free text: the head in brackets, the message, and the parts of the
  context in brackets. A caller makes one call after the other and goes on when one of them fails
  (`Session.outcomes`); what is played is what comes of its calls, up to the first that fails.
  - `line_eq`: the line of a record, from its parts.
  - `output_single`: what a logger makes of one record that it shows.
  - `outcomes_append`: calls behind others.
  - `play_eq`: what is played.
-/

import CheckpointRelay.Proofs.Client.Showing
import CheckpointRelay.Proofs.Log.Thresholds

namespace CheckpointRelay.Log

/-! ## (1) The lead -/

def Level.capitals : Level → String
  | .debug => "DEBUG"
  | .info => "INFO"
  | .warn => "WARN"
  | .error => "ERROR"

/-- What stands in the first brackets. -/
def Logger.head (l : Logger) (level : Level) (time : Clock.Instant) : String :=
  Text.join " | " ([Clock.stamp time, level.capitals] ++ (nonEmpty l.service).toList
    ++ [(l.component.bind nonEmpty).getD "unknown"])

/-- Parts in brackets behind the message, if there are any. -/
def bracketed : List String → String
  | [] => ""
  | part :: parts => " [" ++ Text.join ", " (part :: parts) ++ "]"

namespace Record

variable (l : Logger) (r : Record)

def context : List String :=
  ((textEntry r.metadata "clientId").map ("client=" ++ ·)).toList
    ++ ((textEntry r.metadata "correlationId").map ("corr=" ++ ·)).toList
    ++ (((Keyed.get? r.metadata "duration").bind Datum.numberText?).map fun d => "duration=" ++ d ++ "ms").toList

def lead : String := "[" ++ l.head r.level r.time ++ "] " ++ r.message ++ bracketed r.context

/-! ## (2) The tail -/

/-- The metadata that are no context. -/
def rest : Metadata := Keyed.without r.metadata ["duration", "correlationId", "clientId"]

def tailParts : List (List Char) :=
  (r.error.map fun v => Json.quote "error" ++ ':' :: v.render).toList
    ++ (if r.rest = [] then [] else [Json.quote "meta" ++ ':' :: r.rest.render])

/-- The object of the error and the metadata, behind a blank, if there is either. -/
def tail : String :=
  match r.tailParts with
  | [] => ""
  | part :: parts => " " ++ String.ofList ('{' :: ([','].intercalate (part :: parts) ++ ['}']))

def line : String := r.lead l ++ r.tail

theorem toUpper_name (level : Level) : [Text.toUpper level.name].filter (· ≠ "") = [level.capitals] := by
  cases level <;> decide

theorem head_eq : (r.entry l (Clock.stamp r.time)).head = l.head r.level r.time := by
  simp only [Entry.head, entry, toUpper_name, Logger.head, Option.toList_some, List.cons_append, List.nil_append]

theorem tailMembers_eq (timestamp : String) : (r.entry l timestamp).tailMembers = r.tailParts := by
  have hrest : Keyed.without r.metadata contextKeys = r.rest := rfl
  simp only [Entry.tailMembers, entry, tailParts, hrest]
  by_cases h : r.rest = []
  · simp [h]
  · simp [h]

/-- The line that is written is made of these parts. -/
theorem line_eq : (r.entry l (Clock.stamp r.time)).line = r.line l := by
  have hcontext : (r.entry l (Clock.stamp r.time)).context = r.context := rfl
  have hmessage : (r.entry l (Clock.stamp r.time)).message = r.message := rfl
  have hbracketed (parts : List String) :
      (if parts = [] then "" else " [" ++ Text.join ", " parts ++ "]") = bracketed parts := by
    cases parts <;> rfl
  simp only [Entry.line, Entry.tail?, head_eq, tailMembers_eq, hcontext, hmessage, hbracketed, line, lead, tail]
  cases r.tailParts <;> simp

end Record

/-- A record that a logger shows is a line, if it has a date. -/
theorem output_single {l : Logger} {r : Record} (h : l.enables r.level = true) : l.output [r] =
    if Clock.HasDate r.time then ⟨[⟨r.level.channel, r.line l⟩], none⟩ else ⟨[], some .timeOutOfRange⟩ := by
  by_cases hdated : Clock.HasDate r.time
  · have hstamp : Clock.stamp? r.time = some (Clock.stamp r.time) := by
      unfold Clock.HasDate at hdated
      simp [Clock.stamp?, hdated]
    have hcall : l.call? r = some ⟨r.level.channel, r.line l⟩ := by
      rw [Logger.call?, hstamp, Option.map_some, Record.line_eq]
    rw [if_pos hdated, Logger.output, Logger.outputOne, if_pos h, hcall]
    rfl
  · have hcall : l.call? r = none := by rw [Logger.call?, Clock.stamp?_eq_none hdated, Option.map_none]
    rw [if_neg hdated, Logger.output, Logger.outputOne, if_pos h, hcall]
    rfl

/-! ## (3) A caller that goes on -/

namespace Session

variable (l : Logger) (s : Session)

/-- What comes of one call, and the session after it; a call that fails leaves it as it was. -/
def call (e : Step) : Session × Except Fault (List Console.Call) :=
  match s.step e with
  | .error f => (s, .error f)
  | .ok (next, rs) =>
    match (l.output rs).fault with
    | some f => (s, .error f)
    | none => (next, .ok (l.output rs).calls)

/-- A call that says one thing, and says it aloud. -/
theorem call_single {l : Logger} {s next : Session} {e : Step} {r : Record} (hstep : s.step e = .ok (next, [r]))
    (h : l.enables r.level = true) : s.call l e =
      if Clock.HasDate r.time then (next, .ok [⟨r.level.channel, r.line l⟩]) else (s, .error .timeOutOfRange) := by
  rw [call, hstep]
  simp only [output_single h]
  by_cases hdated : Clock.HasDate r.time
  · rw [if_pos hdated, if_pos hdated]
  · rw [if_neg hdated, if_neg hdated]

def after (s : Session) : List Step → Session
  | [] => s
  | e :: es => after (s.call l e).1 es

/-- What comes of each call. -/
def outcomes (s : Session) : List Step → List (Except Fault (List Console.Call))
  | [] => []
  | e :: es => (s.call l e).2 :: outcomes (s.call l e).1 es

theorem after_append (es es' : List Step) : s.after l (es ++ es') = (s.after l es).after l es' := by
  induction es generalizing s with
  | nil => rfl
  | cons e es ih => exact ih (s.call l e).1

theorem outcomes_append (es es' : List Step) :
    s.outcomes l (es ++ es') = s.outcomes l es ++ (s.after l es).outcomes l es' := by
  induction es generalizing s with
  | nil => rfl
  | cons e es ih => exact congrArg ((s.call l e).2 :: ·) (ih (s.call l e).1)

@[simp] theorem length_outcomes (es : List Step) : (s.outcomes l es).length = es.length := by
  induction es generalizing s with
  | nil => rfl
  | cons e es ih => exact congrArg (· + 1) (ih (s.call l e).1)

/-- The outcome of a call behind others. -/
theorem outcomes_at (before : List Step) (e : Step) (behind : List Step) :
    (s.outcomes l (before ++ e :: behind))[before.length]? = some ((s.after l before).call l e).2 := by
  rw [outcomes_append, List.getElem?_append_right (by simp), length_outcomes, Nat.sub_self]
  rfl

/-- What is played is what comes of each call, up to the first that fails. -/
theorem play_eq (es : List Step) : s.play l es = (s.outcomes l es).mapM id := by
  induction es generalizing s with
  | nil => rfl
  | cons e es ih =>
    rw [play_cons, outcomes, List.mapM_cons, call]
    cases s.step e with
    | error f => rfl
    | ok next =>
      cases hfault : (l.output next.2).fault with
      | some f => simp only [hfault]; rfl
      | none =>
        simp only [hfault, ih]
        cases (outcomes l next.1 es).mapM id <;> rfl

end Session

end CheckpointRelay.Log
