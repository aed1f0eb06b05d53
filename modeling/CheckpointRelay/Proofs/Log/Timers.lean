/-
  CheckpointRelay.Proofs.Log.Timers — a timer measures its own operation.

  Calls move the clock, add timers and nothing else (`Continues`), so a timer is found under its
  number as it was started, however many others are started and stopped around it. A stop reads its
  timer and the clock and changes nothing: its line says how far the clock has moved since the
  start of that timer, with the correlation of that start, and without the stop every other call
  comes to the same. A timer that starts without a date is none, and a stop without one fails.
  - `startRecord_line` / `stopRecord_line`: the lines of a timer.
  - `call_continues` / `after_continues`: what a call keeps, and what a run of calls keeps.
  - `started_in_the_run`: where the timers of a run come from.
  - `durations_ordered`: what is measured while the clock goes forward.
  - `timers_measure_their_own_operation`: all of it.
-/

import CheckpointRelay.Proofs.Json.Order
import CheckpointRelay.Proofs.Log.Lines
import CheckpointRelay.Proofs.Number.WholeText

namespace CheckpointRelay

open Number (Binary64)

namespace Log

/-! ## (1) The lines of a timer -/

namespace Timer

variable (l : Logger) (t : Timer)

/-- The metadata of the caller that are no context. -/
def rest : Metadata := Keyed.without t.metadata ["duration", "correlationId", "clientId"]

/-- A line of a timer: its context are the client of the metadata, the correlation of the timer
    and a duration, and its tail is what else there is of the metadata. -/
def line (time : Clock.Instant) (message : String) (duration : Option String) : String :=
  "[" ++ l.head .debug time ++ "] " ++ message ++
    bracketed (((textEntry t.metadata "clientId").map ("client=" ++ ·)).toList
      ++ ((nonEmpty t.correlation).map ("corr=" ++ ·)).toList
      ++ (duration.map fun d => "duration=" ++ d ++ "ms").toList) ++
    if t.rest = [] then "" else " \x7b\"meta\":" ++ String.ofList t.rest.render ++ "\x7d"

theorem tail_of_rest {r : Record} (herror : r.error = none) (hrest : r.rest = t.rest) :
    r.tail = if t.rest = [] then "" else " \x7b\"meta\":" ++ String.ofList t.rest.render ++ "\x7d" := by
  rw [Record.tail, Record.tailParts, herror, hrest]
  by_cases h : t.rest = []
  · rw [if_pos h, if_pos h]
    rfl
  · rw [if_neg h, if_neg h, ← String.toList_inj]
    simp [Json.quote, Json.escapeChar]

theorem textEntry_put (ms : Metadata) (key text : String) :
    textEntry (Keyed.put ms key (.json (.str text))) key = nonEmpty text := by
  rw [textEntry, Keyed.get?_put_self]
  rfl

theorem textEntry_put_of_ne {ms : Metadata} {key name : String} {d : Datum} (h : name ≠ key) :
    textEntry (Keyed.put ms key d) name = textEntry ms name := by
  rw [textEntry, Keyed.get?_put_of_ne h]
  rfl

/-- A duration of the caller's own is shown at the start. -/
theorem startRecord_line : t.startRecord.line l = t.line l t.startedAt ("Starting operation: " ++ t.operation)
    ((Keyed.get? t.metadata "duration").bind Datum.numberText?) := by
  have hrest : t.startRecord.rest = t.rest := Keyed.without_put (by decide)
  have hclient : textEntry t.startRecord.metadata "clientId" = textEntry t.metadata "clientId" :=
    textEntry_put_of_ne (by decide)
  have hcorrelation : textEntry t.startRecord.metadata "correlationId" = nonEmpty t.correlation := textEntry_put ..
  have hduration : Keyed.get? t.startRecord.metadata "duration" = Keyed.get? t.metadata "duration" :=
    Keyed.get?_put_of_ne (by decide)
  rw [Record.line, tail_of_rest t rfl hrest, Record.lead, Record.context, hclient, hcorrelation, hduration]
  rfl

/-- At a stop the duration that was measured stands in its place. -/
theorem stopRecord_line (now : Clock.Instant) : (t.stopRecord now).line l
    = t.line l now ("Completed operation: " ++ t.operation) (some (Binary64.ofInt (now - t.startedAt)).text) := by
  have hrest : (t.stopRecord now).rest = t.rest := by
    rw [Record.rest, stopRecord, Keyed.without_put (by decide), Keyed.without_put (by decide)]
    rfl
  have hclient : textEntry (t.stopRecord now).metadata "clientId" = textEntry t.metadata "clientId" :=
    (textEntry_put_of_ne (by decide)).trans (textEntry_put_of_ne (by decide))
  have hcorrelation : textEntry (t.stopRecord now).metadata "correlationId" = nonEmpty t.correlation :=
    (textEntry_put_of_ne (by decide)).trans (textEntry_put ..)
  have hduration : Keyed.get? (t.stopRecord now).metadata "duration" = some (.json (.ofInt (now - t.startedAt))) :=
    Keyed.get?_put_self ..
  rw [Record.line, tail_of_rest t rfl hrest, Record.lead, Record.context, hclient, hcorrelation, hduration]
  rfl

end Timer

/-! ## (2) What a call keeps -/

/-- How far calls move the clock. -/
def elapsed : List Step → Int
  | [] => 0
  | .advance ms :: es => ms + elapsed es
  | _ :: es => elapsed es

theorem elapsed_append (es es' : List Step) : elapsed (es ++ es') = elapsed es + elapsed es' := by
  induction es with
  | nil => simp [elapsed]
  | cons e es ih =>
    cases e with
    | advance ms => rw [List.cons_append, elapsed, elapsed, ih, Int.add_assoc]
    | _ => exact ih

namespace Session

variable {l : Logger} {s next : Session}

/-- The clock has moved, timers may have been added, and nothing else has changed. -/
structure Continues (s next : Session) (passed : Int) : Prop where
  now : next.now = s.now + passed
  timers : s.timers <+: next.timers
  correlations : next.correlations = s.correlations

theorem Continues.same (s : Session) : s.Continues s 0 := ⟨(Int.add_zero _).symm, List.prefix_rfl, rfl⟩

theorem Continues.trans {last : Session} {passed later : Int} (h : s.Continues next passed)
    (h' : next.Continues last later) : s.Continues last (passed + later) := by
  refine ⟨?_, h.timers.trans h'.timers, h'.correlations.trans h.correlations⟩
  have hnow := h'.now
  rw [h.now] at hnow
  rw [hnow, Int.add_assoc]

/-- A timer that has been started is found under its number ever after. -/
theorem Continues.timer {passed : Int} (h : s.Continues next passed) {n : Nat} {t : Timer}
    (ht : s.timers[n]? = some t) : next.timers[n]? = some t := by
  obtain ⟨added, hadded⟩ := h.timers
  rw [← hadded, List.getElem?_append_left (List.getElem?_eq_some_iff.mp ht).1]
  exact ht

theorem call_same {e : Step} (h : ∀ next rs, s.step e = .ok (next, rs) → next = s) : (s.call l e).1 = s := by
  unfold call
  cases hstep : s.step e with
  | error f => rfl
  | ok result =>
    obtain ⟨next, rs⟩ := result
    simp only
    split
    · rfl
    · exact h next rs hstep

/-- A stop changes nothing. -/
theorem call_stop (n : Nat) : (s.call l (.stop n)).1 = s := by
  refine call_same fun next rs h => ?_
  cases h
  rfl

/-- The timer that a start makes. -/
def starting (s : Session) (operation : String) (metadata : Metadata) : Timer :=
  ⟨operation, s.now, metadata, s.correlations s.timers.length⟩

/-- A call moves the clock, adds a timer, or changes nothing. -/
theorem call_moves (l : Logger) (s : Session) (e : Step) :
    (elapsed [e] = 0 ∧ (s.call l e).1 = s) ∨
    (∃ ms, e = .advance ms ∧ (s.call l e).1 = ⟨s.now + ms, s.timers, s.correlations⟩) ∨
    ∃ operation metadata, e = .start operation metadata ∧
      (s.call l e).1 = ⟨s.now, s.timers ++ [s.starting operation metadata], s.correlations⟩ := by
  cases e with
  | say level message metadata =>
    refine Or.inl ⟨rfl, call_same fun next rs h => ?_⟩
    cases h
    rfl
  | fail message error metadata =>
    refine Or.inl ⟨rfl, call_same fun next rs h => ?_⟩
    cases error with
    | none =>
      cases h
      rfl
    | some error =>
      simp only [step] at h
      split at h
      · cases h
        rfl
      · cases h
  | start operation metadata =>
    simp only [call, step]
    split
    · exact Or.inl ⟨rfl, rfl⟩
    · exact Or.inr (Or.inr ⟨operation, metadata, rfl, rfl⟩)
  | stop n => exact Or.inl ⟨rfl, call_stop n⟩
  | advance ms => exact Or.inr (Or.inl ⟨ms, rfl, rfl⟩)

theorem call_continues (e : Step) : s.Continues (s.call l e).1 (elapsed [e]) := by
  rcases call_moves l s e with ⟨helapsed, hsame⟩ | ⟨ms, rfl, hmoved⟩ | ⟨operation, metadata, rfl, hadded⟩
  · rw [hsame, helapsed]
    exact .same s
  · rw [hmoved]
    exact ⟨by simp [elapsed], List.prefix_rfl, rfl⟩
  · rw [hadded]
    exact ⟨(Int.add_zero _).symm, List.prefix_append _ _, rfl⟩

/-- What calls keep, one after the other. -/
theorem after_continues (es : List Step) : s.Continues (s.after l es) (elapsed es) := by
  induction es generalizing s with
  | nil => exact .same s
  | cons e es ih =>
    have hall : elapsed (e :: es) = elapsed [e] + elapsed es := elapsed_append [e] es
    rw [hall]
    exact (call_continues e).trans ih

/-! ## (3) Starts and stops -/

theorem call_start (hdebug : l.enables .debug = true) (operation : String) (metadata : Metadata) :
    s.call l (.start operation metadata) =
      let t := s.starting operation metadata
      if Clock.HasDate s.now then (⟨s.now, s.timers ++ [t], s.correlations⟩, .ok [⟨.debug, t.startRecord.line l⟩])
      else (s, .error .timeOutOfRange) :=
  call_single (r := (s.starting operation metadata).startRecord) rfl hdebug

/-- Whatever is called afterwards, a timer that was started is found under its number. -/
theorem timer_found (hdebug : l.enables .debug = true) {before : List Step} (h : Clock.HasDate (s.after l before).now)
    (operation : String) (metadata : Metadata) (between : List Step) :
    (s.after l (before ++ .start operation metadata :: between)).timers[(s.after l before).timers.length]?
      = some ((s.after l before).starting operation metadata) := by
  have hstarted := call_start hdebug (s := s.after l before) operation metadata
  simp only [if_pos h] at hstarted
  rw [after_append, after, hstarted]
  exact (after_continues between).timer (by simp)

theorem call_stop_started (hdebug : l.enables .debug = true) {n : Nat} {t : Timer} (ht : s.timers[n]? = some t) :
    (s.call l (.stop n)).2 =
      if Clock.HasDate s.now then .ok [⟨.debug, (t.stopRecord s.now).line l⟩] else .error .timeOutOfRange := by
  have hstep : s.step (.stop n) = .ok (s, [t.stopRecord s.now]) := by rw [step, ht]; rfl
  rw [call_single hstep hdebug]
  exact apply_ite Prod.snd _ _ _

theorem call_stop_unstarted {n : Nat} (h : s.timers.length ≤ n) : (s.call l (.stop n)).2 = .ok [] := by
  have hstep : s.step (.stop n) = .ok (s, []) := by rw [step, List.getElem?_eq_none h]; rfl
  rw [call, hstep]
  rfl

/-- The start of a timer among other calls. -/
theorem outcome_of_start (hdebug : l.enables .debug = true) {before : List Step}
    (h : Clock.HasDate (s.after l before).now) (operation : String) (metadata : Metadata) (behind : List Step) :
    (s.outcomes l (before ++ .start operation metadata :: behind))[before.length]?
      = some (.ok [⟨.debug, ((s.after l before).starting operation metadata).startRecord.line l⟩]) := by
  rw [outcomes_at, call_start hdebug]
  simp only [if_pos h]

/-- A stop of it, with other calls before, between and behind. -/
theorem outcome_of_stop (hdebug : l.enables .debug = true) {before : List Step}
    (h : Clock.HasDate (s.after l before).now) (operation : String) (metadata : Metadata) (between behind : List Step) :
    let n := (s.after l before).timers.length
    let t := (s.after l before).starting operation metadata
    let stoppedAt := t.startedAt + elapsed between
    let calls := before ++ .start operation metadata :: (between ++ .stop n :: behind)
    (s.outcomes l calls)[before.length + 1 + between.length]?
      = some (if Clock.HasDate stoppedAt then .ok [⟨.debug, (t.stopRecord stoppedAt).line l⟩]
        else .error .timeOutOfRange) := by
  intro n t stoppedAt calls
  have hinstant : (s.after l (before ++ .start operation metadata :: between)).now = stoppedAt := by
    rw [(after_continues _).now, elapsed_append, ← Int.add_assoc, ← (after_continues before).now]
    rfl
  have hstopped := call_stop_started hdebug (timer_found hdebug h operation metadata between)
  have hat := s.outcomes_at l (before ++ .start operation metadata :: between) (.stop n) behind
  rw [hstopped, hinstant] at hat
  simpa [Nat.add_assoc, Nat.add_comm between.length 1] using hat

/-- Without a stop every other call comes to the same. -/
theorem outcomes_without_stop (before : List Step) (n : Nat) (after : List Step) :
    (s.outcomes l (before ++ .stop n :: after)).eraseIdx before.length = s.outcomes l (before ++ after) := by
  rw [outcomes_append, outcomes_append, List.eraseIdx_append_of_length_le (by simp), length_outcomes, Nat.sub_self,
    outcomes, call_stop]
  rfl

/-- A timer of a run was started in it, at an instant with a date. -/
theorem started_in_the_run (hdebug : l.enables .debug = true) (hnone : s.timers = []) {es : List Step} {n : Nat}
    (hn : n < (s.after l es).timers.length) : ∃ before operation metadata between,
      es = before ++ .start operation metadata :: between ∧ n = (s.after l before).timers.length ∧
      Clock.HasDate (s.after l before).now := by
  -- from the end: the last call has added the timer, or it was there before
  induction es using List.reverseRecOn with
  | nil =>
    rw [after, hnone] at hn
    cases hn
  | append_singleton front e ih =>
    rw [after_append] at hn
    by_cases hfront : n < (s.after l front).timers.length
    · obtain ⟨before, operation, metadata, between, rfl, hnumber, hdated⟩ := ih hfront
      exact ⟨before, operation, metadata, between ++ [e], by simp, hnumber, hdated⟩
    · have hadded : n < ((s.after l front).call l e).1.timers.length := hn
      rcases call_moves l (s.after l front) e with ⟨-, hsame⟩ | ⟨ms, -, hmoved⟩ | ⟨operation, metadata, rfl, hstarted⟩
      · rw [hsame] at hadded
        exact absurd hadded hfront
      · rw [hmoved] at hadded
        exact absurd hadded hfront
      · have hlength := hadded
        rw [hstarted, List.length_append, List.length_singleton] at hlength
        refine ⟨front, operation, metadata, [], rfl, by omega, ?_⟩
        by_contra hdated
        rw [call_start hdebug] at hadded
        simp only [if_neg hdated] at hadded
        exact hfront hadded

end Session

/-! ## (4) Durations -/

/-- The clock does not go back. -/
def Forward (es : List Step) : Prop := ∀ ms, .advance ms ∈ es → 0 ≤ ms

theorem elapsed_nonneg {es : List Step} (h : Forward es) : 0 ≤ elapsed es := by
  induction es with
  | nil => exact Int.le_refl 0
  | cons e es ih =>
    have hrest : 0 ≤ elapsed es := ih fun ms hms => h ms (List.mem_cons_of_mem e hms)
    cases e with
    | advance ms =>
      have hms : 0 ≤ ms := h ms List.mem_cons_self
      exact Int.add_nonneg hms hrest
    | _ => exact hrest

/-- What is measured of one timer while the clock goes forward are naturals, the later one not
    below the earlier one; so it is after rounding. -/
theorem durations_ordered {between later : List Step} (hforward : Forward (between ++ later))
    {startedAt stoppedAt : Int} (hbetween : stoppedAt = startedAt + elapsed between)
    (hstart : Clock.HasDate startedAt) (hlast : Clock.HasDate (stoppedAt + elapsed later)) :
    ∃ a b : Nat, (Binary64.ofInt (stoppedAt - startedAt)).Denotes a ∧
      (Binary64.ofInt (stoppedAt + elapsed later - startedAt)).Denotes b ∧ a ≤ b := by
  have hnatural {z : Int} (h : 0 ≤ z) : Binary64.ofInt z = .ofNat z.natAbs := by
    have hsign : decide (z < 0) = false := decide_eq_false (by omega)
    rw [Binary64.ofInt, hsign]
    rfl
  have hfirst : 0 ≤ elapsed between := elapsed_nonneg fun ms hms => hforward ms (List.mem_append_left _ hms)
  have hsecond : 0 ≤ elapsed later := elapsed_nonneg fun ms hms => hforward ms (List.mem_append_right _ hms)
  have hfurthest : Clock.furthest = 8640000000000000 := by decide
  unfold Clock.HasDate at hstart hlast
  rw [hnatural (by omega), hnatural (by omega)]
  obtain ⟨a, ha⟩ := Binary64.exists_denotes (n := (stoppedAt - startedAt).natAbs) (by omega)
  obtain ⟨b, hb⟩ := Binary64.exists_denotes (n := (stoppedAt + elapsed later - startedAt).natAbs) (by omega)
  exact ⟨a, b, ha, hb, Binary64.denotes_mono (by omega) ha hb⟩

/-! ## (5) All calls -/

/-- A timer that is started at an instant with a date, among any other calls. Its start writes one
    line and each stop writes one, unless the stop has no date, when it fails. The duration is the
    clock at the stop minus the clock at the start, written out below `2 ^ 53`; correlation, client
    and the other metadata are those of the start, whatever the caller's own duration and
    correlation are. The stop affects no other call, and while the clock does not go back a later
    one measures no less. A stop of no such timer writes nothing, and what is played is all this up
    to the first call that fails. -/
theorem timers_measure_their_own_operation {l : Logger} (hdebug : l.enables .debug = true) (now : Clock.Instant)
    (correlations : Nat → String) :
    let s : Session := ⟨now, [], correlations⟩
    (∀ before operation metadata between behind,
      let n := (s.after l before).timers.length
      let t : Timer := ⟨operation, now + elapsed before, metadata, correlations n⟩
      let stoppedAt := t.startedAt + elapsed between
      let duration := Binary64.ofInt (stoppedAt - t.startedAt)
      let calls := before ++ .start operation metadata :: (between ++ .stop n :: behind)
      Clock.HasDate t.startedAt →
      (s.outcomes l calls)[before.length]? = some (.ok [⟨.debug, t.line l t.startedAt
        ("Starting operation: " ++ operation) ((Keyed.get? metadata "duration").bind Datum.numberText?)⟩]) ∧
      (s.outcomes l calls)[before.length + 1 + between.length]? = some (if Clock.HasDate stoppedAt then
        .ok [⟨.debug, t.line l stoppedAt ("Completed operation: " ++ operation) (some duration.text)⟩]
        else .error .timeOutOfRange) ∧
      ((stoppedAt - t.startedAt).natAbs < 2 ^ 53 → duration.text = toString (stoppedAt - t.startedAt)) ∧
      (s.outcomes l calls).eraseIdx (before.length + 1 + between.length)
        = s.outcomes l (before ++ .start operation metadata :: (between ++ behind)) ∧
      ∀ later, Forward (between ++ later) → Clock.HasDate (stoppedAt + elapsed later) →
        ∃ a b : Nat, duration.Denotes a ∧
          (Binary64.ofInt (stoppedAt + elapsed later - t.startedAt)).Denotes b ∧ a ≤ b) ∧
    (∀ front n behind,
      (∃ before operation metadata between, front = before ++ .start operation metadata :: between ∧
        n = (s.after l before).timers.length ∧ Clock.HasDate (now + elapsed before)) ∨
      (s.outcomes l (front ++ .stop n :: behind))[front.length]? = some (.ok [])) ∧
    ∀ calls, s.play l calls = (s.outcomes l calls).mapM id := by
  intro s
  have hnow (es : List Step) : (s.after l es).now = now + elapsed es := (Session.after_continues es).now
  refine ⟨?_, ?_, s.play_eq l⟩
  · intro before operation metadata between behind n t stoppedAt duration calls hdated
    have hstarting : (s.after l before).starting operation metadata = t := by
      rw [Session.starting, hnow, (Session.after_continues before).correlations]
    have hdate : Clock.HasDate (s.after l before).now := by
      rw [hnow]
      exact hdated
    have hstopped := Session.outcome_of_stop hdebug hdate operation metadata between behind
    simp only [hstarting] at hstopped
    refine ⟨?_, ?_, Binary64.text_ofInt, ?_, fun later hforward hlast => ?_⟩
    · rw [Session.outcome_of_start hdebug hdate, hstarting, Timer.startRecord_line]
    · rw [hstopped, Timer.stopRecord_line]
    · have hsplit : calls = (before ++ .start operation metadata :: between) ++ .stop n :: behind := by simp [calls]
      have hlength : (before ++ .start operation metadata :: between).length = before.length + 1 + between.length := by
        rw [List.length_append, List.length_cons]
        omega
      rw [← hlength, hsplit, Session.outcomes_without_stop]
      simp
    · exact durations_ordered hforward rfl hdated hlast
  · intro front n behind
    by_cases hn : n < (s.after l front).timers.length
    · obtain ⟨before, operation, metadata, between, hfront, hnumber, hdated⟩ :=
        Session.started_in_the_run hdebug rfl hn
      rw [hnow] at hdated
      exact Or.inl ⟨before, operation, metadata, between, hfront, hnumber, hdated⟩
    · rw [Session.outcomes_at, Session.call_stop_unstarted (by omega)]
      exact Or.inr rfl

/-- Two timers that overlap; the first one is stopped twice, and its caller has a duration and a
    correlation of its own. -/
theorem two_overlapping_timers :
    let l : Logger := ⟨some .debug, "probe", some "timers"⟩
    let s : Session := ⟨0, [], fun n => if n = 0 then "a" else "b"⟩
    let metadata : Metadata := .ofMembers [("duration", .ofNat 7), ("clientId", .str "web"), ("kind", .str "dump"),
      ("correlationId", .str "own")]
    let steps : List Step := [.start "outer" metadata, .advance 5, .start "inner" [], .advance 7, .stop 0, .stop 1,
      .advance 1, .stop 0]
    let outer (stamp duration : String) : String := "[" ++ stamp ++ " | DEBUG | probe | timers] Completed operation: "
      ++ "outer [client=web, corr=a, duration=" ++ duration ++ "] \x7b\"meta\":\x7b\"kind\":\"dump\"\x7d\x7d"
    l.enables .debug = true ∧
    (s.outcomes l steps)[4]? = some (.ok [⟨.debug, outer "1970-01-01T00:00:00.012Z" "12ms"⟩]) ∧
    (s.outcomes l steps)[5]? = some (.ok [⟨.debug,
      "[1970-01-01T00:00:00.012Z | DEBUG | probe | timers] Completed operation: inner [corr=b, duration=7ms]"⟩]) ∧
    (s.outcomes l steps)[7]? = some (.ok [⟨.debug, outer "1970-01-01T00:00:00.013Z" "13ms"⟩]) := by
  intro l s metadata steps outer
  have hdebug : l.enables .debug = true := by decide
  have hline {call call' : Console.Call} (h : call = call') :
      (some (.ok [call]) : Option (Except Fault (List Console.Call))) = some (.ok [call']) := by rw [h]
  obtain ⟨hmeasured, -, -⟩ := timers_measure_their_own_operation hdebug 0 fun n => if n = 0 then "a" else "b"
  obtain ⟨-, hfirst, -⟩ := hmeasured [] "outer" metadata [.advance 5, .start "inner" [], .advance 7]
    [.stop 1, .advance 1, .stop 0] (by decide)
  obtain ⟨-, hinner, -⟩ := hmeasured [.start "outer" metadata, .advance 5] "inner" [] [.advance 7, .stop 0]
    [.advance 1, .stop 0] (by decide)
  obtain ⟨-, hsecond, -⟩ := hmeasured [] "outer" metadata [.advance 5, .start "inner" [], .advance 7, .stop 0, .stop 1,
    .advance 1] [] (by decide)
  rw [if_pos (by decide)] at hfirst hinner hsecond
  exact ⟨hdebug, hfirst.trans (hline (by decide +kernel)), hinner.trans (hline (by decide +kernel)),
    hsecond.trans (hline (by decide +kernel))⟩

/-- Behind the last date a stop writes nothing. -/
theorem a_stop_after_the_last_date :
    let l : Logger := ⟨some .debug, "coordinator-probe", none⟩
    let s : Session := .start 1704067200000
    let steps : List Step := [.start "x" [], .advance 9000000000000000, .stop 0]
    l.enables .debug = true ∧ (¬∃ line, (s.outcomes l steps)[2]? = some (.ok [⟨.debug, line⟩])) ∧
      s.play l steps = .error .timeOutOfRange := by
  intro l s steps
  have hplayed : s.play l steps = .error .timeOutOfRange := by rfl
  have hstopped : (s.outcomes l steps)[2]? = some (.error .timeOutOfRange) := by rfl
  refine ⟨by decide, ?_, hplayed⟩
  rintro ⟨line, hline⟩
  rw [hstopped] at hline
  cases hline

end Log

end CheckpointRelay
