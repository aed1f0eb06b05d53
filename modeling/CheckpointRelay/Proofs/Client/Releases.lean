/-
  CheckpointRelay.Proofs.Client.Releases — what a send by itself does.

  Everything that an exchange holds is given back once. A logger has a say in this by one line
  only, that of the connection: it is shown before the payload is written, so where it has no date
  the payload is not written, and nothing after it happens (`Heard`).
  - `heard_reached`: of a regular script, what is reached is what is heard.
  - `Session.shown_quiet` / `shown_decided`: a send is pending just while nothing settles it.
  - `released_exactly_once`: the trace of a send by itself, with any logger.
  - `a_write_without_a_date`: a payload that is not written.
-/

import CheckpointRelay.Proofs.Client.Settling

namespace CheckpointRelay.Client

open Text.Utf8 (Bytes)

/-- Of a script, a logger hears these events: all, or those before the first connection whose line
    it would show at an instant without a date. There the program crashes. -/
structure Heard (l : Log.Logger) (now : Clock.Instant) (es seen : List Event) (crash : Option Fault) : Prop where
  dated : ∀ before after, seen = before ++ .connected :: after → l.enables .debug = true →
    Clock.HasDate (now + moved before)
  ends : (seen = es ∧ crash = none) ∨ ∃ rest, es = seen ++ .connected :: rest ∧ l.enables .debug = true ∧
    ¬Clock.HasDate (now + moved seen) ∧ crash = some .timeOutOfRange

/-- Of a regular script, what is heard is what is reached. -/
theorem heard_reached (l : Log.Logger) (c : Config) (now : Clock.Instant) {es : List Event}
    (regular : ∀ e ∈ es, e.regular = true) : Heard l now es (reached l c now es) (halt l c now es) := by
  constructor
  · intro before after h hdebug
    have hdoes := failure_of_reached h
    simp only [Event.failure, hdebug, Bool.true_and] at hdoes
    by_contra hundated
    simp [hundated] at hdoes
  · rcases reached_or l c now es with hall | ⟨e, rest, f, hsplit, hfailure, hhalt⟩
    · exact Or.inl hall
    · have he : e ∈ es := by
        rw [hsplit]
        exact List.mem_append_right _ List.mem_cons_self
      obtain ⟨rfl, hdebug, hundated, rfl⟩ := failure_of_regular (regular e he) hfailure
      exact Or.inr ⟨rest, hsplit, hdebug, hundated, hhalt⟩

/-- A quiet script that is heard to its end leaves its send pending. -/
theorem Session.shown_quiet (c : Config) (s : Session) (payload : Bytes) (clientId : Option String) {es : List Event}
    (hq : Quiet c.timeoutMs es) {l : Log.Logger}
    (hopening : l.cut (s.sendRaw c payload clientId (.events es)).2.opening = false)
    (hhalt : halt l c s.now es = none) :
    ((s.sendRaw c payload clientId (.events es)).2.shown l).delivery = .pending := by
  have hcrash : ((s.sendRaw c payload clientId (.events es)).2.shown l).crash = none :=
    (sendRaw_shown c s payload clientId l (.events es) hopening).2.trans hhalt
  have hclosing : (s.sendRaw c payload clientId (.events es)).2.ownClosing = [] := by
    rw [ownClosing_eq, State.run_quiet rfl rfl hq]
    rfl
  rw [Turn.shown_crash, hopening] at hcrash
  rw [Turn.shown_delivery, Turn.spoken, l.cut_append, l.cut_append, hopening, hclosing, ite_self,
    sendRaw_quiet c s payload clientId hq]
  cases hlive : l.cut (s.sendRaw c payload clientId (.events es)).2.live with
  | true => simp [hlive] at hcrash
  | false =>
    simp only [hlive, Bool.false_eq_true, if_false] at hcrash
    rw [hcrash]
    rfl

/-- A send whose script settles it is not left pending. -/
theorem Session.shown_decided (c : Config) (s : Session) (payload : Bytes) (clientId : Option String)
    {before after : List Event} {e : Event} (hq : Quiet c.timeoutMs before)
    (he : e.settles c.timeoutMs (moved (before ++ [e])) = true) (l : Log.Logger) :
    ((s.sendRaw c payload clientId (.events (before ++ e :: after))).2.shown l).delivery ≠ .pending := by
  rw [Turn.shown_delivery, sendRaw_first c s payload clientId hq he]
  split
  · simp
  · split <;> simp

/-- With any logger a send by itself connects once, unless a line before the connection cannot be
    written. It sets its timer if it has one, writes its payload as often as it hears that the
    connection is there, and gives timer and connection back at the first event that settles it,
    never before and never again. It hears of its script all, or what comes before a connection
    that its logger cannot show: that write is lost, and the program ends. -/
theorem released_exactly_once (c : Config) (now : Clock.Instant) (payload : Bytes) (clientId : Option String)
    (script : Script) (l : Log.Logger) :
    let turn := ((Session.start now).sendRaw c payload clientId script).2
    let done := turn.shown l
    let opening : List Action := .connect c.host c.port :: if 0 < c.timeoutMs then [.timer c.timeoutMs] else []
    let closing : List Action := (if 0 < c.timeoutMs then [.clearTimer] else []) ++ [.destroy]
    (Clock.HasDate now → l.cut turn.opening = false) ∧
    (l.cut turn.opening = true → done.trace = [] ∧ done.delivery = .broken .timeOutOfRange) ∧
    (l.cut turn.opening = false →
      (∃ rest, done.trace = .connect c.host c.port :: rest ∧ ∀ host port, .connect host port ∉ rest) ∧
      (∀ error, script = .refused error → done.trace = [.connect c.host c.port] ∧ done.crash = none) ∧
      ∀ es, script = .events es → (∀ e ∈ es, e.regular = true) →
        ∃ seen, Heard l now es seen done.crash ∧
        (Quiet c.timeoutMs seen →
          done.trace = opening ++ seen.flatMap (Event.writes payload) ∧
          done.trace.count .destroy = 0 ∧ done.trace.count .clearTimer = 0 ∧
          (done.crash = none → done.delivery = .pending)) ∧
        (∀ before e after, seen = before ++ e :: after → Quiet c.timeoutMs before →
          e.settles c.timeoutMs (moved (before ++ [e])) = true →
          done.trace
            = opening ++ before.flatMap (Event.writes payload) ++ closing ++ after.flatMap (Event.writes payload) ∧
          done.trace.count .destroy = 1 ∧ done.trace.count .clearTimer = (if 0 < c.timeoutMs then 1 else 0) ∧
          done.delivery ≠ .pending)) := by
  intro turn done opening closing
  refine ⟨?_, ?_, ?_⟩
  · intro hnow
    exact Session.sendRaw_opening_cut c (.start now) payload clientId script l hnow
  · intro hcut
    have hspoken : l.cut turn.spoken = true := by
      rw [Turn.spoken, l.cut_append, l.cut_append, hcut, Bool.true_or, Bool.true_or]
    exact ⟨by rw [Turn.shown_trace, if_pos hcut], by rw [Turn.shown_delivery, if_pos hspoken]⟩
  intro hcut
  -- with this logger a send does what it does alone with the script that is reached
  obtain ⟨htrace, hcrash⟩ := Session.sendRaw_shown c (.start now) payload clientId l script hcut
  refine ⟨?_, ?_, ?_⟩
  · obtain ⟨rest, hconnects, hrest⟩ := Session.sendRaw_connects c (.start now) payload clientId (script.reached l c now)
    exact ⟨rest, htrace.trans hconnects, hrest⟩
  · rintro error rfl
    exact ⟨htrace.trans (Session.sendRaw_refused_trace c _ payload clientId error), hcrash⟩
  rintro es rfl regular
  have ht : done.trace = ((Session.start now).sendRaw c payload clientId (.events (reached l c now es))).2.trace :=
    htrace
  refine ⟨reached l c now es, hcrash ▸ heard_reached l c now regular, ?_, ?_⟩
  · intro hq
    obtain ⟨hdestroys, hclears⟩ := Session.alone_quiet_counts c payload clientId now hq
    rw [ht]
    refine ⟨Session.alone_quiet_trace c payload clientId now hq, hdestroys, hclears, fun hnone => ?_⟩
    have hhalt : halt l c now es = none := hcrash.symm.trans hnone
    -- a script that is heard to its end is all of it quiet
    rw [reached_of_halt hhalt] at hq
    exact Session.shown_quiet c _ payload clientId hq hcut hhalt
  · intro before e after hseen hq he
    obtain ⟨hdestroys, hclears⟩ := Session.alone_first_counts c payload clientId now hq he
    rw [ht, hseen]
    refine ⟨Session.alone_first_trace c payload clientId now hq he, hdestroys, hclears, ?_⟩
    obtain ⟨unseen, hes⟩ := reached_initial l c now es
    rw [hseen, List.append_assoc, List.cons_append] at hes
    subst hes
    exact Session.shown_decided c _ payload clientId hq he l

/-- The timer runs out, and the connection is reported and closed once more. -/
theorem a_timeout_releases_once :
    let c : Config := ⟨"127.0.0.1", 8080, 100, 1024, .debug⟩
    let es : List Event := [.connected, .advance 60, .advance 40, .connected, .closed]
    let l : Log.Logger := .forComponent "tcp-client" (some c.logLevel)
    (((Session.start 0).sendRaw c [1, 2] none (.events es)).2.shown l).trace
      = [.connect "127.0.0.1" 8080, .timer 100, .write [1, 2], .clearTimer, .destroy, .write [1, 2]] := by
  intro c es l
  have hquiet : Quiet c.timeoutMs [.connected, .advance 60] :=
    (quiet_snoc _ [.connected] _).mpr ⟨(quiet_snoc _ [] _).mpr ⟨quiet_nil _, rfl⟩, rfl⟩
  obtain ⟨hdated, -, hmade⟩ := released_exactly_once c 0 [1, 2] none (.events es) l
  obtain ⟨-, -, hevents⟩ := hmade (hdated (by decide))
  obtain ⟨seen, heard, -, hfirst⟩ := hevents es rfl (by decide)
  rcases heard.ends with ⟨rfl, -⟩ | ⟨rest, hsplit, -, hundated, -⟩
  · exact (hfirst [.connected, .advance 60] (.advance 40) [.connected, .closed] rfl hquiet rfl).1
  · -- the clock never leaves the dates
    have hforward : ∀ e ∈ es, 0 ≤ e.span := by decide
    have htotal : moved es = 100 := rfl
    rw [hsplit] at hforward htotal
    obtain ⟨hlow, hhigh⟩ := moved_between hforward
    rw [htotal] at hhigh
    have hdated : Clock.HasDate (moved seen) := Clock.hasDate_between (a := 0) (by decide) (by decide) hlow hhigh
    exact absurd ((Int.zero_add (moved seen)).symm ▸ hdated) hundated

/-- A connection whose line is shown at an instant without a date: neither the payload is written nor
    anything given back, though the reply is there. -/
theorem a_write_without_a_date :
    let c : Config := ⟨"127.0.0.1", 8080, 0, 1024, .debug⟩
    let before : List Event := [.advance 9000000000000000, .connected]
    let reply : Event := .data [65, 67, 75]
    let l : Log.Logger := .forComponent "tcp-client" (some c.logLevel)
    let done := ((Session.start 1704067200000).sendRaw c [120] none (.events (before ++ [reply]))).2.shown l
    Clock.HasDate 1704067200000 ∧ (∀ e ∈ before ++ [reply], e.regular = true) ∧ Quiet c.timeoutMs before ∧
    reply.settles c.timeoutMs (moved (before ++ [reply])) = true ∧
    done.trace = [.connect "127.0.0.1" 8080] ∧
    done.trace ≠ [.connect "127.0.0.1" 8080, .write [120], .destroy] ∧ done.crash = some .timeOutOfRange := by
  intro c before reply l done
  have htrace : done.trace = [.connect "127.0.0.1" 8080] := by decide
  have hquiet : Quiet c.timeoutMs before :=
    (quiet_snoc _ [.advance 9000000000000000] _).mpr ⟨(quiet_snoc _ [] _).mpr ⟨quiet_nil _, rfl⟩, rfl⟩
  refine ⟨by decide, by decide, hquiet, rfl, htrace, ?_, ?_⟩
  · rw [htrace]
    decide
  · rfl

end CheckpointRelay.Client
