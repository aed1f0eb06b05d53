/-
  CheckpointRelay.Proofs.Client.Settling — what settles an exchange, and what it gives back then.

  An event is all that it does to the clock, to the earlier exchanges and to the exchange itself
  (`State.step_eq`). A script is quiet or has a first event that settles, and the two cases are all
  there is to an exchange:
  - `State.run_quiet` / `State.run_first`: it is left under way, or has the outcome of that
    event, whatever follows.
  - `State.run_quiet_actions` / `State.run_first_actions`: without earlier exchanges it only
    writes, but for that event, at which it gives back what it holds.
  - `State.run_recorded`: of its own exchange a state keeps the outcome, and nothing of it before.
  - `Session.alone_first_trace` / `alone_first_counts`: the whole trace of a send by itself.
  - `State.course_run` / `Session.sendRaw_shown`: with a logger it does what it does with the
    script as far as it is reached.
-/

import CheckpointRelay.Proofs.Client.Scripts

namespace CheckpointRelay

open Text.Utf8 (Bytes)

namespace Client

/-! ## (1) One event -/

namespace State

/-- The event would settle the exchange of the state, were it under way. -/
def decides (s : State) : Event → Bool
  | .connected => false
  | .failed error => error.reportable
  | .advance ms => s.current.due (s.now + ms)
  | _ => true

/-- The event settles the exchange of the state. -/
def settling (s : State) (e : Event) : Bool := s.outcome.isNone && s.decides e

/-- What a reported error is taken for. -/
def reason (c : Config) (error : Thrown) : Fault :=
  match Fault.ofSocket c.address error with
  | .ok f => f
  | .error f => f

/-- The outcome that a settling event gives. -/
def verdict (c : Config) : Event → Outcome
  | .data chunk => .ok (chunk.take c.maxResponseBytes)
  | .failed error => .error (reason c error)
  | .advance _ => timedOut c
  | _ => .ok []

/-- The earlier exchanges whose timers run out with the event. -/
def late (s : State) : Event → List Attempt
  | .advance ms => s.waiting.filter (·.due (s.now + ms))
  | _ => []

/-- The earlier exchanges that go on waiting. -/
def kept (s : State) : Event → List Attempt
  | .advance ms => s.waiting.filter fun a => !a.due (s.now + ms)
  | _ => s.waiting

/-- What the event does for the exchange of the state. -/
def own (s : State) (e : Event) : List Action :=
  match e with
  | .connected => [.write s.current.payload]
  | e => if s.settling e then s.current.release else []

/-- What the listener of the event comes to before it does anything. -/
def voice (c : Config) (s : State) : Event → List Deed
  | .connected => [.say (connectedRecord c s.now)]
  | .failed error =>
    match Fault.ofSocket c.address error with
    | .ok _ => []
    | .error f => [.raise f]
  | _ => []

variable (c : Config) (s : State) (e : Event)

theorem settle_eq (o : Outcome) :
    s.settle o = if s.outcome.isNone then
        ({ s with outcome := some o, finished := s.finished ++ [⟨s.current, o, true⟩] }, s.current.release.map .act)
      else (s, []) := by
  unfold settle
  cases s.outcome <;> rfl

/-- The state after an event. -/
def next : State where
  now := s.now + e.span
  waiting := s.kept e
  current := s.current
  outcome := if s.settling e then some (verdict c e) else s.outcome
  finished := s.finished ++ ((s.late e).map fun a => ⟨a, timedOut c, false⟩)
    ++ if s.settling e then [⟨s.current, verdict c e, true⟩] else []

/-- All that an event does: to the clock, to the others, and to the exchange of the state. -/
theorem step_eq :
    s.step c e = (s.next c e, s.voice c e ++ ((s.late e).flatMap Attempt.release ++ s.own e).map .act) := by
  obtain ⟨now, waiting, current, outcome, finished⟩ := s
  -- time passing is the one event that reaches the others; the rest settle or write
  cases e with
  | connected => simp [step, next, own, voice, late, kept, settling, decides, Event.span]
  | advance ms =>
    by_cases hdue : current.due (now + ms)
    · cases outcome <;>
        simp [step, pass, settle_eq, next, own, voice, late, kept, settling, decides, verdict, Event.span, hdue]
    · simp [step, pass, next, own, voice, late, kept, settling, decides, Event.span, hdue]
  | failed error =>
    cases hreport : Fault.ofSocket c.address error with
    | ok f =>
      have hdecides : error.reportable = true := (Fault.ofSocket_ok_iff c.address).mp ⟨f, hreport⟩
      cases outcome <;>
        simp [step, settle_eq, next, own, voice, late, kept, settling, decides, verdict, reason, Event.span, hreport,
          hdecides]
    | error f =>
      have hdecides : error.reportable = false := by
        rw [← Bool.not_eq_true, ← Fault.ofSocket_ok_iff c.address]
        simp [hreport]
      simp [step, next, own, voice, late, kept, settling, decides, Event.span, hreport, hdecides]
  | _ =>
    cases outcome <;>
      simp [step, settle_eq, next, own, voice, late, kept, settling, decides, verdict, Event.span]

theorem step_now : (s.step c e).1.now = s.now + e.span := by rw [step_eq]; rfl

theorem step_current : (s.step c e).1.current = s.current := by rw [step_eq]; rfl

theorem step_waiting : (s.step c e).1.waiting = s.kept e := by rw [step_eq]; rfl

theorem step_outcome : (s.step c e).1.outcome = if s.settling e then some (verdict c e) else s.outcome := by
  rw [step_eq]; rfl

theorem step_finished :
    (s.step c e).1.finished = s.finished ++ ((s.late e).map fun a => ⟨a, timedOut c, false⟩)
      ++ if s.settling e then [⟨s.current, verdict c e, true⟩] else [] := by
  rw [step_eq]; rfl

theorem step_deeds : (s.step c e).2 = s.voice c e ++ ((s.late e).flatMap Attempt.release ++ s.own e).map .act := by
  rw [step_eq]

theorem step_actions : Deed.actions (s.step c e).2 = (s.late e).flatMap Attempt.release ++ s.own e := by
  have hvoice : Deed.actions (s.voice c e) = [] := by
    cases e with
    | failed error =>
      simp only [voice]
      split <;> rfl
    | _ => rfl
  rw [step_deeds, Deed.actions_append, hvoice, Deed.actions_acts, List.nil_append]

theorem step_said : Deed.said (s.step c e).2 = Deed.said (s.voice c e) := by
  rw [step_deeds, Deed.said_append, Deed.said_acts, ite_self, List.append_nil]

theorem step_raised : Deed.raised (s.step c e).2 = Deed.raised (s.voice c e) := by
  rw [step_deeds, Deed.raised_append, Deed.raised_acts, Option.or_none]

variable {c s e}

theorem cut_connected (l : Log.Logger) :
    l.cut [connectedRecord c s.now] = (l.enables .debug && !decide (Clock.HasDate s.now)) := Bool.or_false _

/-- An event whose listener fails does nothing, and keeps what would follow from being done. -/
theorem course_step_failed {l : Log.Logger} {f : Fault} (h : e.failure l c s.now = some f) (ds : List Deed) :
    (Deed.course l ((s.step c e).2 ++ ds)).trace = [] ∧
      (Deed.course l ((s.step c e).2 ++ ds)).output.fault = some f := by
  cases e with
  | connected =>
    simp only [Event.failure] at h
    split at h
    · rename_i hshown
      rw [← cut_connected (c := c)] at hshown
      cases h
      exact Deed.course_cut l hshown _
    · cases h
  | failed error =>
    simp only [Event.failure] at h
    simp only [step]
    cases hreport : Fault.ofSocket c.address error with
    | ok g => simp [hreport] at h
    | error g =>
      simp only [hreport] at h
      cases h
      exact ⟨rfl, rfl⟩
  | _ => cases h

/-- An event whose listener does not fail does all that it does. -/
theorem course_step {l : Log.Logger} (h : e.failure l c s.now = none) (ds : List Deed) :
    (Deed.course l ((s.step c e).2 ++ ds)).trace = Deed.actions (s.step c e).2 ++ (Deed.course l ds).trace ∧
      (Deed.course l ((s.step c e).2 ++ ds)).output.fault = (Deed.course l ds).output.fault := by
  have hacts (as : List Action) : (Deed.course l (as.map .act ++ ds)).trace = as ++ (Deed.course l ds).trace ∧
      (Deed.course l (as.map .act ++ ds)).output.fault = (Deed.course l ds).output.fault := by
    rw [Deed.course_acts]
    exact ⟨rfl, rfl⟩
  rw [step_actions, step_deeds, List.append_assoc]
  cases e with
  | connected =>
    have hshown : l.cut [connectedRecord c s.now] = false := by
      rw [cut_connected]
      simp only [Event.failure] at h
      split at h
      · cases h
      · rename_i hshown
        exact Bool.eq_false_iff.mpr hshown
    obtain ⟨htrace, hfault⟩ := Deed.course_say l hshown
      (((s.late .connected).flatMap Attempt.release ++ s.own .connected).map .act ++ ds)
    exact ⟨htrace.trans (hacts _).1, hfault.trans (hacts _).2⟩
  | failed error =>
    have hvoice : s.voice c (.failed error) = [] := by
      cases hreport : Fault.ofSocket c.address error with
      | ok f => simp only [voice, hreport]
      | error f => simp [Event.failure, hreport] at h
    rw [hvoice, List.nil_append]
    exact hacts _
  | _ => exact hacts _

theorem settling_of_some {o : Outcome} (ho : s.outcome = some o) : s.settling e = false := by
  rw [settling, ho]
  rfl

theorem own_of_settling (h : s.settling e = true) : s.own e = s.current.release := by
  cases e with
  | connected => simp [settling, decides] at h
  | _ => simp only [own, h, if_true]

/-- An event that does not settle the exchange only writes. -/
theorem own_of_idle (h : s.settling e = false) : s.own e = e.writes s.current.payload := by
  cases e with
  | connected => rfl
  | _ => simp only [own, h, Event.writes, Bool.false_eq_true, if_false]

/-- For an exchange that started at `t`, its own timer is the limit of `Event.settles`. -/
theorem settling_eq_settles {clientId : Option String} {payload : Bytes} {t : Clock.Instant}
    (hs : s.current = .start c clientId payload t) (ho : s.outcome = none) :
    s.settling e = e.settles c.timeoutMs (s.now + e.span - t) := by
  rw [settling, ho, Option.isNone_none, Bool.true_and]
  cases e with
  | advance ms =>
    by_cases h0 : c.timeoutMs = 0
    · simp [decides, Event.settles, hs, Attempt.start, Attempt.due, h0]
    · have h0' : 0 < c.timeoutMs := by omega
      simp only [decides, Event.settles, Event.span, hs, Attempt.start, Attempt.due, h0, if_false, h0', decide_true,
        Bool.true_and]
      exact decide_eq_decide.mpr (by rw [Int.add_comm t, Int.add_le_iff_le_sub])
  | _ => rfl

/-! ## (2) Whole scripts -/

variable (c s e)

theorem run_cons_state (es : List Event) : (run c s (e :: es)).1 = (run c (s.step c e).1 es).1 := rfl

theorem run_cons_deeds (es : List Event) :
    (run c s (e :: es)).2 = (s.step c e).2 ++ (run c (s.step c e).1 es).2 := rfl

theorem run_cons_actions (es : List Event) :
    Deed.actions (run c s (e :: es)).2 = Deed.actions (s.step c e).2 ++ Deed.actions (run c (s.step c e).1 es).2 :=
  Deed.actions_append _ _

theorem run_append_state (es fs : List Event) : (run c s (es ++ fs)).1 = (run c (run c s es).1 fs).1 := by
  induction es generalizing s with
  | nil => rfl
  | cons e es ih => exact ih (s.step c e).1

theorem run_append_actions (es fs : List Event) :
    Deed.actions (run c s (es ++ fs)).2
      = Deed.actions (run c s es).2 ++ Deed.actions (run c (run c s es).1 fs).2 := by
  induction es generalizing s with
  | nil => rfl
  | cons e es ih =>
    rw [List.cons_append, run_cons_actions, ih, run_cons_actions, List.append_assoc]
    rfl

theorem run_now (es : List Event) : (run c s es).1.now = s.now + moved es := by
  induction es generalizing s with
  | nil => simp [run, moved]
  | cons e es ih => rw [run_cons_state, ih, step_now, moved_cons, Int.add_assoc]

theorem run_current (es : List Event) : (run c s es).1.current = s.current := by
  induction es generalizing s with
  | nil => rfl
  | cons e es ih => rw [run_cons_state, ih, step_current]

variable {c s}

/-- Nothing changes an outcome. -/
theorem run_settled {o : Outcome} (ho : s.outcome = some o) (es : List Event) :
    (run c s es).1.outcome = some o := by
  induction es generalizing s with
  | nil => exact ho
  | cons e es ih =>
    rw [run_cons_state]
    refine ih ?_
    rw [step_outcome, settling_of_some ho, ho]
    rfl

variable {clientId : Option String} {payload : Bytes}

/-- After a script that has settled nothing, the clock of the script decides what settles. -/
theorem run_settling (hs : s.current = .start c clientId payload s.now) {es : List Event}
    (hnone : (run c s es).1.outcome = none) (e : Event) :
    (run c s es).1.settling e = e.settles c.timeoutMs (moved (es ++ [e])) := by
  rw [settling_eq_settles ((run_current c s es).trans hs) hnone, run_now, elapsed_snoc]

/-- A quiet script leaves the exchange under way. -/
theorem run_quiet (hs : s.current = .start c clientId payload s.now) (ho : s.outcome = none) {es : List Event}
    (hq : Quiet c.timeoutMs es) : (run c s es).1.outcome = none := by
  -- from the last event: a quiet script stays quiet when its end is cut off, not its beginning
  induction es using List.reverseRecOn with
  | nil => exact ho
  | append_singleton es e ih =>
    obtain ⟨hes, he⟩ := (quiet_snoc c.timeoutMs es e).mp hq
    rw [run_append_state, run_cons_state, run, step_outcome, run_settling hs (ih hes), he, ih hes]
    rfl

/-- The first event that settles gives the outcome; what follows it does not matter. -/
theorem run_first (hs : s.current = .start c clientId payload s.now) (ho : s.outcome = none)
    {before after : List Event} {e : Event} (hq : Quiet c.timeoutMs before)
    (he : e.settles c.timeoutMs (moved (before ++ [e])) = true) :
    (run c s (before ++ e :: after)).1.outcome = some (verdict c e) := by
  rw [run_append_state, run_cons_state]
  refine run_settled ?_ after
  rw [step_outcome, run_settling hs (run_quiet hs ho hq), he]
  rfl

/-- The exchange of the state is settled in it when it has an outcome, and only then. -/
def Recorded (s : State) : Prop :=
  s.finished.find? (·.own) = s.outcome.map fun o => ⟨s.current, o, true⟩

theorem step_recorded (h : s.Recorded) (e : Event) : (s.step c e).1.Recorded := by
  -- the others are recorded as not its own, and an outcome is given once
  have hlate : ((s.late e).map fun a => (⟨a, timedOut c, false⟩ : Settled)).find? (·.own) = none := by
    simp [List.find?_eq_none]
  rw [Recorded, step_finished, step_outcome, step_current, List.find?_append, List.find?_append, h, hlate]
  cases ho : s.outcome with
  | some o =>
    rw [settling_of_some ho]
    rfl
  | none => cases s.settling e <;> rfl

theorem run_recorded (h : s.Recorded) (es : List Event) : (run c s es).1.Recorded := by
  induction es generalizing s with
  | nil => exact h
  | cons e es ih => exact ih (step_recorded h e)

/-- With a logger a run does what it does up to the first event whose listener fails, and fails
    as that one does. -/
theorem course_run (l : Log.Logger) (es : List Event) :
    (Deed.course l (run c s es).2).trace = Deed.actions (run c s (reached l c s.now es)).2 ∧
      (Deed.course l (run c s es).2).output.fault = halt l c s.now es := by
  induction es generalizing s with
  | nil => exact ⟨rfl, rfl⟩
  | cons e es ih =>
    rw [run_cons_deeds, reached, halt]
    cases hfailure : e.failure l c s.now with
    | some f => exact course_step_failed hfailure _
    | none =>
      obtain ⟨htrace, hfault⟩ := course_step hfailure (run c (s.step c e).1 es).2
      obtain ⟨hrest, hhalt⟩ := ih (s := (s.step c e).1)
      rw [step_now] at hrest hhalt
      rw [htrace, hfault, hrest, hhalt]
      exact ⟨(run_cons_actions c s e _).symm, rfl⟩

/-- Errors that can be reported leave no listener as exceptions. -/
theorem run_raised {es : List Event} (h : ∀ error, .failed error ∈ es → error.reportable = true) :
    Deed.raised (run c s es).2 = none := by
  induction es generalizing s with
  | nil => rfl
  | cons e es ih =>
    have hvoice : Deed.raised (s.voice c e) = none := by
      cases e with
      | failed error =>
        obtain ⟨f, hreport⟩ := (Fault.ofSocket_ok_iff c.address).mpr (h error List.mem_cons_self)
        simp only [voice, hreport]
        rfl
      | _ => rfl
    rw [run_cons_deeds, Deed.raised_append, step_raised, hvoice, Option.none_or]
    exact ih fun error herror => h error (List.mem_cons_of_mem e herror)

/-- What leaves a listener as an exception has nothing to do with dates. -/
theorem run_raised_ne (es : List Event) : Deed.raised (run c s es).2 ≠ some .timeOutOfRange := by
  induction es generalizing s with
  | nil => simp [run, Deed.raised]
  | cons e es ih =>
    rw [run_cons_deeds, Deed.raised_append, step_raised]
    cases e with
    | failed error =>
      simp only [voice]
      cases hreport : Fault.ofSocket c.address error with
      | ok f => exact ih
      | error f =>
        intro h
        exact Fault.ofSocket_error_ne hreport (Option.some.inj h)
    | _ => exact ih

theorem mem_release {a : Attempt} {action : Action} (h : action ∈ a.release) :
    action = .clearTimer ∨ action = .destroy := by
  unfold Attempt.release at h
  split at h
  · simpa using h
  · exact Or.inr (by simpa using h)

theorem mem_step_actions {c : Config} {s : State} {e : Event} {action : Action}
    (h : action ∈ Deed.actions (s.step c e).2) :
    action = .write s.current.payload ∨ action = .clearTimer ∨ action = .destroy := by
  rw [step_actions, List.mem_append, List.mem_flatMap] at h
  rcases h with ⟨a, -, ha⟩ | h
  · exact Or.inr (mem_release ha)
  · unfold own at h
    split at h
    · exact Or.inl (List.mem_singleton.mp h)
    · split at h
      · exact Or.inr (mem_release h)
      · cases h

/-- Whatever happens, an exchange writes its payload and gives back what is held, and no more. -/
theorem mem_run_actions {c : Config} {s : State} {es : List Event} {action : Action}
    (h : action ∈ Deed.actions (run c s es).2) :
    action = .write s.current.payload ∨ action = .clearTimer ∨ action = .destroy := by
  induction es generalizing s with
  | nil => cases h
  | cons e es ih =>
    rw [run_cons_actions, List.mem_append] at h
    rcases h with h | h
    · exact mem_step_actions h
    · have hrest := ih h
      rw [step_current] at hrest
      exact hrest

/-! ## (3) Without earlier exchanges -/

theorem run_waiting_nil (hw : s.waiting = []) (es : List Event) : (run c s es).1.waiting = [] := by
  induction es generalizing s with
  | nil => exact hw
  | cons e es ih =>
    rw [run_cons_state]
    refine ih ?_
    rw [step_waiting]
    cases e <;> simp [kept, hw]

theorem step_actions_alone (hw : s.waiting = []) (e : Event) : Deed.actions (s.step c e).2 = s.own e := by
  rw [step_actions]
  cases e <;> simp [late, hw]

theorem run_settled_actions (hw : s.waiting = []) {o : Outcome} (ho : s.outcome = some o) (es : List Event) :
    Deed.actions (run c s es).2 = es.flatMap (Event.writes s.current.payload) := by
  induction es generalizing s with
  | nil => rfl
  | cons e es ih =>
    have hw' : (s.step c e).1.waiting = [] := run_waiting_nil hw [e]
    have ho' : (s.step c e).1.outcome = some o := run_settled ho [e]
    rw [run_cons_actions, ih hw' ho', step_current, step_actions_alone hw,
      own_of_idle (settling_of_some ho), List.flatMap_cons]

theorem run_quiet_actions (hs : s.current = .start c clientId payload s.now) (ho : s.outcome = none)
    (hw : s.waiting = []) {es : List Event} (hq : Quiet c.timeoutMs es) :
    Deed.actions (run c s es).2 = es.flatMap (Event.writes payload) := by
  induction es using List.reverseRecOn with
  | nil => rfl
  | append_singleton es e ih =>
    obtain ⟨hes, he⟩ := (quiet_snoc c.timeoutMs es e).mp hq
    have hidle : (run c s es).1.settling e = false := (run_settling hs (run_quiet hs ho hes) e).trans he
    rw [run_append_actions, ih hes, run_cons_actions, step_actions_alone (run_waiting_nil hw es),
      own_of_idle hidle, run_current, hs, List.flatMap_append]
    simp [Attempt.start, run, Deed.actions]

theorem run_first_actions (hs : s.current = .start c clientId payload s.now) (ho : s.outcome = none)
    (hw : s.waiting = []) {before after : List Event} {e : Event} (hq : Quiet c.timeoutMs before)
    (he : e.settles c.timeoutMs (moved (before ++ [e])) = true) :
    Deed.actions (run c s (before ++ e :: after)).2
      = before.flatMap (Event.writes payload) ++ s.current.release ++ after.flatMap (Event.writes payload) := by
  have hsettling : (run c s before).1.settling e = true := (run_settling hs (run_quiet hs ho hq) e).trans he
  have hw' : (run c s before).1.waiting = [] := run_waiting_nil hw before
  have hw'' : ((run c s before).1.step c e).1.waiting = [] := run_waiting_nil hw' [e]
  have hsettled : ((run c s before).1.step c e).1.outcome = some (verdict c e) := by
    rw [step_outcome, hsettling]
    rfl
  rw [run_append_actions, run_quiet_actions hs ho hw hq, run_cons_actions, step_actions_alone hw',
    own_of_settling hsettling, run_settled_actions hw'' hsettled, step_current, run_current, hs, List.append_assoc]
  rfl

end State

/-! ## (4) A send -/

namespace Session

variable (c : Config) (s : Session) (payload : Bytes) (clientId : Option String)

/-- The state in which the script of a send begins. -/
def opened : State := ⟨s.now, s.waiting, .start c clientId payload s.now, none, []⟩

theorem sendRaw_delivery (es : List Event) :
    (s.sendRaw c payload clientId (.events es)).2.delivery
      = match (State.run c (s.opened c payload clientId) es).1.outcome with
        | none => .pending
        | some o => .done (o.map (Response.of payload)) := rfl

theorem sendRaw_trace (es : List Event) :
    (s.sendRaw c payload clientId (.events es)).2.trace
      = openingActions c ++ Deed.actions (State.run c (s.opened c payload clientId) es).2 := by
  show Deed.actions ((openingActions c).map .act ++ (State.run c (s.opened c payload clientId) es).2) = _
  rw [Deed.actions_append, Deed.actions_acts]

theorem sendRaw_said (es : List Event) :
    Deed.said (s.sendRaw c payload clientId (.events es)).2.deeds
      = Deed.said (State.run c (s.opened c payload clientId) es).2 := by
  show Deed.said ((openingActions c).map .act ++ (State.run c (s.opened c payload clientId) es).2) = _
  rw [Deed.said_append, Deed.said_acts, Deed.raised_acts]
  rfl

theorem sendRaw_raised_eq (es : List Event) :
    Deed.raised (s.sendRaw c payload clientId (.events es)).2.deeds
      = Deed.raised (State.run c (s.opened c payload clientId) es).2 := by
  show Deed.raised ((openingActions c).map .act ++ (State.run c (s.opened c payload clientId) es).2) = _
  rw [Deed.raised_append, Deed.raised_acts, Option.none_or]

/-- No exception leaves a listener that only hears of errors that can be reported. -/
theorem sendRaw_raised {es : List Event} (h : ∀ error, .failed error ∈ es → error.reportable = true) :
    (s.sendRaw c payload clientId (.events es)).2.raised = none := by
  rw [Turn.raised, sendRaw_raised_eq]
  exact State.run_raised h

theorem sendRaw_quiet {es : List Event} (hq : Quiet c.timeoutMs es) :
    (s.sendRaw c payload clientId (.events es)).2.delivery = .pending := by
  rw [sendRaw_delivery, State.run_quiet rfl rfl hq]

theorem sendRaw_first {before after : List Event} {e : Event} (hq : Quiet c.timeoutMs before)
    (he : e.settles c.timeoutMs (moved (before ++ [e])) = true) :
    (s.sendRaw c payload clientId (.events (before ++ e :: after))).2.delivery
      = .done ((State.verdict c e).map (Response.of payload)) := by
  rw [sendRaw_delivery, State.run_first rfl rfl hq he]

theorem sendRaw_refused_deeds (error : Thrown) :
    (s.sendRaw c payload clientId (.refused error)).2.deeds = [.act (.connect c.host c.port)] := by
  simp only [sendRaw]
  split <;> rfl

theorem sendRaw_refused_trace (error : Thrown) :
    (s.sendRaw c payload clientId (.refused error)).2.trace = [.connect c.host c.port] := by
  rw [Turn.trace, sendRaw_refused_deeds]
  rfl

/-- A send connects at once, and no event connects again. -/
theorem sendRaw_connects (script : Script) :
    ∃ rest, (s.sendRaw c payload clientId script).2.trace = .connect c.host c.port :: rest ∧
      ∀ host port, .connect host port ∉ rest := by
  cases script with
  | refused error => exact ⟨[], sendRaw_refused_trace c s payload clientId error, by simp⟩
  | events es =>
    refine ⟨_, sendRaw_trace c s payload clientId es, fun host port hm => ?_⟩
    rcases List.mem_append.mp hm with hm | hm
    · split at hm
      · cases hm
      · simp at hm
    · simpa using State.mem_run_actions hm

/-- Only the payload is written. -/
theorem sendRaw_writes {script : Script} {p : Bytes} (h : .write p ∈ (s.sendRaw c payload clientId script).2.trace) :
    p = payload := by
  cases script with
  | refused error => simp [sendRaw_refused_trace] at h
  | events es =>
    rw [sendRaw_trace, openingActions, List.mem_append, List.mem_cons] at h
    rcases h with (h | h) | h
    · cases h
    · split at h
      · cases h
      · simp at h
    · simpa [opened, Attempt.start] using State.mem_run_actions h

theorem sendRaw_opening (script : Script) :
    (s.sendRaw c payload clientId script).2.opening = (Attempt.start c clientId payload s.now).openingRecords c := by
  cases script with
  | refused error => simp only [sendRaw]; split <;> rfl
  | events es => rfl

/-- With a logger a send comes to its deeds once its first lines are written. Then it does what it
    does with the script up to the first event whose listener fails, and crashes as that one fails. -/
theorem sendRaw_shown (l : Log.Logger) (script : Script)
    (hopening : l.cut (s.sendRaw c payload clientId script).2.opening = false) :
    ((s.sendRaw c payload clientId script).2.shown l).trace
      = (s.sendRaw c payload clientId (script.reached l c s.now)).2.trace ∧
    ((s.sendRaw c payload clientId script).2.shown l).crash = script.halt l c s.now := by
  obtain ⟨hshown, hcrash⟩ := Turn.shown_course l hopening
  rw [hshown, hcrash]
  cases script with
  | refused error =>
    rw [Script.reached, sendRaw_refused_trace, sendRaw_refused_deeds]
    exact ⟨rfl, rfl⟩
  | events es =>
    obtain ⟨htrace, hfault⟩ := State.course_run (c := c) (s := s.opened c payload clientId) l es
    have hdeeds : (s.sendRaw c payload clientId (.events es)).2.deeds
        = (openingActions c).map .act ++ (State.run c (s.opened c payload clientId) es).2 := rfl
    rw [Script.reached, sendRaw_trace, hdeeds, Deed.course_acts]
    exact ⟨congrArg (openingActions c ++ ·) htrace, hfault⟩

theorem ownClosing_eq (c : Config) (s : Session) (payload : Bytes) (clientId : Option String) (es : List Event) :
    let state := (State.run c (s.opened c payload clientId) es).1
    (s.sendRaw c payload clientId (.events es)).2.ownClosing
      = ((state.outcome.map fun o => (Settled.closing c state.now ⟨state.current, o, true⟩).records)).getD [] := by
  intro state
  have hopened : (s.opened c payload clientId).Recorded := rfl
  have hrec : state.Recorded := State.run_recorded hopened es
  have hfind : (state.finished.map (Settled.closing c state.now)).find? (·.own)
      = (state.finished.find? (·.own)).map (Settled.closing c state.now) := by
    rw [List.find?_map]
    rfl
  show (((state.finished.map (Settled.closing c state.now)).find? (·.own)).map (·.records)).getD [] = _
  rw [hfind, hrec, Option.map_map, Option.map_map]
  rfl

theorem openingActions_eq (c : Config) :
    openingActions c = .connect c.host c.port :: if 0 < c.timeoutMs then [.timer c.timeoutMs] else [] := by
  unfold openingActions
  by_cases h : c.timeoutMs = 0
  · simp [h]
  · simp [h, Nat.pos_of_ne_zero h]

theorem release_start (c : Config) (clientId : Option String) (payload : Bytes) (t : Clock.Instant) :
    (Attempt.start c clientId payload t).release = (if 0 < c.timeoutMs then [.clearTimer] else []) ++ [.destroy] := by
  unfold Attempt.release Attempt.timed Attempt.start
  by_cases h : c.timeoutMs = 0
  · simp [h]
  · simp [h, Nat.pos_of_ne_zero h]

theorem openingRecords_time (t : Clock.Instant) :
    ∀ r ∈ (Attempt.start c clientId payload t).openingRecords c, r.time = t := by
  intro r hr
  simp only [Attempt.openingRecords, List.mem_cons, List.not_mem_nil, or_false] at hr
  rcases hr with rfl | rfl <;> rfl

/-- Where a send starts at a date, its connection is made with every logger. -/
theorem sendRaw_opening_cut (script : Script) (l : Log.Logger) (dated : Clock.HasDate s.now) :
    l.cut (s.sendRaw c payload clientId script).2.opening = false := by
  refine l.cut_of_dated fun r hr => ?_
  rw [sendRaw_opening] at hr
  rw [openingRecords_time c payload clientId s.now r hr]
  exact dated

/-! ## (5) A send by itself -/

theorem alone_quiet_trace (now : Clock.Instant) {es : List Event} (hq : Quiet c.timeoutMs es) :
    ((Session.start now).sendRaw c payload clientId (.events es)).2.trace
      = (.connect c.host c.port :: if 0 < c.timeoutMs then [.timer c.timeoutMs] else [])
        ++ es.flatMap (Event.writes payload) := by
  rw [sendRaw_trace, openingActions_eq, State.run_quiet_actions rfl rfl rfl hq]

theorem alone_first_trace (now : Clock.Instant) {before after : List Event} {e : Event}
    (hq : Quiet c.timeoutMs before) (he : e.settles c.timeoutMs (moved (before ++ [e])) = true) :
    ((Session.start now).sendRaw c payload clientId (.events (before ++ e :: after))).2.trace
      = (.connect c.host c.port :: if 0 < c.timeoutMs then [.timer c.timeoutMs] else [])
        ++ before.flatMap (Event.writes payload) ++ ((if 0 < c.timeoutMs then [.clearTimer] else []) ++ [.destroy])
        ++ after.flatMap (Event.writes payload) := by
  have hrelease : ((Session.start now).opened c payload clientId).current.release
      = (if 0 < c.timeoutMs then [.clearTimer] else []) ++ [.destroy] := release_start c clientId payload now
  rw [sendRaw_trace, openingActions_eq, State.run_first_actions rfl rfl rfl hq he, hrelease]
  simp only [List.append_assoc]

theorem count_writes {a : Action} {payload : Bytes} (ha : a ≠ .write payload) (es : List Event) :
    (es.flatMap (Event.writes payload)).count a = 0 := by
  rw [List.count_eq_zero]
  intro hm
  obtain ⟨e, -, he⟩ := List.mem_flatMap.mp hm
  cases e <;> simp [Event.writes] at he
  exact ha he

/-- Nothing is given back while nothing settles a send. -/
theorem alone_quiet_counts (now : Clock.Instant) {es : List Event} (hq : Quiet c.timeoutMs es) :
    let trace := ((Session.start now).sendRaw c payload clientId (.events es)).2.trace
    trace.count .destroy = 0 ∧ trace.count .clearTimer = 0 := by
  intro trace
  have ht : trace = _ := alone_quiet_trace c payload clientId now hq
  rw [ht]
  constructor
  · rw [List.count_append, count_writes (by simp) es]
    split <;> rfl
  · rw [List.count_append, count_writes (by simp) es]
    split <;> rfl

/-- What a settled send held is given back once. -/
theorem alone_first_counts (now : Clock.Instant) {before after : List Event} {e : Event}
    (hq : Quiet c.timeoutMs before) (he : e.settles c.timeoutMs (moved (before ++ [e])) = true) :
    let trace := ((Session.start now).sendRaw c payload clientId (.events (before ++ e :: after))).2.trace
    trace.count .destroy = 1 ∧ trace.count .clearTimer = if 0 < c.timeoutMs then 1 else 0 := by
  intro trace
  have ht : trace = _ := alone_first_trace c payload clientId now hq he
  rw [ht]
  constructor
  · simp only [List.count_append, count_writes (show Action.destroy ≠ .write payload by simp)]
    split <;> rfl
  · simp only [List.count_append, count_writes (show Action.clearTimer ≠ .write payload by simp)]
    split <;> rfl

end Session

end Client

end CheckpointRelay
