/-
  CheckpointRelay.Proofs.Client.Calls — calls on one client, one after the other.

  A client keeps the timers of the calls that it left undecided, and nothing else of them. Calls
  are known by their number. Number `j` leaves a timer when its delivery is pending and the
  client has a limit; the timer is due at `deadline`, and `endings` says with which event of
  which later call it runs out.
  - `awaits_before`: before each call, the timers that live are those left and still to come.
  - `make_delivery` / `make_spoken`: a call gives and says what it gives and says alone.
  - `make_trace`: event by event, it does what it does alone, after what lapses.
  - `afterShown_eq`: with a logger, the calls that do not get to connect may be left out.
  - `endings_nodup`: over all calls, no timer runs out twice.
  - `calls_do_not_interfere`: the three together, with the trace of each call.
-/

import CheckpointRelay.Proofs.Client.Overlap
import Mathlib.Data.List.Nodup

namespace CheckpointRelay.Client

open Text.Utf8 (Bytes)

/-- What a client is asked to send. -/
inductive Order where
  | envelope (v : Json)
  | bytes (payload : Bytes) (clientId : Option String)

/-- An order, and what its connection does. -/
structure Call where
  order : Order
  script : Script

namespace Call

/-- The bytes of an order and in whose name they go; nothing for an envelope that is refused. -/
def sent? (call : Call) : Option (Bytes × Option String) :=
  match call.order with
  | .bytes payload clientId => some (payload, clientId)
  | .envelope v => (Envelope.serialize v).toOption.map fun payload => (payload, Session.senderId v)

/-- The exchange that a call makes; there is none without a connection. -/
def exchange? (call : Call) : Option (Bytes × Option String × List Event) :=
  match call.script with
  | .refused _ => none
  | .events es => call.sent?.map fun (payload, clientId) => (payload, clientId, es)

/-- The events that the exchange of a call comes to see. -/
def events (call : Call) : List Event := (call.exchange?.map (·.2.2)).getD []

/-- What a call made by itself at an instant does, event by event. -/
def pieces (c : Config) (call : Call) (now : Clock.Instant) : List (List Action) :=
  match call.exchange? with
  | none => []
  | some (payload, clientId, es) => State.pieces c ((Session.start now).opened c payload clientId) es

theorem length_pieces (c : Config) (call : Call) (now : Clock.Instant) :
    (call.pieces c now).length = call.events.length := by
  rw [Call.events, Call.pieces]
  cases call.exchange? with
  | none => rfl
  | some exchange => exact State.length_pieces c _ exchange.2.2

end Call

namespace Session

def make (c : Config) (s : Session) (call : Call) : Session × Turn :=
  match call.order with
  | .bytes payload clientId => s.sendRaw c payload clientId call.script
  | .envelope v => s.send c v call.script

/-- The session after some calls. -/
def after (c : Config) (s : Session) (calls : List Call) : Session := calls.foldl (fun s call => (s.make c call).1) s

variable {c : Config} {s : Session} {call : Call}

/-! ## (1) One call -/

theorem make_sent {payload : Bytes} {clientId : Option String} (h : call.sent? = some (payload, clientId)) :
    s.make c call = s.sendRaw c payload clientId call.script := by
  unfold Call.sent? at h
  unfold make
  cases ho : call.order with
  | bytes p id =>
    rw [ho] at h
    cases h
    rfl
  | envelope v =>
    rw [ho] at h
    cases hv : Envelope.serialize v with
    | error f => simp [hv, Except.toOption] at h
    | ok p =>
      simp only [hv, Except.toOption, Option.map_some, Option.some.injEq, Prod.mk.injEq] at h
      obtain ⟨rfl, rfl⟩ := h
      simp only [send, hv]

theorem make_exchange {payload : Bytes} {clientId : Option String} {es : List Event}
    (h : call.exchange? = some (payload, clientId, es)) :
    s.make c call = s.sendRaw c payload clientId (.events es) := by
  unfold Call.exchange? at h
  cases hscript : call.script with
  | refused error => simp [hscript] at h
  | events fs =>
    simp only [hscript, Option.map_eq_some_iff] at h
    obtain ⟨⟨p, id⟩, hsent, heq⟩ := h
    cases heq
    rw [make_sent hsent, hscript]

/-- A call that changes nothing: what it says depends on the instant only, what it gives and does
    not even on that. -/
structure Still (c : Config) (call : Call) (turn : Clock.Instant → Turn) : Prop where
  make : ∀ s : Session, s.make c call = (s, turn s.now)
  delivery : ∀ t t', (turn t).delivery = (turn t').delivery
  trace : ∀ t t', (turn t).trace = (turn t').trace
  silent : ∀ t, (turn t).live = [] ∧ (turn t).raised = none
  decided : ∀ t, (turn t).delivery ≠ .pending

/-- What is not sent is an envelope that is refused. -/
theorem refused_of_unsent (h : call.sent? = none) :
    ∃ v f, call.order = .envelope v ∧ Envelope.serialize v = .error f := by
  unfold Call.sent? at h
  cases ho : call.order with
  | bytes p id => simp [ho] at h
  | envelope v =>
    cases hv : Envelope.serialize v with
    | ok p => simp [ho, hv, Except.toOption] at h
    | error f => exact ⟨v, f, rfl, hv⟩

theorem still_refused {sent : Bytes × Option String} {error : Thrown} (hsent : call.sent? = some sent)
    (hscript : call.script = .refused error) : ∃ turn, Still c call turn := by
  let opening (t : Clock.Instant) : List Log.Record := (Attempt.start c sent.2 sent.1 t).openingRecords c
  cases hf : Fault.ofThrown? error with
  | none =>
    refine ⟨fun t => ⟨.broken .noPlainText, opening t, [.act (.connect c.host c.port)], []⟩, fun s => ?_,
      fun _ _ => rfl, fun _ _ => rfl, fun _ => ⟨rfl, rfl⟩, by simp⟩
    simp [make_sent hsent, hscript, sendRaw, hf, opening]
  | some f =>
    let closing (t : Clock.Instant) : Closing := Settled.closing c t ⟨Attempt.start c sent.2 sent.1 t, .error f, true⟩
    refine ⟨fun t => ⟨.done (.error f), opening t, [.act (.connect c.host c.port)], [closing t]⟩, fun s => ?_,
      fun _ _ => rfl, fun _ _ => rfl, fun _ => ⟨rfl, rfl⟩, by simp⟩
    simp [make_sent hsent, hscript, sendRaw, hf, opening, closing]

theorem still_unsent {v : Json} {f : Fault} (ho : call.order = .envelope v) (hv : Envelope.serialize v = .error f) :
    ∃ turn, Still c call turn := by
  by_cases hnull : v = .null
  · subst hnull
    refine ⟨fun _ => ⟨.broken (.memberOfNull "id"), [], [], []⟩, fun s => ?_,
      fun _ _ => rfl, fun _ _ => rfl, fun _ => ⟨rfl, rfl⟩, by simp⟩
    simp [make, ho, send, hv]
  · refine ⟨fun t => ⟨.done (.error f), [(Session.start t).refusalRecord v f], [], []⟩, fun s => ?_,
      fun _ _ => rfl, fun _ _ => rfl, fun _ => ⟨rfl, rfl⟩, by simp⟩
    cases v with
    | null => exact absurd rfl hnull
    | _ => simp only [make, ho, send, hv, refusalRecord, start]

theorem make_still (h : call.exchange? = none) : ∃ turn, Still c call turn := by
  unfold Call.exchange? at h
  cases hsent : call.sent? with
  | some sent =>
    cases hscript : call.script with
    | events es => simp [hscript, hsent] at h
    | refused error => exact still_refused hsent hscript
  | none =>
    obtain ⟨v, f, ho, hv⟩ := refused_of_unsent hsent
    exact still_unsent ho hv

/-! ## (2) A call by itself -/

/-- A call gives the same on every session of the client. -/
theorem make_delivery (c : Config) (s s' : Session) (call : Call) :
    (s.make c call).2.delivery = (s'.make c call).2.delivery := by
  cases h : call.exchange? with
  | none =>
    obtain ⟨turn, still⟩ := make_still (c := c) h
    rw [still.make, still.make]
    exact still.delivery _ _
  | some exchange =>
    obtain ⟨payload, clientId, es⟩ := exchange
    rw [make_exchange h, make_exchange h]
    rcases quiet_or_settles c.timeoutMs es with hq | ⟨before, e, after, rfl, hq, he⟩
    · rw [sendRaw_quiet c s payload clientId hq, sendRaw_quiet c s' payload clientId hq]
    · rw [sendRaw_first c s payload clientId hq he, sendRaw_first c s' payload clientId hq he]

/-- A call by itself does the same at every instant. -/
theorem alone_trace (c : Config) (t t' : Clock.Instant) (call : Call) :
    ((Session.start t).make c call).2.trace = ((Session.start t').make c call).2.trace := by
  cases h : call.exchange? with
  | none =>
    obtain ⟨turn, still⟩ := make_still (c := c) h
    rw [still.make, still.make]
    exact still.trace _ _
  | some exchange =>
    obtain ⟨payload, clientId, es⟩ := exchange
    rw [make_exchange h, make_exchange h]
    rcases quiet_or_settles c.timeoutMs es with hq | ⟨before, e, after, rfl, hq, he⟩
    · rw [alone_quiet_trace c payload clientId t hq, alone_quiet_trace c payload clientId t' hq]
    · rw [alone_first_trace c payload clientId t hq he, alone_first_trace c payload clientId t' hq he]

theorem sendRaw_waiting (c : Config) (s : Session) (payload : Bytes) (clientId : Option String) (es : List Event) :
    (s.sendRaw c payload clientId (.events es)).1.waiting
      = remaining (State.run c (s.opened c payload clientId) es).1 := rfl

theorem opened_same (c : Config) (s : Session) (payload : Bytes) (clientId : Option String) :
    State.SameExchange (s.opened c payload clientId) ((Session.start s.now).opened c payload clientId) :=
  ⟨rfl, rfl, rfl⟩

/-- While its script runs, a call says what it says alone, and comes to the same exception. -/
theorem make_voice (c : Config) (s : Session) (call : Call) :
    (s.make c call).2.live = ((Session.start s.now).make c call).2.live ∧
      (s.make c call).2.raised = ((Session.start s.now).make c call).2.raised := by
  cases h : call.exchange? with
  | none =>
    obtain ⟨turn, still⟩ := make_still (c := c) h
    rw [still.make, still.make]
    exact ⟨rfl, rfl⟩
  | some exchange =>
    obtain ⟨payload, clientId, es⟩ := exchange
    obtain ⟨hsaid, hraised⟩ := State.run_same_voice (c := c) (opened_same c s payload clientId) es
    rw [make_exchange h, make_exchange h, Turn.live, Turn.live, sendRaw_said, sendRaw_said, Turn.raised, Turn.raised,
      sendRaw_raised_eq, sendRaw_raised_eq]
    exact ⟨hsaid, hraised⟩

/-- A call says of itself what it says when it is made alone at the same instant. -/
theorem make_spoken (c : Config) (s : Session) (call : Call) :
    (s.make c call).2.spoken = ((Session.start s.now).make c call).2.spoken := by
  cases h : call.exchange? with
  | none =>
    obtain ⟨turn, still⟩ := make_still (c := c) h
    rw [still.make, still.make]
    rfl
  | some exchange =>
    obtain ⟨payload, clientId, es⟩ := exchange
    have same := State.run_same (c := c) (opened_same c s payload clientId) es
    obtain ⟨hlive, hraised⟩ := make_voice c s call
    rw [make_exchange h, make_exchange h] at hlive hraised ⊢
    rw [Turn.spoken, Turn.spoken, sendRaw_opening, sendRaw_opening, hlive, hraised, ownClosing_eq, ownClosing_eq,
      same.now, same.current, same.outcome]
    rfl

theorem make_opening (c : Config) (s : Session) (call : Call) :
    (s.make c call).2.opening = ((Session.start s.now).make c call).2.opening := by
  cases h : call.exchange? with
  | none =>
    obtain ⟨turn, still⟩ := make_still (c := c) h
    rw [still.make, still.make]
    rfl
  | some exchange =>
    obtain ⟨payload, clientId, es⟩ := exchange
    rw [make_exchange h, make_exchange h, sendRaw_opening, sendRaw_opening]
    rfl

/-- Before it connects, a call speaks at the instant at which it is made. -/
theorem make_opening_time (c : Config) (s : Session) (call : Call) :
    ∀ r ∈ (s.make c call).2.opening, r.time = s.now := by
  cases hsent : call.sent? with
  | some sent =>
    rw [make_sent hsent, sendRaw_opening]
    exact openingRecords_time c _ _ s.now
  | none =>
    obtain ⟨v, f, ho, hv⟩ := refused_of_unsent hsent
    cases v <;> simp [make, ho, send, hv, refusalRecord]

/-! ## (3) The timers that calls leave -/

theorem make_now (c : Config) (s : Session) (call : Call) : (s.make c call).1.now = s.now + moved call.events := by
  unfold Call.events
  cases h : call.exchange? with
  | none =>
    obtain ⟨turn, still⟩ := make_still (c := c) h
    simp [still.make]
  | some exchange =>
    obtain ⟨payload, clientId, es⟩ := exchange
    rw [make_exchange h]
    exact State.run_now c (s.opened c payload clientId) es

end Session

/-- The delivery is still to come. -/
def Delivery.isPending : Delivery → Bool
  | .pending => true
  | _ => false

section Timers

variable (c : Config) (t : Clock.Instant) (calls : List Call)

/-- The instant at which a call is made, when the first one is made at `t`. -/
def madeAt (k : Nat) : Clock.Instant := t + moved ((calls.take k).flatMap Call.events)

/-- The instant at which the timer of a call is due. -/
def deadline (j : Nat) : Clock.Instant := madeAt t calls j + c.timeoutMs

/-- A call has a timer, and made by itself it is pending. -/
def leavesTimer (j : Nat) : Bool :=
  0 < c.timeoutMs &&
    calls[j]?.any fun call => ((Session.start (madeAt t calls j)).make c call).2.delivery.isPending

/-- The calls before number `k` that leave a timer. -/
def leftBefore (k : Nat) : List Nat := (List.range k).filter (leavesTimer c t calls)

/-- For each event of call number `k`, the earlier calls whose timers run out with it. -/
def endings (k : Nat) : List (List Nat) :=
  lapsing (deadline c t calls) (leftBefore c t calls k) (madeAt t calls k) ((calls[k]?.map Call.events).getD [])

end Timers

namespace Session

variable {c : Config} {t : Clock.Instant} {calls : List Call}

theorem after_take_succ {s : Session} {k : Nat} {call : Call} (h : calls[k]? = some call) :
    s.after c (calls.take (k + 1)) = ((s.after c (calls.take k)).make c call).1 := by
  rw [List.take_add_one, h, after, List.foldl_append]
  rfl

theorem madeAt_succ {k : Nat} {call : Call} (h : calls[k]? = some call) :
    madeAt t calls (k + 1) = madeAt t calls k + moved call.events := by
  rw [madeAt, madeAt, List.take_add_one, h, Option.toList_some, List.flatMap_append, moved_append,
    List.flatMap_singleton, Int.add_assoc]

theorem now_before {k : Nat} (hk : k ≤ calls.length) :
    ((Session.start t).after c (calls.take k)).now = madeAt t calls k := by
  induction k with
  | zero => simp [after, madeAt, start]
  | succ k ih =>
    have hcall : calls[k]? = some calls[k] := List.getElem?_eq_getElem hk
    rw [after_take_succ hcall, make_now, ih (by omega), madeAt_succ hcall]

theorem awaits_append {as bs : List Attempt} {now : Clock.Instant} {d : Nat → Clock.Instant} {js ks : List Nat}
    (ha : Awaits as now d js) (hb : Awaits bs now d ks) : Awaits (as ++ bs) now d (js ++ ks) := by
  unfold Awaits at *
  rw [List.map_append, List.filter_append, List.map_append, ha, hb]

theorem leavesTimer_eq (s : Session) {k : Nat} {call : Call} (h : calls[k]? = some call) :
    leavesTimer c t calls k = (0 < c.timeoutMs && (s.make c call).2.delivery.isPending) := by
  rw [leavesTimer, h, Option.any_some, make_delivery c _ s call]

theorem leftBefore_succ (k : Nat) :
    leftBefore c t calls (k + 1) = leftBefore c t calls k ++ if leavesTimer c t calls k then [k] else [] := by
  rw [leftBefore, List.range_succ, List.filter_append, List.filter_cons, List.filter_nil]
  rfl

/-- An exchange that is left undecided is quiet: it is still to time out. -/
theorem awaits_current {payload : Bytes} {clientId : Option String} {es : List Event} {s : Session} {j : Nat}
    {d : Nat → Clock.Instant} (hd : d j = s.now + c.timeoutMs) (hlimit : 0 < c.timeoutMs)
    (hnone : (State.run c (s.opened c payload clientId) es).1.outcome = none) :
    Awaits [(State.run c (s.opened c payload clientId) es).1.current] (s.now + moved es) d [j] := by
  have hq : Quiet c.timeoutMs es := by
    rcases quiet_or_settles c.timeoutMs es with hq | ⟨before, e, after, rfl, hq, he⟩
    · exact hq
    · rw [State.run_first rfl rfl hq he] at hnone
      cases hnone
  have hlt : s.now + moved es < d j := by
    have := moved_lt_of_quiet hlimit hq
    rw [hd]
    unfold Clock.Instant at *
    omega
  have hzero : c.timeoutMs ≠ 0 := by omega
  unfold Awaits
  rw [State.run_current, List.filter_cons, List.filter_nil, decide_eq_true hlt]
  simp [opened, Attempt.start, hzero, hd]

/-- The timers that live after a call are those left so far and still to come. -/
theorem awaits_make {k : Nat} {call : Call} (h : calls[k]? = some call) (forward : ∀ e ∈ call.events, 0 ≤ e.span)
    {s : Session} (hnow : s.now = madeAt t calls k)
    (hw : Awaits s.waiting s.now (deadline c t calls) (leftBefore c t calls k)) :
    Awaits (s.make c call).1.waiting (s.make c call).1.now (deadline c t calls) (leftBefore c t calls (k + 1)) := by
  rw [leftBefore_succ, leavesTimer_eq s h]
  cases hex : call.exchange? with
  | none =>
    obtain ⟨turn, still⟩ := make_still (c := c) hex
    have hdecided : (turn s.now).delivery.isPending = false := by
      cases hd : (turn s.now).delivery with
      | pending => exact absurd hd (still.decided s.now)
      | _ => rfl
    simp only [still.make, hdecided, Bool.and_false, Bool.false_eq_true, if_false, List.append_nil]
    exact hw
  | some exchange =>
    obtain ⟨payload, clientId, es⟩ := exchange
    have hes : call.events = es := by simp [Call.events, hex]
    rw [hes] at forward
    have hpending : (s.sendRaw c payload clientId (.events es)).2.delivery.isPending
        = (State.run c (s.opened c payload clientId) es).1.outcome.isNone := by
      rw [sendRaw_delivery]
      cases (State.run c (s.opened c payload clientId) es).1.outcome <;> rfl
    have htimed : (State.run c (s.opened c payload clientId) es).1.current.timed = decide (0 < c.timeoutMs) := by
      rw [State.run_current]
      by_cases h0 : c.timeoutMs = 0
      · simp [opened, Attempt.start, Attempt.timed, h0]
      · simp [opened, Attempt.start, Attempt.timed, h0, Nat.pos_of_ne_zero h0]
    have hrun := State.run_awaits (c := c) (s := s.opened c payload clientId) hw forward
    rw [State.run_now] at hrun
    rw [make_now, hes, make_exchange hex, hpending, sendRaw_waiting, remaining, htimed, Bool.and_comm]
    refine awaits_append hrun ?_
    -- the call itself waits on exactly when it is counted among those that leave a timer
    by_cases hleft : decide (0 < c.timeoutMs) && (State.run c (s.opened c payload clientId) es).1.outcome.isNone
    · rw [if_pos hleft, if_pos hleft]
      rw [Bool.and_eq_true, decide_eq_true_eq, Option.isNone_iff_eq_none] at hleft
      exact awaits_current (by rw [deadline, hnow]) hleft.1 hleft.2
    · rw [if_neg hleft, if_neg hleft]
      rfl

/-- Before each call the timers that live are those left so far and still to come. -/
theorem awaits_before (forward : ∀ call ∈ calls, ∀ e ∈ call.events, 0 ≤ e.span) {k : Nat} (hk : k ≤ calls.length) :
    Awaits ((Session.start t).after c (calls.take k)).waiting ((Session.start t).after c (calls.take k)).now
      (deadline c t calls) (leftBefore c t calls k) := by
  induction k with
  | zero => rfl
  | succ k ih =>
    have hcall : calls[k]? = some calls[k] := List.getElem?_eq_getElem hk
    rw [after_take_succ hcall]
    exact awaits_make hcall (forward _ (List.getElem_mem hk)) (now_before (by omega)) (ih (by omega))

theorem shown_still {s : Session} {call : Call} {turn : Clock.Instant → Turn} (still : Still c call turn)
    (l : Log.Logger) (hopening : l.cut (s.make c call).2.opening = false) :
    ((s.make c call).2.shown l).trace = (turn s.now).trace := by
  rw [still.make] at hopening ⊢
  refine Turn.shown_trace_whole l hopening ?_
  rw [Turn.shown_crash, hopening, (still.silent s.now).1, (still.silent s.now).2]
  rfl

/-- What an exchange does on a session, event by event. -/
theorem shown_exchange {s : Session} {call : Call} {payload : Bytes} {clientId : Option String} {es : List Event}
    (h : call.exchange? = some (payload, clientId, es)) (l : Log.Logger)
    (hopening : l.cut (s.make c call).2.opening = false) :
    ((s.make c call).2.shown l).trace = openingActions c
      ++ ((State.pieces c (s.opened c payload clientId) es).take (reached l c s.now es).length).flatten := by
  rw [make_exchange h] at hopening ⊢
  rw [(sendRaw_shown c s payload clientId l (.events es) hopening).1, Script.reached, sendRaw_trace,
    State.run_actions_pieces, State.pieces_of_initial c _ (reached_initial l c s.now es)]

/-- What a call does is what it does alone, after what lapses with each event, and with a logger
    both get to the same event. -/
theorem make_trace (forward : ∀ call ∈ calls, ∀ e ∈ call.events, 0 ≤ e.span) {k : Nat} {call : Call}
    (h : calls[k]? = some call) :
    let s := (Session.start t).after c (calls.take k)
    let turn := (s.make c call).2
    let alone := ((Session.start s.now).make c call).2
    let pieces := List.zipWith (fun ended own => (ended.flatMap fun _ => returned) ++ own) (endings c t calls k)
      (call.pieces c s.now)
    ∃ opening, alone.trace = opening ++ (call.pieces c s.now).flatten ∧ turn.trace = opening ++ pieces.flatten ∧
      ∀ l : Log.Logger, l.cut turn.opening = false →
        let heard := (reached l c s.now call.events).length
        (alone.shown l).trace = opening ++ ((call.pieces c s.now).take heard).flatten ∧
        (turn.shown l).trace = opening ++ (pieces.take heard).flatten := by
  intro s turn alone pieces
  obtain ⟨hk, hget⟩ := List.getElem?_eq_some_iff.mp h
  have hnow : s.now = madeAt t calls k := now_before (Nat.le_of_lt hk)
  have hforward : ∀ e ∈ call.events, 0 ≤ e.span := forward call (List.mem_of_getElem? h)
  have hopening (l : Log.Logger) (hcut : l.cut turn.opening = false) : l.cut alone.opening = false := by
    rw [← make_opening]
    exact hcut
  cases hex : call.exchange? with
  | none =>
    obtain ⟨still, hstill⟩ := make_still (c := c) hex
    have hpieces : call.pieces c s.now = [] := by
      simp only [Call.pieces, hex]
    have hmade : turn.trace = (still s.now).trace := congrArg (fun made => made.2.trace) (hstill.make s)
    have halone : alone.trace = (still s.now).trace := congrArg (fun made => made.2.trace) (hstill.make _)
    refine ⟨(still s.now).trace, ?_, ?_, fun l hcut => ?_⟩
    · rw [halone, hpieces, List.flatten_nil, List.append_nil]
    · simp only [pieces, hmade, hpieces, List.zipWith_nil_right, List.flatten_nil, List.append_nil]
    · simp only [pieces, hpieces, List.zipWith_nil_right, List.take_nil, List.flatten_nil, List.append_nil]
      exact ⟨shown_still hstill l (hopening l hcut), shown_still hstill l hcut⟩
  | some exchange =>
    obtain ⟨payload, clientId, es⟩ := exchange
    have hes : call.events = es := by simp [Call.events, hex]
    have hown : call.pieces c s.now = State.pieces c ((Session.start s.now).opened c payload clientId) es := by
      simp only [Call.pieces, hex]
    have hw : Awaits (s.opened c payload clientId).waiting (s.opened c payload clientId).now (deadline c t calls)
        (leftBefore c t calls k) := awaits_before forward (Nat.le_of_lt hk)
    have hpieces : State.pieces c (s.opened c payload clientId) es = pieces := by
      rw [hes] at hforward
      simp only [pieces, hown, State.pieces_among hw (opened_same c s payload clientId) rfl hforward, endings, h,
        Option.map_some, Option.getD_some, hes, ← hnow]
      rfl
    refine ⟨openingActions c, ?_, ?_, fun l hcut => ?_⟩
    · simp only [alone, make_exchange hex, sendRaw_trace, State.run_actions_pieces, hown]
    · simp only [turn, make_exchange hex, sendRaw_trace, State.run_actions_pieces, hpieces]
    · rw [hes, ← hpieces, hown]
      exact ⟨shown_exchange hex l (hopening l hcut), shown_exchange hex l hcut⟩

/-- A call crashes as the listener does that its script gets to. -/
theorem make_crash (l : Log.Logger) (c : Config) (s : Session) (call : Call) :
    ((s.make c call).2.shown l).crash
      = if l.cut (s.make c call).2.opening then none else halt l c s.now call.events := by
  cases hopening : l.cut (s.make c call).2.opening with
  | true => rw [Turn.shown_crash, hopening, if_pos rfl, if_pos rfl]
  | false =>
    cases hex : call.exchange? with
    | none =>
      obtain ⟨turn, still⟩ := make_still (c := c) hex
      have hevents : call.events = [] := by simp [Call.events, hex]
      rw [Turn.shown_crash, hopening, still.make, (still.silent s.now).1, (still.silent s.now).2, hevents]
      rfl
    | some exchange =>
      obtain ⟨payload, clientId, es⟩ := exchange
      have hevents : call.events = es := by simp [Call.events, hex]
      rw [make_exchange hex] at hopening ⊢
      rw [(sendRaw_shown c s payload clientId l (.events es) hopening).2, hevents]
      rfl

/-! ## (4) With a logger -/

/-- The session after some calls that are shown. -/
def afterShown (l : Log.Logger) (c : Config) (s : Session) (calls : List Call) : Session :=
  calls.foldl (fun s call => (s.showing l (s.make c call)).1) s

/-- The calls that get to connect, for their first lines are written. -/
def begun (l : Log.Logger) (c : Config) (s : Session) : List Call → List Call
  | [] => []
  | call :: calls =>
    if l.cut (s.make c call).2.opening then begun l c s calls
    else call :: begun l c (s.make c call).1 calls

theorem begun_sublist (l : Log.Logger) (c : Config) (s : Session) (calls : List Call) :
    (s.begun l c calls).Sublist calls := by
  induction calls generalizing s with
  | nil => exact List.Sublist.slnil
  | cons call calls ih =>
    rw [begun]
    split
    · exact (ih s).cons call
    · exact (ih _).cons_cons call

/-- The other calls leave nothing behind. -/
theorem afterShown_eq (l : Log.Logger) (c : Config) (s : Session) (calls : List Call) :
    s.afterShown l c calls = s.after c (s.begun l c calls) := by
  induction calls generalizing s with
  | nil => rfl
  | cons call calls ih =>
    have hshown : s.afterShown l c (call :: calls) = (s.showing l (s.make c call)).1.afterShown l c calls := rfl
    rw [hshown, showing_eq, begun]
    cases l.cut (s.make c call).2.opening with
    | true => exact ih s
    | false => exact ih (s.make c call).1

end Session

/-! ## (5) No timer runs out twice -/

section Lapsing

variable {d : Nat → Clock.Instant} {js : List Nat} {now : Clock.Instant} {es : List Event}

theorem length_lapsing : (lapsing d js now es).length = es.length := by
  induction es generalizing now with
  | nil => rfl
  | cons e es ih => simp only [lapsing, List.length_cons, ih]

/-- What lapses during a script has its deadline between the script's beginning and its end. -/
theorem mem_lapsing (forward : ∀ e ∈ es, 0 ≤ e.span) {j : Nat} (h : j ∈ (lapsing d js now es).flatten) :
    j ∈ js ∧ now < d j ∧ d j ≤ now + moved es := by
  induction es generalizing now with
  | nil => simp [lapsing] at h
  | cons e es ih =>
    have hspan : 0 ≤ e.span := forward e List.mem_cons_self
    have hes : ∀ f ∈ es, 0 ≤ f.span := fun f hf => forward f (List.mem_cons_of_mem e hf)
    have hmoved : 0 ≤ moved es := moved_nonneg hes
    rw [moved_cons]
    rw [lapsing, List.flatten_cons, List.mem_append] at h
    rcases h with h | h
    · rw [List.mem_filter, Bool.and_eq_true, decide_eq_true_eq, decide_eq_true_eq] at h
      refine ⟨h.1, h.2.1, ?_⟩
      have := h.2.2
      unfold Clock.Instant at *
      omega
    · obtain ⟨hj, hlt, hle⟩ := ih hes h
      unfold Clock.Instant at *
      exact ⟨hj, by omega, by omega⟩

theorem lapsing_nodup (hjs : js.Nodup) (forward : ∀ e ∈ es, 0 ≤ e.span) : (lapsing d js now es).flatten.Nodup := by
  induction es generalizing now with
  | nil => exact List.nodup_nil
  | cons e es ih =>
    have hes : ∀ f ∈ es, 0 ≤ f.span := fun f hf => forward f (List.mem_cons_of_mem e hf)
    rw [lapsing, List.flatten_cons, List.nodup_append]
    refine ⟨hjs.filter _, ih hes, ?_⟩
    rintro i hi j hj rfl
    rw [List.mem_filter, Bool.and_eq_true, decide_eq_true_eq, decide_eq_true_eq] at hi
    have hle := hi.2.2
    obtain ⟨-, hlt, -⟩ := mem_lapsing hes hj
    unfold Clock.Instant at *
    omega

end Lapsing

variable {c : Config} {t : Clock.Instant} {calls : List Call}

theorem madeAt_mono (forward : ∀ call ∈ calls, ∀ e ∈ call.events, 0 ≤ e.span) {k m : Nat} (hkm : k ≤ m)
    (hm : m ≤ calls.length) : madeAt t calls k ≤ madeAt t calls m := by
  induction m with
  | zero =>
    obtain rfl : k = 0 := by omega
    exact Int.le_refl _
  | succ m ih =>
    rcases Nat.lt_or_eq_of_le hkm with hlt | rfl
    · have hcall : calls[m]? = some calls[m] := List.getElem?_eq_getElem hm
      have hstep : 0 ≤ moved calls[m].events := moved_nonneg (forward _ (List.getElem_mem hm))
      have hprev := ih (by omega) (by omega)
      rw [Session.madeAt_succ hcall]
      unfold Clock.Instant at *
      omega
    · exact Int.le_refl _

/-- What runs out during a call has its deadline between the start of the call and the next one. -/
theorem mem_endings (forward : ∀ call ∈ calls, ∀ e ∈ call.events, 0 ≤ e.span) {k j : Nat} (hk : k < calls.length)
    (h : j ∈ (endings c t calls k).flatten) :
    j ∈ leftBefore c t calls k ∧ madeAt t calls k < deadline c t calls j ∧
      deadline c t calls j ≤ madeAt t calls (k + 1) := by
  have hcall : calls[k]? = some calls[k] := List.getElem?_eq_getElem hk
  rw [endings, hcall] at h
  rw [Session.madeAt_succ hcall]
  exact mem_lapsing (forward _ (List.getElem_mem hk)) h

/-- Over all calls, no timer runs out twice. -/
theorem endings_nodup (forward : ∀ call ∈ calls, ∀ e ∈ call.events, 0 ≤ e.span) :
    ((List.range calls.length).flatMap fun k => (endings c t calls k).flatten).Nodup := by
  rw [List.nodup_flatMap]
  constructor
  · intro k hk
    have hk := List.mem_range.mp hk
    have hcall : calls[k]? = some calls[k] := List.getElem?_eq_getElem hk
    rw [endings, hcall]
    exact lapsing_nodup (List.nodup_range.filter _) (forward _ (List.getElem_mem hk))
  · refine List.pairwise_lt_range.imp_of_mem ?_
    intro k m hk hm hkm j hjk hjm
    have hk := List.mem_range.mp hk
    have hm := List.mem_range.mp hm
    obtain ⟨-, -, hle⟩ := mem_endings forward hk hjk
    obtain ⟨-, hlt, -⟩ := mem_endings forward hm hjm
    -- one deadline cannot lie in the spans of two calls
    have hmono := madeAt_mono (t := t) forward (show k + 1 ≤ m from hkm) (Nat.le_of_lt hm)
    unfold Clock.Instant at *
    omega

/-! ## (6) Calls on one client -/

theorem length_endings {k : Nat} {call : Call} (h : calls[k]? = some call) (now : Clock.Instant) :
    (endings c t calls k).length = (call.pieces c now).length := by
  rw [endings, h, Option.map_some, Option.getD_some, length_lapsing, Call.length_pieces]

/-- A call gives what it gives alone. It does what it does alone, but for one timer and one
    connection of each earlier call that is still pending and whose deadline an event reaches;
    and no call is ended so twice, nor one that is not pending. With a logger, a call whose first
    lines cannot be written does nothing, and leaves the timers of the earlier ones to the calls
    that follow. Otherwise it gets to the same event of its script as it does alone, and to the
    last one unless it crashes. -/
theorem calls_do_not_interfere (c : Config) (t : Clock.Instant) (calls : List Call)
    (forward : ∀ call ∈ calls, ∀ e ∈ call.events, 0 ≤ e.span) :
    (∀ k call, calls[k]? = some call →
      let s := (Session.start t).after c (calls.take k)
      let turn := (s.make c call).2
      let alone (now : Clock.Instant) : Turn := ((Session.start now).make c call).2
      let pieces := List.zipWith (fun ended own => (ended.flatMap fun _ => returned) ++ own) (endings c t calls k)
        (call.pieces c s.now)
      s.now = madeAt t calls k ∧
      (∀ now, turn.delivery = (alone now).delivery) ∧
      (∀ l : Log.Logger, (turn.shown l).delivery = ((alone s.now).shown l).delivery ∧
        (turn.shown l).crash = ((alone s.now).shown l).crash) ∧
      (∀ l : Log.Logger, Clock.HasDate s.now → l.cut turn.opening = false) ∧
      (∀ now, (alone now).trace = (alone s.now).trace) ∧
      (endings c t calls k).length = (call.pieces c s.now).length ∧
      ∃ opening, (alone s.now).trace = opening ++ (call.pieces c s.now).flatten ∧
        turn.trace = opening ++ pieces.flatten ∧
        ∀ l : Log.Logger,
          (l.cut turn.opening = true → (turn.shown l).trace = [] ∧ (s.showing l (s.make c call)).1 = s) ∧
          (l.cut turn.opening = false → (s.showing l (s.make c call)).1 = (s.make c call).1 ∧
            let heard := (reached l c s.now call.events).length
            ((alone s.now).shown l).trace = opening ++ ((call.pieces c s.now).take heard).flatten ∧
            (turn.shown l).trace = opening ++ (pieces.take heard).flatten ∧
            ((turn.shown l).crash = none → heard = pieces.length))) ∧
    (∀ l : Log.Logger, ((Session.start t).begun l c calls).Sublist calls ∧
      (Session.start t).afterShown l c calls = (Session.start t).after c ((Session.start t).begun l c calls)) ∧
    ((List.range calls.length).flatMap fun k => (endings c t calls k).flatten).Nodup ∧
    ∀ k < calls.length, ∀ j ∈ (endings c t calls k).flatten, j < k ∧ 0 < c.timeoutMs ∧
      ∃ call, calls[j]? = some call ∧
        (((Session.start t).after c (calls.take j)).make c call).2.delivery = .pending := by
  refine ⟨?_, fun l => ⟨Session.begun_sublist l c _ calls, Session.afterShown_eq l c _ calls⟩,
    endings_nodup forward, ?_⟩
  · intro k call h s turn alone pieces
    obtain ⟨hk, -⟩ := List.getElem?_eq_some_iff.mp h
    obtain ⟨opening, halone, hturn, hshown⟩ := Session.make_trace (c := c) (t := t) forward h
    refine ⟨Session.now_before (Nat.le_of_lt hk), fun now => Session.make_delivery c s _ call, fun l => ?_, ?_,
      fun now => Session.alone_trace c now s.now call, length_endings h s.now, opening, halone, hturn, fun l => ?_⟩
    · obtain ⟨hlive, hraised⟩ := Session.make_voice c s call
      have hopening := Session.make_opening c s call
      rw [Turn.shown_delivery, Turn.shown_delivery, Turn.shown_crash, Turn.shown_crash]
      simp only [turn, alone, Session.make_spoken c s call, Session.make_delivery c s (.start s.now) call, hlive,
        hraised, hopening, and_self]
    · intro l hnow
      refine l.cut_of_dated fun r hr => ?_
      rw [Session.make_opening_time c s call r hr]
      exact hnow
    · rw [Session.showing_eq]
      refine ⟨fun hcut => ⟨?_, if_pos hcut⟩, fun hcut => ⟨?_, ?_⟩⟩
      · rw [Turn.shown_trace, if_pos hcut]
      · simp only [turn] at hcut
        simp only [hcut, Bool.false_eq_true, if_false]
      obtain ⟨hshownAlone, hshownTurn⟩ := hshown l hcut
      refine ⟨hshownAlone, hshownTurn, fun hcrash => ?_⟩
      have hhalt : halt l c s.now call.events = none := by
        rw [← hcrash, Session.make_crash, if_neg (Bool.eq_false_iff.mp hcut)]
      rw [reached_of_halt hhalt, List.length_zipWith, length_endings h s.now, Call.length_pieces, Nat.min_self]
  · intro k hk j hj
    obtain ⟨hleft, -, -⟩ := mem_endings forward hk hj
    rw [leftBefore, List.mem_filter, List.mem_range] at hleft
    obtain ⟨hjk, hleaves⟩ := hleft
    have hcall : calls[j]? = some calls[j] := List.getElem?_eq_getElem (by omega)
    rw [Session.leavesTimer_eq ((Session.start t).after c (calls.take j)) hcall, Bool.and_eq_true,
      decide_eq_true_eq] at hleaves
    refine ⟨hjk, hleaves.1, calls[j], hcall, ?_⟩
    have hpending := hleaves.2
    unfold Delivery.isPending at hpending
    split at hpending
    · assumption
    · cases hpending

/-- A call that is answered in time, while the timer of the call before it runs out. -/
theorem a_timer_runs_out_in_the_next_call :
    let c : Config := ⟨"127.0.0.1", 8080, 100, 1024, .info⟩
    let calls : List Call :=
      [⟨.bytes [1] none, .events [.connected, .advance 60]⟩, ⟨.bytes [2] none, .events [.advance 50, .ended]⟩]
    let s := (Session.start 0).after c (calls.take 1)
    (s.make c ⟨.bytes [2] none, .events [.advance 50, .ended]⟩).2.trace
      = [.connect "127.0.0.1" 8080, .timer 100, .clearTimer, .destroy, .clearTimer, .destroy] := by
  intro c calls s
  obtain ⟨hcalls, -, -⟩ := calls_do_not_interfere c 0 calls (by decide)
  obtain ⟨-, -, -, -, -, -, opening, halone, hturn, -⟩ := hcalls 1 _ rfl
  have hopening : opening = [.connect "127.0.0.1" 8080, .timer 100] := by
    refine List.append_cancel_right (halone.symm.trans ?_)
    rfl
  rw [hturn, hopening]
  rfl

end CheckpointRelay.Client
