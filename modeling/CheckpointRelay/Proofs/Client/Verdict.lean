/-
  CheckpointRelay.Proofs.Client.Verdict — the first event that settles an exchange decides it.

  `Gives` says what each settling event gives the send, from the event, the configuration and
  the payload alone. What happens before the first settling event and after it does not matter
  to the delivery, except through the clock: a line of the send that its logger shows at an
  instant without a date breaks it.
  - `gives_of_settles`: every settling event of a regular script gives something.
  - `sendRaw_spoken_moment`: a send speaks at instants that its script reaches.
  - `first_settling_event_decides`: the delivery of a send, with any logger, on any session.
  - `a_reply_after_the_last_date`: a reply in time that is lost, for its line has no date.
-/

import CheckpointRelay.Proofs.Client.Settling

namespace CheckpointRelay.Client

open Text.Utf8 (Bytes)

/-! ## (1) What an event gives -/

/-- The delivery that a settling event gives the send that it settles. -/
inductive Gives (c : Config) (payload : Bytes) : Event → Delivery → Prop
  | data (chunk : Bytes) :
      Gives c payload (.data chunk)
        (.done (.ok ⟨chunk.take c.maxResponseBytes, Reply.classify (chunk.take c.maxResponseBytes), payload.length⟩))
  | ended : Gives c payload .ended (.done (.ok ⟨[], ⟨.empty, ""⟩, payload.length⟩))
  | closed : Gives c payload .closed (.done (.ok ⟨[], ⟨.empty, ""⟩, payload.length⟩))
  /-- The error has a code that is a text. -/
  | coded (e : Raised) (code : String) : e.code = some (.str code) →
      Gives c payload (.failed (.error e)) (.done (.error (.connection e.message code c.address (some e.message))))
  | uncoded (e : Raised) : (∀ code, e.code ≠ some (.str code)) →
      Gives c payload (.failed (.error e))
        (.done (.error (.connection e.message "CONNECTION_ERROR" c.address (some e.message))))
  | overdue (ms : Int) : Gives c payload (.advance ms) (.done (.error (.timeout (.ofNat c.timeoutMs) c.address)))

theorem socketCode_of_not_text {code : Option Json} (h : ∀ s, code ≠ some (.str s)) :
    Fault.socketCode code = "CONNECTION_ERROR" := by
  unfold Fault.socketCode
  split
  · rename_i s
    exact absurd rfl (h s)
  · rfl

theorem gives_failed (c : Config) (payload : Bytes) (e : Raised) :
    Gives c payload (.failed (.error e))
      (.done (.error (.connection e.message (Fault.socketCode e.code) c.address (some e.message)))) := by
  by_cases h : ∃ code, e.code = some (.str code)
  · obtain ⟨code, hc⟩ := h
    rw [hc]
    exact Gives.coded e code hc
  · have hno : ∀ code, e.code ≠ some (.str code) := fun code hc => h ⟨code, hc⟩
    rw [socketCode_of_not_text hno]
    exact Gives.uncoded e hno

theorem gives_of_settles {c : Config} (payload : Bytes) {e : Event} {limit : Nat} {total : Int}
    (regular : e.regular = true) (he : e.settles limit total = true) :
    Gives c payload e (.done ((State.verdict c e).map (Response.of payload))) := by
  cases e with
  | connected => cases he
  | data chunk => exact Gives.data chunk
  | failed error =>
    cases error with
    | error e => exact gives_failed c payload e
    | value v => cases regular
  | ended => exact Gives.ended
  | closed => exact Gives.closed
  | advance ms => exact Gives.overdue ms

/-- An event gives at most one delivery. -/
theorem gives_unique {c : Config} {payload : Bytes} {e : Event} {d d' : Delivery} (h : Gives c payload e d)
    (h' : Gives c payload e d') : d = d' := by
  cases h with
  | coded e code hc =>
    cases h' with
    | coded _ code' hc' =>
      rw [hc] at hc'
      cases hc'
      rfl
    | uncoded _ hno => exact absurd hc (hno code)
  | uncoded e hno =>
    cases h' with
    | coded _ code' hc' => exact absurd hc' (hno code')
    | uncoded _ _ => rfl
  | _ => cases h'; rfl

/-! ## (2) When a send speaks -/

theorem State.said_voice (c : Config) (s : State) (e : Event) : ∀ r ∈ Deed.said (s.voice c e), r.time = s.now := by
  intro r hr
  cases e with
  | connected =>
    rw [List.mem_singleton.mp hr]
    rfl
  | failed error =>
    simp only [voice] at hr
    split at hr <;> cases hr
  | _ => cases hr

/-- What is said while a script runs is said at an instant that the script reaches. -/
theorem run_said_moment (c : Config) (s : State) (es : List Event) :
    ∀ r ∈ Deed.said (State.run c s es).2, ∃ before after, es = before ++ after ∧ r.time = s.now + moved before := by
  induction es generalizing s with
  | nil => simp [State.run, Deed.said]
  | cons e es ih =>
    intro r hr
    rw [State.run_cons_deeds, Deed.said_append, State.step_said, List.mem_append] at hr
    rcases hr with hr | hr
    · refine ⟨[], e :: es, rfl, ?_⟩
      rw [State.said_voice c s e r hr, moved_nil]
      exact (Int.add_zero s.now).symm
    · split at hr
      · cases hr
      obtain ⟨before, after, rfl, ht⟩ := ih (s.step c e).1 r hr
      refine ⟨e :: before, after, rfl, ?_⟩
      rw [ht, State.step_now, moved_cons, Int.add_assoc]

theorem closing_time (c : Config) (now : Clock.Instant) (a : Settled) :
    ∀ r ∈ (Settled.closing c now a).records, r.time = now := by
  intro r hr
  simp only [Settled.closing, List.mem_cons, List.not_mem_nil, or_false] at hr
  rcases hr with rfl | rfl
  · rfl
  · cases a.outcome <;> rfl

theorem ownClosing_time {t : Turn} {now : Clock.Instant} (h : ∀ cl ∈ t.closings, ∀ r ∈ cl.records, r.time = now) :
    ∀ r ∈ t.ownClosing, r.time = now := by
  intro r hr
  unfold Turn.ownClosing at hr
  cases hf : t.closings.find? (·.own) with
  | none => simp [hf] at hr
  | some cl =>
    simp only [hf, Option.map_some, Option.getD_some] at hr
    exact h cl (List.mem_of_find?_eq_some hf) r hr

/-- A send speaks at instants that its script reaches. -/
theorem sendRaw_spoken_moment (c : Config) (s : Session) (payload : Bytes) (clientId : Option String)
    (es : List Event) :
    ∀ r ∈ (s.sendRaw c payload clientId (.events es)).2.spoken,
      ∃ before after, es = before ++ after ∧ r.time = s.now + moved before := by
  intro r hr
  rw [Turn.spoken, List.mem_append, List.mem_append, Session.sendRaw_opening] at hr
  rcases hr with (hr | hr) | hr
  · refine ⟨[], es, rfl, ?_⟩
    rw [Session.openingRecords_time c payload clientId s.now r hr, moved_nil]
    exact (Int.add_zero s.now).symm
  · rw [Turn.live, Session.sendRaw_said] at hr
    exact run_said_moment c (s.opened c payload clientId) es r hr
  · split at hr
    · cases hr
    refine ⟨es, [], (List.append_nil es).symm, ?_⟩
    refine (ownClosing_time ?_ r hr).trans (State.run_now c (s.opened c payload clientId) es)
    intro cl hcl
    obtain ⟨a, -, rfl⟩ := List.mem_map.mp hcl
    exact closing_time c _ a

/-- A send speaks between its start and the end of its script. -/
theorem sendRaw_spoken_time (c : Config) (s : Session) (payload : Bytes) (clientId : Option String)
    {es : List Event} (forward : ∀ e ∈ es, 0 ≤ e.span) :
    ∀ r ∈ (s.sendRaw c payload clientId (.events es)).2.spoken, s.now ≤ r.time ∧ r.time ≤ s.now + moved es := by
  intro r hr
  obtain ⟨before, after, rfl, ht⟩ := sendRaw_spoken_moment c s payload clientId es r hr
  obtain ⟨hlow, hhigh⟩ := moved_between forward
  rw [ht]
  unfold Clock.Instant at *
  omega

/-! ## (3) The delivery of a send -/

/-- The first settling event decides the delivery of a send; without one it is pending. Only a
    line of the send that falls on an instant without a date breaks it, and there is none when
    the clock has dates from the start of the send to the end of its script. One that is said while
    the script runs ends the program as well. -/
theorem first_settling_event_decides (c : Config) (s : Session) (payload : Bytes) (clientId : Option String)
    (l : Log.Logger) (es : List Event) (regular : ∀ e ∈ es, e.regular = true) :
    let turn := (s.sendRaw c payload clientId (.events es)).2
    let delivers (d : Delivery) : Prop :=
      (turn.shown l).delivery = if l.cut turn.spoken then .broken .timeOutOfRange else d
    (∀ before e after, es = before ++ e :: after → Quiet c.timeoutMs before →
      e.settles c.timeoutMs (moved (before ++ [e])) = true → ∃ d, Gives c payload e d ∧ delivers d) ∧
    (Quiet c.timeoutMs es → delivers .pending) ∧
    ((turn.shown l).crash
      = if l.cut turn.opening = false ∧ l.cut turn.live = true then some .timeOutOfRange else none) ∧
    (Clock.HasDate s.now → Clock.HasDate (s.now + moved es) → l.cut turn.spoken = false) := by
  intro turn delivers
  have hraised : turn.raised = none :=
    Session.sendRaw_raised c s payload clientId fun error herror => reportable_of_regular (regular _ herror)
  obtain ⟨hdelivery, hcrash⟩ := Turn.shown_of_unraised l hraised
  refine ⟨?_, ?_, hcrash, ?_⟩
  · rintro before e after rfl hq he
    refine ⟨_, gives_of_settles payload (regular e (by simp)) he, ?_⟩
    simp only [delivers, hdelivery]
    simp only [turn, Session.sendRaw_first c s payload clientId hq he]
  · intro hq
    simp only [delivers, hdelivery]
    simp only [turn, Session.sendRaw_quiet c s payload clientId hq]
  · intro hstart hend
    refine l.cut_of_dated fun r hr => ?_
    obtain ⟨h₁, h₂⟩ := sendRaw_spoken_time c s payload clientId (fun e he => span_nonneg (regular e he)) r hr
    exact Clock.hasDate_between hstart hend h₁ h₂

/-- A reply that comes in time, after an hour of silence, from a connection that is reported twice. -/
theorem a_reply_in_time :
    let c : Config := ⟨"127.0.0.1", 8080, 3600001, 2, .info⟩
    let es : List Event := [.connected, .advance 3600000, .data [65, 67, 75], .connected, .closed, .advance 5]
    let l : Log.Logger := .forComponent "tcp-client" (some .info)
    (((Session.start 0).sendRaw c [1, 2, 3] none (.events es)).2.shown l).delivery
      = .done (.ok ⟨[65, 67], Reply.classify [65, 67], 3⟩) := by
  intro c es l
  have hquiet : Quiet c.timeoutMs [.connected, .advance 3600000] := by
    refine (quiet_snoc _ [.connected] _).mpr ⟨(quiet_snoc _ [] _).mpr ⟨quiet_nil _, rfl⟩, rfl⟩
  obtain ⟨hfirst, -, -, hdated⟩ := first_settling_event_decides c (.start 0) [1, 2, 3] none l es (by decide)
  obtain ⟨d, hd, hshown⟩ := hfirst _ _ _ rfl hquiet rfl
  rw [hdated (by decide) (by decide)] at hshown
  rw [gives_unique hd (Gives.data [65, 67, 75])] at hshown
  exact hshown

/-- A reply in time is lost when its line has no date: the send breaks instead. -/
theorem a_reply_after_the_last_date :
    let c : Config := ⟨"127.0.0.1", 8080, 0, 1024, .info⟩
    let before : List Event := [.advance 9000000000000000]
    let reply : Event := .data [65, 67, 75]
    let l : Log.Logger := .forComponent "tcp-client" (some .info)
    (∀ e ∈ before ++ [reply], e.regular = true) ∧ Quiet c.timeoutMs before ∧
    reply.settles c.timeoutMs (moved (before ++ [reply])) = true ∧
    Gives c [120] reply (.done (.ok ⟨[65, 67, 75], ⟨.ack, "ACK"⟩, 1⟩)) ∧
    (((Session.start 1704067200000).sendRaw c [120] none (.events (before ++ [reply]))).2.shown l).delivery
      = .broken .timeOutOfRange := by
  intro c before reply l
  have hack : Reply.classify [65, 67, 75] = ⟨.ack, "ACK"⟩ := by decide
  have hgives : Gives c [120] reply (.done (.ok ⟨[65, 67, 75], Reply.classify [65, 67, 75], 1⟩)) := Gives.data _
  rw [hack] at hgives
  have hcut : l.cut ((Session.start 1704067200000).sendRaw c [120] none (.events (before ++ [reply]))).2.spoken
      = true := by
    decide
  refine ⟨by decide, (quiet_snoc _ [] _).mpr ⟨quiet_nil _, rfl⟩, rfl, hgives, ?_⟩
  rw [Turn.shown_delivery, hcut]
  rfl

end CheckpointRelay.Client
