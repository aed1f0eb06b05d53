/-
  CheckpointRelay.Proofs.Client.Thresholds — what the threshold of its logger is to a client.

  A send shows its lines as one output (`Turn.output`), and what comes of the send can be told
  from how that output ends (`Turn.shown_eq`). Two sends that differ in the threshold only are
  `Thinned` as their outputs are: the results and the traces agree and the lines are those that
  the threshold keeps, unless a line without a date has broken the send of the full logger.
  - `Turn.shown_thinned`: one send, whose closings come at one instant.
  - `Session.make_closings_moment`: the closings of every send do.
  - `Session.perform_thinned` / `perform_kept`: the sends of one client.
  - `Session.make_cut` / `make_shown`: when a send is lost, and what is done of it.
  - `a_threshold_only_filters`: these, with what the logger alone says.
-/

import CheckpointRelay.Proofs.Client.Calls
import CheckpointRelay.Proofs.Client.Results
import CheckpointRelay.Proofs.Log.Thresholds

namespace CheckpointRelay

namespace Log.Logger

variable (l : Logger)

theorem cut_of_full {rs : List Record} (h : l.full.cut rs = false) : l.cut rs = false := by
  simp only [cut, List.any_eq_false, full_enables, Bool.true_and] at h ⊢
  intro r hr
  simp [h r hr]

/-- Where no record has a date, nothing can be written. -/
theorem output_undated {rs : List Record} (h : ∀ r ∈ rs, ¬Clock.HasDate r.time) : (l.output rs).calls = [] := by
  induction rs with
  | nil => rfl
  | cons r rs ih =>
    have hone : (l.outputOne r).calls = [] := by
      unfold outputOne call?
      rw [Clock.stamp?_eq_none (h r List.mem_cons_self)]
      cases l.enables r.level <;> rfl
    rw [output, Output.append]
    split
    · exact hone
    · simp only [hone, ih fun q hq => h q (List.mem_cons_of_mem r hq), List.append_nil]

theorem output_dated {rs : List Record} (h : ∀ r ∈ rs, Clock.HasDate r.time) :
    (l.output rs).calls = kept l.threshold (l.full.output rs).calls := by
  have hfault : (l.full.output rs).fault = none := by
    rw [output_fault, l.full.cut_of_dated h]
    rfl
  rw [(l.output_thinned rs).whole (by simp [hfault])]

end Log.Logger

namespace Client

open Log (kept)

variable (l : Log.Logger)

/-! ## (1) One send -/

namespace Turn

/-- All lines of a send, and the fault that ended them early. -/
def output (t : Turn) : Log.Output :=
  (l.output t.opening).append ((Deed.course l t.deeds).output.append (shownClosings l t.closings))

/-- What comes of a send is to be told from how its output ends. -/
theorem shown_eq (t : Turn) : t.shown l =
    { delivery := match (t.output l).fault with
        | some f => .broken f
        | none => t.delivery
      trace := if l.cut t.opening then [] else (Deed.course l t.deeds).trace
      console := (t.output l).calls
      crash := if l.cut t.opening then none else (Deed.course l t.deeds).output.fault } := by
  have hopening := l.output_fault t.opening
  unfold shown output
  cases hcut : l.cut t.opening with
  | true =>
    rw [hcut, if_pos rfl] at hopening
    rw [Log.Output.append_ended hopening]
    simp only [hopening]
    rfl
  | false =>
    rw [hcut] at hopening
    rw [Log.Output.append_open hopening]
    simp only [hopening]
    cases hcourse : (Deed.course l t.deeds).output.fault with
    | some f => simp only [Log.Output.append_ended hcourse, hcourse, Bool.false_eq_true, if_false]
    | none =>
      rw [Log.Output.append_open hcourse]
      cases (shownClosings l t.closings).fault with
      | some f => simp only [Bool.false_eq_true, if_false, List.append_assoc]
      | none => simp only [Bool.false_eq_true, if_false, List.append_assoc]

variable {l} in
/-- Closings at one instant are all written or none is, whatever the threshold. -/
theorem closings_kept {cs : List Closing} {now : Clock.Instant} (h : ∀ cl ∈ cs, ∀ r ∈ cl.records, r.time = now) :
    (shownClosings l cs).calls = kept l.threshold (shownClosings l.full cs).calls := by
  induction cs with
  | nil => exact (Log.kept_nil _).symm
  | cons cl cs ih =>
    have hcl : (l.output cl.records).calls = kept l.threshold (l.full.output cl.records).calls := by
      have htime := h cl List.mem_cons_self
      by_cases hnow : Clock.HasDate now
      · exact l.output_dated fun r hr => (htime r hr).symm ▸ hnow
      · have hundated : ∀ r ∈ cl.records, ¬Clock.HasDate r.time := fun r hr => (htime r hr).symm ▸ hnow
        rw [l.output_undated hundated, l.full.output_undated hundated, Log.kept_nil]
    simp only [shownClosings, Log.kept_append, hcl, ih fun d hd => h d (List.mem_cons_of_mem cl hd)]

theorem closings_thinned {cs : List Closing} {now : Clock.Instant}
    (h : ∀ cl ∈ cs, ∀ r ∈ cl.records, r.time = now) :
    (shownClosings l.full cs).Thinned l.threshold (shownClosings l cs) := by
  have hcalls := closings_kept (l := l) h
  have hfull := shownClosings_fault l.full cs
  have hlesser := shownClosings_fault l cs
  cases hcut : l.full.cut (((cs.find? (·.own)).map (·.records)).getD []) with
  | true =>
    rw [hcut, if_pos rfl] at hfull
    exact .of_stopped hfull (hcalls ▸ List.prefix_rfl)
  | false =>
    rw [hcut] at hfull
    rw [l.cut_of_full hcut] at hlesser
    refine .of_eq ?_
    show (⟨(shownClosings l cs).calls, (shownClosings l cs).fault⟩ : Log.Output) = _
    rw [hcalls, hfull, hlesser]

theorem course_thinned (ds : List Deed) :
    (Deed.course l.full ds).output.Thinned l.threshold (Deed.course l ds).output := by
  rw [Deed.course_output, Deed.course_output]
  refine (l.output_thinned (Deed.said ds)).append (.of_eq ?_)
  rw [Log.kept_nil]

theorem output_thinned {t : Turn} {now : Clock.Instant} (h : ∀ cl ∈ t.closings, ∀ r ∈ cl.records, r.time = now) :
    (t.output l.full).Thinned l.threshold (t.output l) :=
  (l.output_thinned t.opening).append ((course_thinned l t.deeds).append (closings_thinned l h))

end Turn

/-- The lines that a threshold keeps of a send; all else stays. -/
def Shown.kept (threshold : Option Log.Level) (all : Shown) : Shown :=
  { all with console := Log.kept threshold all.console }

/-- The same send as `all`, shown under a threshold. -/
structure Shown.Thinned (threshold : Option Log.Level) (all lesser : Shown) : Prop where
  begins : Log.kept threshold all.console <+: lesser.console
  whole : all.delivery ≠ .broken .timeOutOfRange → lesser = all.kept threshold

/-- No send comes after one that a line without a date breaks, and none after a crash. -/
def Shown.isLast (shown : Shown) : Bool :=
  match shown.delivery with
  | .broken .timeOutOfRange => true
  | _ => shown.crash.isSome

theorem Shown.unbroken_of_not_last {shown : Shown} (h : shown.isLast = false) :
    shown.delivery ≠ .broken .timeOutOfRange := by
  intro hbroken
  rw [isLast, hbroken] at h
  cases h

theorem Turn.shown_thinned {t : Turn} {now : Clock.Instant} (h : ∀ cl ∈ t.closings, ∀ r ∈ cl.records, r.time = now) :
    (t.shown l.full).Thinned l.threshold (t.shown l) := by
  have hthin := t.output_thinned l h
  refine ⟨?_, ?_⟩
  · rw [shown_eq, shown_eq]
    exact hthin.begins
  · intro hwhole
    -- the full output has not stopped at a date, so the lesser one is what is kept of it
    have hfault : (t.output l.full).fault ≠ some .timeOutOfRange := by
      intro hf
      apply hwhole
      rw [shown_eq, hf]
    have hspoken : l.full.cut t.spoken = false := by
      cases hcut : l.full.cut t.spoken with
      | false => rfl
      | true =>
        rw [shown_delivery, hcut] at hwhole
        exact absurd rfl hwhole
    rw [spoken, l.full.cut_append, l.full.cut_append, Bool.or_eq_false_iff, Bool.or_eq_false_iff] at hspoken
    obtain ⟨⟨hopening, hlive⟩, -⟩ := hspoken
    have htrace : (Deed.course l t.deeds).trace = (Deed.course l.full t.deeds).trace := by
      refine Deed.course_trace_congr fun r hr => ?_
      rw [l.full.cut_single hlive hr, l.cut_of_full (l.full.cut_single hlive hr)]
    have hfaults : (Deed.course l t.deeds).output.fault = (Deed.course l.full t.deeds).output.fault := by
      have hsaid : l.full.cut (Deed.said t.deeds) = false := hlive
      rw [Deed.course_fault, Deed.course_fault, hsaid, l.cut_of_full hsaid]
    rw [shown_eq, shown_eq, hthin.whole hfault, hopening, l.cut_of_full hopening, htrace, hfaults]
    rfl

/-! ## (2) The sends of one client -/

namespace Session

/-- What is said of settled exchanges is said at one instant. -/
theorem make_closings_moment (c : Config) (s : Session) (call : Call) :
    ∃ now, ∀ cl ∈ (s.make c call).2.closings, ∀ r ∈ cl.records, r.time = now := by
  cases hsent : call.sent? with
  | none =>
    obtain ⟨v, f, ho, hv⟩ := refused_of_unsent hsent
    refine ⟨s.now, ?_⟩
    cases v <;> simp [make, ho, send, hv]
  | some sent =>
    rw [make_sent hsent]
    cases call.script with
    | refused error =>
      refine ⟨s.now, ?_⟩
      simp only [sendRaw]
      split
      · simp
      · intro cl hcl
        rw [List.mem_singleton.mp hcl]
        exact closing_time c s.now _
    | events es =>
      refine ⟨(State.run c (s.opened c sent.1 sent.2) es).1.now, ?_⟩
      intro cl hcl
      obtain ⟨a, -, rfl⟩ := List.mem_map.mp hcl
      exact closing_time c _ a

theorem make_thinned (c : Config) (s : Session) (call : Call) :
    ((s.make c call).2.shown l.full).Thinned l.threshold ((s.make c call).2.shown l) := by
  obtain ⟨now, h⟩ := make_closings_moment c s call
  exact Turn.shown_thinned l h

/-- Calls on one client, as they are shown, up to the last. -/
def perform (c : Config) (s : Session) : List Call → List Shown
  | [] => []
  | call :: calls =>
    let shown := (s.make c call).2.shown l
    if shown.isLast then [shown] else shown :: perform c (s.make c call).1 calls

variable {l} {c : Config} {s : Session} {call : Call} {calls : List Call}

theorem perform_last (h : ((s.make c call).2.shown l).isLast = true) :
    perform l c s (call :: calls) = [(s.make c call).2.shown l] := by
  simp only [perform, h, if_true]

theorem perform_next (h : ((s.make c call).2.shown l).isLast = false) :
    perform l c s (call :: calls) = (s.make c call).2.shown l :: perform l c (s.make c call).1 calls := by
  rw [perform, h]
  rfl

theorem perform_begins (l : Log.Logger) (c : Config) (s : Session) (call : Call) (calls : List Call) :
    (perform l c s (call :: calls))[0]? = some ((s.make c call).2.shown l) := by
  cases h : ((s.make c call).2.shown l).isLast with
  | true =>
    rw [perform_last h]
    rfl
  | false =>
    rw [perform_next h]
    rfl

/-- A call that the full logger shows unbroken is the same with the other one, but for its lines. -/
theorem make_kept (h : ((s.make c call).2.shown l.full).delivery ≠ .broken .timeOutOfRange) :
    (s.make c call).2.shown l = ((s.make c call).2.shown l.full).kept l.threshold ∧
      ((s.make c call).2.shown l).isLast = ((s.make c call).2.shown l.full).isLast := by
  have hsame := (make_thinned l c s call).whole h
  refine ⟨hsame, ?_⟩
  rw [hsame]
  rfl

/-- Every send that a client makes with the full logger it makes with the other one, too. -/
theorem perform_thinned {k : Nat} {all : Shown} (h : (perform l.full c s calls)[k]? = some all) :
    ∃ lesser, (perform l c s calls)[k]? = some lesser ∧ all.Thinned l.threshold lesser := by
  induction calls generalizing s k with
  | nil => cases h
  | cons call calls ih =>
    cases k with
    | zero =>
      rw [perform_begins] at h
      cases h
      exact ⟨_, perform_begins l c s call calls, make_thinned l c s call⟩
    | succ k =>
      cases hfull : ((s.make c call).2.shown l.full).isLast with
      | true =>
        rw [perform_last hfull] at h
        cases h
      | false =>
        rw [perform_next hfull] at h
        rw [perform_next ((make_kept (Shown.unbroken_of_not_last hfull)).2.trans hfull)]
        exact ih h

/-- Where the full logger shows all sends unbroken, they are the same with the other one, but for
    their lines. -/
theorem perform_kept (h : ∀ all ∈ perform l.full c s calls, all.delivery ≠ .broken .timeOutOfRange) :
    perform l c s calls = (perform l.full c s calls).map (Shown.kept l.threshold) := by
  induction calls generalizing s with
  | nil => rfl
  | cons call calls ih =>
    have hfull : ((s.make c call).2.shown l.full).delivery ≠ .broken .timeOutOfRange :=
      h _ (List.mem_of_getElem? (perform_begins l.full c s call calls))
    obtain ⟨hsame, hends⟩ := make_kept hfull
    cases hlast : ((s.make c call).2.shown l.full).isLast with
    | true =>
      rw [perform_last hlast, perform_last (hends.trans hlast), hsame]
      rfl
    | false =>
      rw [perform_next hlast] at h ⊢
      rw [perform_next (hends.trans hlast), hsame, ih fun all hall => h all (List.mem_cons_of_mem _ hall)]
      rfl

/-! ## (3) Sends that a line breaks -/

variable (c s call)

/-- Of itself no send ends at a line without a date. -/
theorem make_unbroken : (s.make c call).2.delivery ≠ .broken .timeOutOfRange ∧
    (s.make c call).2.raised ≠ some .timeOutOfRange := by
  cases hsent : call.sent? with
  | none =>
    obtain ⟨v, f, ho, hv⟩ := refused_of_unsent hsent
    cases v <;> simp [make, ho, send, hv, Turn.raised, Deed.raised]
  | some sent =>
    rw [make_sent hsent]
    cases call.script with
    | refused error =>
      rw [Turn.raised, sendRaw_refused_deeds]
      simp only [sendRaw]
      split <;> simp [Deed.raised]
    | events es =>
      rw [sendRaw_delivery, Turn.raised, sendRaw_raised_eq]
      refine ⟨?_, State.run_raised_ne es⟩
      split <;> simp

variable {c s call} in
theorem make_dated (h : call.script.Dated s.now) : ∀ r ∈ (s.make c call).2.spoken, Clock.HasDate r.time := by
  unfold make
  cases call.order with
  | bytes payload clientId => exact sendRaw_dated c s payload clientId h
  | envelope v =>
    by_cases hnull : v = .null
    · subst hnull
      intro r hr
      cases hr
    · exact send_dated c s hnull h

/-- A send is broken at a line of its own that is shown without a date, and only so. -/
theorem make_cut :
    ((s.make c call).2.shown l).delivery = .broken .timeOutOfRange ↔ l.cut (s.make c call).2.spoken = true := by
  obtain ⟨hdelivery, hraised⟩ := make_unbroken c s call
  rw [Turn.shown_delivery]
  cases l.cut (s.make c call).2.spoken with
  | true => exact ⟨fun _ => rfl, fun _ => rfl⟩
  | false =>
    refine ⟨fun h => ?_, fun h => by cases h⟩
    cases hf : (s.make c call).2.raised with
    | none =>
      rw [hf] at h
      exact absurd h hdelivery
    | some f =>
      rw [hf] at h hraised
      cases h
      exact absurd rfl hraised

/-- A script that is cut short where its listener fails makes the send that is shown. -/
theorem make_shown (hopening : l.cut (s.make c call).2.opening = false) :
    ((s.make c call).2.shown l).trace = (s.make c { call with script := call.script.reached l c s.now }).2.trace := by
  cases hsent : call.sent? with
  | none =>
    obtain ⟨v, f, ho, hv⟩ := refused_of_unsent hsent
    have hidle (call' : Call) (h : call'.order = .envelope v) : (s.make c call').2.trace = [] := by
      simp only [make, h, send, hv]
      split <;> rfl
    rw [hidle { call with script := call.script.reached l c s.now } ho]
    exact List.prefix_nil.mp (hidle call ho ▸ Turn.shown_trace_initial l _)
  | some sent =>
    have hsent' : ({ call with script := call.script.reached l c s.now } : Call).sent? = some sent := hsent
    rw [make_sent hsent] at hopening ⊢
    rw [make_sent hsent', (sendRaw_shown c s sent.1 sent.2 l call.script hopening).1]

end Session

/-- A threshold takes away the lines below it and nothing else, from what a logger says and from
    what a client does and gives, unless the full logger meets a line without a date. Even then
    both begin alike. A send is lost just at such a line of its own, and there is none where the
    clock has dates throughout the script. It does nothing if that is a line before the connection,
    and what the script does up to there if it is one of a listener, which ends the program. -/
theorem a_threshold_only_filters (l : Log.Logger) :
    (∀ (s : Log.Session) (steps : List Log.Step),
      (s.heard l.full steps).Thinned l.threshold (s.heard l steps) ∧
      (s.play l.full steps ≠ .error .timeOutOfRange →
        s.play l steps = (s.play l.full steps).map (List.map (kept l.threshold)))) ∧
    (∀ (c : Config) (s : Session) (calls : List Call),
      (∀ (k : Nat) (all : Shown), (s.perform l.full c calls)[k]? = some all →
        ∃ lesser, (s.perform l c calls)[k]? = some lesser ∧ all.Thinned l.threshold lesser) ∧
      ((∀ all ∈ s.perform l.full c calls, all.delivery ≠ .broken .timeOutOfRange) →
        s.perform l c calls = (s.perform l.full c calls).map (Shown.kept l.threshold))) ∧
    (∀ (c : Config) (s : Session) (call : Call),
      let turn := (s.make c call).2
      ((turn.shown l).delivery = .broken .timeOutOfRange ↔ l.cut turn.spoken = true) ∧
      (l.cut turn.opening = true → (turn.shown l).trace = [] ∧ (turn.shown l).crash = none) ∧
      (l.cut turn.opening = false →
        (turn.shown l).trace = (s.make c { call with script := call.script.reached l c s.now }).2.trace ∧
        (turn.shown l).crash = halt l c s.now call.events ∧
        ((turn.shown l).crash = none → (turn.shown l).trace = turn.trace)) ∧
      (call.script.Dated s.now → l.cut turn.spoken = false)) := by
  refine ⟨?_, ?_, ?_⟩
  · intro s steps
    exact ⟨s.heard_thinned l steps, s.play_kept l steps⟩
  · intro c s calls
    exact ⟨fun k all => Session.perform_thinned, Session.perform_kept⟩
  · intro c s call turn
    have hcrash := Session.make_crash l c s call
    refine ⟨Session.make_cut c s call, fun hcut => ⟨?_, ?_⟩, fun hcut => ⟨?_, ?_, ?_⟩,
      fun h => l.cut_of_dated (Session.make_dated h)⟩
    · rw [Turn.shown_trace, if_pos hcut]
    · rw [hcrash, if_pos hcut]
    · exact Session.make_shown c s call hcut
    · rw [hcrash, if_neg (Bool.eq_false_iff.mp hcut)]
    · exact Turn.shown_trace_whole l hcut

/-- At `warn`, of a timer and of two sends there remains what failed: the second send runs into
    the timer of the first, which was left pending. -/
theorem two_sends_at_warn :
    let l : Log.Logger := .forComponent "tcp-client" (some .warn)
    let c : Config := ⟨"127.0.0.1", 8080, 100, 1024, .info⟩
    let calls : List Call :=
      [⟨.bytes [120] none, .events [.connected, .advance 60]⟩,
        ⟨.bytes [121] (some "k"), .events [.advance 50, .failed (.error ⟨"Error", "boom", none, none⟩)]⟩]
    let steps : List Log.Step := [.start "dump" [], .advance 5, .say .warn "slow" [], .stop 0]
    ((Log.Session.start 0).play l steps = ((Log.Session.start 0).play l.full steps).map (List.map (kept l.threshold))) ∧
    ((Session.start 0).perform l c calls = ((Session.start 0).perform l.full c calls).map (Shown.kept l.threshold)) ∧
    ((Session.start 0).perform l.full c calls).map (·.console.length) = [3, 6] ∧
    ((Session.start 0).perform l c calls).map (·.console.length) = [0, 2] := by
  intro l c calls steps
  obtain ⟨hlogger, hclient, -⟩ := a_threshold_only_filters l
  obtain ⟨-, hplay⟩ := hlogger (.start 0) steps
  obtain ⟨-, hperform⟩ := hclient c (.start 0) calls
  refine ⟨hplay ?_, hperform ?_, by decide +kernel, by decide +kernel⟩
  · have hplayed : ((Log.Session.start 0).play l.full steps).toOption.isSome := by decide +kernel
    intro h
    rw [h] at hplayed
    cases hplayed
  · obtain ⟨fault, hgiven⟩ : ∃ fault,
        ((Session.start 0).perform l.full c calls).map (·.delivery) = [.pending, .done (.error fault)] :=
      ⟨_, rfl⟩
    intro all hall hbroken
    have hmem : all.delivery ∈ ((Session.start 0).perform l.full c calls).map (·.delivery) := List.mem_map_of_mem hall
    rw [hgiven, hbroken] at hmem
    simp at hmem

/-- A line below the threshold that has no date: with it the logger stops and the send is lost,
    and without it both go on. -/
theorem a_threshold_that_saves_a_send :
    let l : Log.Logger := .forComponent "tcp-client" (some .error)
    let c : Config := ⟨"127.0.0.1", 8080, 0, 1024, .info⟩
    let call : Call := ⟨.bytes [120] none, .events [.advance 9000000000000000, .data [65, 67, 75]]⟩
    let start : Clock.Instant := 1704067200000
    let steps : List Log.Step := [.advance 9000000000000000, .say .debug "x" []]
    ((Log.Session.start start).play l steps = .ok [[], []] ∧
      (Log.Session.start start).play l.full steps = .error .timeOutOfRange) ∧
    (((Session.start start).perform l c [call]).map (·.delivery) = [.done (.ok ⟨[65, 67, 75], ⟨.ack, "ACK"⟩, 1⟩)] ∧
      ((Session.start start).perform l.full c [call]).map (·.delivery) = [.broken .timeOutOfRange]) := by
  intro l c call start steps
  have hack : Reply.classify [65, 67, 75] = ⟨.ack, "ACK"⟩ := by decide
  have hgiven : ((Session.start start).make c call).2.delivery = .done (.ok ⟨[65, 67, 75], ⟨.ack, "ACK"⟩, 1⟩) := by
    rw [← hack]
    rfl
  have hlesser := Turn.shown_delivery l ((Session.start start).make c call).2
  rw [show l.cut ((Session.start start).make c call).2.spoken = false by decide, hgiven] at hlesser
  have hfull := Turn.shown_delivery l.full ((Session.start start).make c call).2
  rw [show l.full.cut ((Session.start start).make c call).2.spoken = true by decide] at hfull
  refine ⟨⟨rfl, rfl⟩, ?_, ?_⟩
  · have hlast : (((Session.start start).make c call).2.shown l).isLast = false := by
      rw [Shown.isLast, hlesser]
      rfl
    rw [Session.perform_next hlast, List.map_cons, hlesser]
    rfl
  · have hlast : (((Session.start start).make c call).2.shown l.full).isLast = true := by
      rw [Shown.isLast, hfull]
      rfl
    rw [Session.perform_last hlast, List.map_singleton, hfull]
    rfl

end Client

end CheckpointRelay
