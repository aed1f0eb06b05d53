/-
  CheckpointRelay.Proofs.Client.Results — what goes wrong comes back as a result.

  A send answers for everything that can happen to it: an envelope that is none, a connection
  that is refused, an error that is reported. Two things have to be so. A thrown value needs a
  text to become an error (`Thrown.Readable`), and the lines of the send need dates
  (`Script.Dated`).
  - `Fault.ofThrown?_value`: the error that a thrown value becomes.
  - `Session.sendRaw_kept` / `Session.send_kept`: a send is pending, or done with a result.
  - `Session.sendRaw_dated` / `Session.send_dated`: what it says has dates where the script has.
  - `Session.sendRaw_answered` / `sendRaw_failed` / `sendRaw_pending`: the script behind a delivery.
  - `failures_come_back_as_results`: all of it; `failures_that_are_lost`: where each need fails.
-/

import CheckpointRelay.Proofs.Client.Verdict
import CheckpointRelay.Proofs.Envelope.Language
import CheckpointRelay.Proofs.Json.PlainText

namespace CheckpointRelay

open Text.Utf8 (Bytes)

/-! ## (1) Thrown values -/

/-- An error can be made of it: it is one already, or it has a text. -/
def Thrown.Readable : Thrown → Prop
  | .error _ => True
  | .value v => ¬v.Textless

namespace Fault

theorem ofThrown?_value {v : Json} (h : ¬v.Textless) :
    ∃ s, v.HasText s ∧ ofThrown? (.value v) = some (.raised ⟨"Error", s, none, none⟩) := by
  cases hs : v.plain? with
  | none => exact absurd (Json.plain?_eq_none_iff.mp hs) h
  | some s => exact ⟨s, Json.plain?_eq_some_iff.mp hs, by rw [ofThrown?, hs]; rfl⟩

theorem ofThrown?_textless {v : Json} (h : v.Textless) : ofThrown? (.value v) = none := by
  rw [ofThrown?, Json.plain?_eq_none_iff.mpr h]
  rfl

/-- An error is made of exactly the thrown values that are readable. -/
theorem ofThrown?_isSome_iff {t : Thrown} : (∃ f, ofThrown? t = some f) ↔ t.Readable := by
  cases t with
  | error e => exact ⟨fun _ => trivial, fun _ => ⟨.raised e, rfl⟩⟩
  | value v =>
    constructor
    · rintro ⟨f, hf⟩ htextless
      rw [ofThrown?_textless htextless] at hf
      cases hf
    · intro h
      obtain ⟨s, -, hf⟩ := ofThrown?_value h
      exact ⟨_, hf⟩

end Fault

/-! ## (2) Sends -/

namespace Client

/-- The promise of a send is kept: it is pending, or done with a result. -/
def Delivery.Kept : Delivery → Prop
  | .broken _ => False
  | _ => True

/-- An error can be made of what refuses the connection, and of whatever is reported on it. -/
def Script.Readable : Script → Prop
  | .refused error => error.Readable
  | .events es => ∀ error, .failed error ∈ es → error.reportable = true

/-- The clock, at `start` when the script begins, has a date wherever the script takes it. -/
def Script.Dated (start : Clock.Instant) : Script → Prop
  | .refused _ => Clock.HasDate start
  | .events es => ∀ before after, es = before ++ after → Clock.HasDate (start + moved before)

namespace Session

variable (c : Config) (s : Session)

theorem sendRaw_kept (payload : Bytes) (clientId : Option String) {script : Script} (h : script.Readable) :
    (s.sendRaw c payload clientId script).2.delivery.Kept := by
  cases script with
  | refused error =>
    obtain ⟨f, hf⟩ := Fault.ofThrown?_isSome_iff.mpr h
    simp only [sendRaw, hf]
    trivial
  | events es =>
    rw [sendRaw_delivery]
    split <;> trivial

theorem sendRaw_unraised (payload : Bytes) (clientId : Option String) {script : Script} (h : script.Readable) :
    (s.sendRaw c payload clientId script).2.raised = none := by
  cases script with
  | refused error =>
    rw [Turn.raised, sendRaw_refused_deeds]
    rfl
  | events es => exact sendRaw_raised c s payload clientId h

/-- What is no envelope is refused before anything is connected. -/
theorem send_refused {v : Json} (hnull : v ≠ .null) (h : ¬Envelope.IsEnvelope v) (script : Script) :
    let f := Envelope.refusal (Envelope.issues v)
    s.send c v script = (s, ⟨.done (.error f), [s.refusalRecord v f], [], []⟩) := by
  rw [send, Envelope.serialize_refused h]
  cases v with
  | null => exact absurd rfl hnull
  | _ => rfl

theorem send_envelope {v : Json} (h : Envelope.IsEnvelope v) (script : Script) :
    s.send c v script = s.sendRaw c (Text.Utf8.encode v.text) (senderId v) script := by
  rw [send, Envelope.serialize_ok_iff.mpr ⟨h, rfl⟩]

theorem send_kept {v : Json} (hnull : v ≠ .null) {script : Script} (h : script.Readable) :
    (s.send c v script).2.delivery.Kept := by
  by_cases hv : Envelope.IsEnvelope v
  · rw [send_envelope c s hv]
    exact sendRaw_kept c s _ _ h
  · rw [send_refused c s hnull hv]
    trivial

theorem send_unraised (v : Json) {script : Script} (h : script.Readable) : (s.send c v script).2.raised = none := by
  unfold send
  split
  · exact sendRaw_unraised c s _ _ h
  · split <;> rfl

theorem sendRaw_dated (payload : Bytes) (clientId : Option String) {script : Script} (h : script.Dated s.now) :
    ∀ r ∈ (s.sendRaw c payload clientId script).2.spoken, Clock.HasDate r.time := by
  intro r hr
  cases script with
  | refused error =>
    have ht : r.time = s.now := by
      rw [Turn.spoken, List.mem_append, List.mem_append, sendRaw_opening] at hr
      rcases hr with (hr | hr) | hr
      · exact openingRecords_time c payload clientId s.now r hr
      · rw [Turn.live, sendRaw_refused_deeds] at hr
        cases hr
      · rw [Turn.raised, sendRaw_refused_deeds] at hr
        refine ownClosing_time ?_ r hr
        simp only [sendRaw]
        split
        · simp
        · intro cl hcl
          rw [List.mem_singleton.mp hcl]
          exact closing_time c s.now _
    rw [ht]
    exact h
  | events es =>
    obtain ⟨before, after, hes, ht⟩ := sendRaw_spoken_moment c s payload clientId es r hr
    rw [ht]
    exact h before after hes

/-- A script without a break in its dates has one when it begins. -/
theorem hasDate_of_dated {start : Clock.Instant} {script : Script} (h : script.Dated start) :
    Clock.HasDate start := by
  cases script with
  | refused error => exact h
  | events es =>
    have hstart : Clock.HasDate (start + moved []) := h [] es rfl
    rw [moved_nil] at hstart
    exact Int.add_zero start ▸ hstart

theorem send_dated {v : Json} (hnull : v ≠ .null) {script : Script} (h : script.Dated s.now) :
    ∀ r ∈ (s.send c v script).2.spoken, Clock.HasDate r.time := by
  by_cases hv : Envelope.IsEnvelope v
  · rw [send_envelope c s hv]
    exact sendRaw_dated c s _ _ h
  · rw [send_refused c s hnull hv]
    intro r hr
    rw [List.mem_singleton.mp hr]
    exact hasDate_of_dated h

end Session

/-! ## (3) What a delivery tells -/

def Action.isConnect : Action → Bool
  | .connect .. => true
  | _ => false

/-- The bytes that an exchange gives: what the first event that settles it brings. -/
inductive Script.Replies (c : Config) : Script → Bytes → Prop
  | data (before : List Event) (chunk : Bytes) (after : List Event) : Quiet c.timeoutMs before →
      Replies c (.events (before ++ .data chunk :: after)) (chunk.take c.maxResponseBytes)
  | ended (before after : List Event) : Quiet c.timeoutMs before → Replies c (.events (before ++ .ended :: after)) []
  | closed (before after : List Event) : Quiet c.timeoutMs before → Replies c (.events (before ++ .closed :: after)) []

/-- The exchange fails: it is refused, or the first event that settles it is an error or comes too late. -/
inductive Script.Fails (c : Config) : Script → Prop
  | refused (error : Thrown) : Fails c (.refused error)
  | reported (before : List Event) (error : Thrown) (after : List Event) : Quiet c.timeoutMs before →
      error.reportable = true → Fails c (.events (before ++ .failed error :: after))
  | overdue (before : List Event) (ms : Int) (after : List Event) : Quiet c.timeoutMs before →
      0 < c.timeoutMs → c.timeoutMs ≤ moved (before ++ [.advance ms]) →
      Fails c (.events (before ++ .advance ms :: after))

/-- A value is reported on the connection that no connection error can be made of, for this fault. -/
inductive Script.Throws : Script → Fault → Prop
  | reported (before : List Event) (error : Thrown) (after : List Event) (address : String) (f : Fault) :
      Fault.ofSocket address error = .error f → Throws (.events (before ++ .failed error :: after)) f

/-- A listener fails at a line without a date, or at such a value. -/
theorem cause_of_halt {l : Log.Logger} {c : Config} {start : Clock.Instant} {script : Script} {f : Fault}
    (h : script.halt l c start = some f) : f = .timeOutOfRange ∧ ¬script.Dated start ∨ script.Throws f := by
  cases script with
  | refused error => cases h
  | events es =>
    have hes : halt l c start es = some f := h
    rcases reached_or l c start es with ⟨-, hnone⟩ | ⟨e, rest, g, hsplit, hfailure, hhalt⟩
    · rw [hnone] at hes
      cases hes
    · obtain rfl : g = f := Option.some.inj (hhalt.symm.trans hes)
      rw [hsplit]
      cases e with
      | connected =>
        obtain ⟨-, -, hundated, rfl⟩ := failure_of_regular rfl hfailure
        exact Or.inl ⟨rfl, fun hdated => hundated (hdated _ (.connected :: rest) rfl)⟩
      | failed error =>
        simp only [Event.failure] at hfailure
        cases hreport : Fault.ofSocket c.address error with
        | ok _ => simp [hreport] at hfailure
        | error _ =>
          simp only [hreport, Option.some.injEq] at hfailure
          exact Or.inr (.reported _ error rest c.address g (hfailure ▸ hreport))
      | _ => cases hfailure

namespace Turn

/-- What is shown as delivered, if not as broken, was delivered. -/
theorem delivery_of_shown {l : Log.Logger} {t : Turn} {d : Delivery} (h : (t.shown l).delivery = d) (hd : d.Kept) :
    t.delivery = d := by
  have hbroken (f : Fault) : (t.shown l).delivery ≠ .broken f := by
    intro hf
    rw [← h, hf] at hd
    exact hd
  obtain ⟨hcut, hraised⟩ := intact_of_delivery hbroken
  rw [← h, shown_delivery, hcut, hraised]
  rfl

end Turn

namespace Session

variable (c : Config) (payload : Bytes) (clientId : Option String)

theorem sendRaw_connects_once (s : Session) (script : Script) :
    (s.sendRaw c payload clientId script).2.trace.countP Action.isConnect = 1 := by
  obtain ⟨rest, htrace, hrest⟩ := sendRaw_connects c s payload clientId script
  have hnone : rest.countP Action.isConnect = 0 := by
    rw [List.countP_eq_zero]
    intro a ha
    cases a with
    | connect host port => exact absurd ha (hrest host port)
    | _ => exact Bool.false_ne_true
  rw [htrace, List.countP_cons, hnone]
  rfl

/-- Where the script has dates, so has the end of the send. -/
theorem sendRaw_now_dated (s : Session) {script : Script} (h : script.Dated s.now) :
    Clock.HasDate (s.sendRaw c payload clientId script).1.now := by
  cases script with
  | refused error =>
    simp only [sendRaw]
    split <;> exact h
  | events es =>
    have hnow : (s.sendRaw c payload clientId (.events es)).1.now = s.now + moved es :=
      State.run_now c (s.opened c payload clientId) es
    rw [hnow]
    exact h es [] (List.append_nil es).symm

theorem send_now_dated (s : Session) (v : Json) {script : Script} (h : script.Dated s.now) :
    Clock.HasDate (s.send c v script).1.now := by
  unfold send
  split
  · exact sendRaw_now_dated c _ _ s h
  · split <;> exact hasDate_of_dated h

/-- A send crashes as a listener of its script fails. -/
theorem send_crashed {s : Session} {v : Json} {script : Script} {l : Log.Logger} {f : Fault}
    (h : ((s.send c v script).2.shown l).crash = some f) :
    f = .timeOutOfRange ∧ ¬script.Dated s.now ∨ script.Throws f := by
  cases hopening : l.cut (s.send c v script).2.opening with
  | true =>
    rw [Turn.shown_crash, if_pos hopening] at h
    cases h
  | false =>
    cases hv : Envelope.serialize v with
    | ok payload =>
      have hsent : s.send c v script = s.sendRaw c payload (senderId v) script := by
        simp only [send, hv]
      rw [hsent] at h hopening
      exact cause_of_halt ((sendRaw_shown c s payload _ l script hopening).2.symm.trans h)
    | error fault =>
      have hidle : (s.send c v script).2.deeds = [] := by
        simp only [send, hv]
        split <;> rfl
      rw [(Turn.shown_course l hopening).2, hidle] at h
      cases h

/-- Nor does a logger take the end of a send out of the dates. -/
theorem showing_now_dated (s : Session) (v : Json) {script : Script} (l : Log.Logger) (h : script.Dated s.now) :
    Clock.HasDate (s.showing l (s.send c v script)).1.now := by
  rw [showing_eq]
  split
  · exact hasDate_of_dated h
  · exact send_now_dated c s v h

/-- A response is what the first settling event brought, and the connection is given back. -/
theorem sendRaw_answered {now : Clock.Instant} {script : Script} {response : Response}
    (h : ((Session.start now).sendRaw c payload clientId script).2.delivery = .done (.ok response)) :
    script.Replies c response.raw ∧
      ((Session.start now).sendRaw c payload clientId script).2.trace.count .destroy = 1 := by
  cases script with
  | refused error =>
    simp only [sendRaw] at h
    split at h <;> cases h
  | events es =>
    rcases quiet_or_settles c.timeoutMs es with hq | ⟨before, e, after, rfl, hq, he⟩
    · rw [sendRaw_quiet c _ payload clientId hq] at h
      cases h
    · refine ⟨?_, (alone_first_counts c payload clientId now hq he).1⟩
      rw [sendRaw_first c _ payload clientId hq he] at h
      cases e with
      | connected => cases he
      | data chunk => cases h; exact .data before chunk after hq
      | failed error => cases h
      | ended => cases h; exact .ended before after hq
      | closed => cases h; exact .closed before after hq
      | advance ms => cases h

/-- A fault is that of an exchange that failed. -/
theorem sendRaw_failed {s : Session} {script : Script} {f : Fault}
    (h : (s.sendRaw c payload clientId script).2.delivery = .done (.error f) ∨
      (s.sendRaw c payload clientId script).2.delivery = .broken f) : script.Fails c := by
  cases script with
  | refused error => exact .refused error
  | events es =>
    rcases quiet_or_settles c.timeoutMs es with hq | ⟨before, e, after, rfl, hq, he⟩
    · rw [sendRaw_quiet c s payload clientId hq] at h
      rcases h with h | h <;> cases h
    · rw [sendRaw_first c s payload clientId hq he] at h
      cases e with
      | connected => cases he
      | failed error => exact .reported before error after hq he
      | advance ms =>
        rw [Event.settles, Bool.and_eq_true, decide_eq_true_eq, decide_eq_true_eq] at he
        exact .overdue before ms after hq he.1 he.2
      | _ => rcases h with h | h <;> cases h

theorem sendRaw_pending {now : Clock.Instant} {script : Script}
    (h : ((Session.start now).sendRaw c payload clientId script).2.delivery = .pending) :
    ∃ es, script = .events es ∧ Quiet c.timeoutMs es := by
  cases script with
  | refused error =>
    simp only [sendRaw] at h
    split at h <;> cases h
  | events es =>
    rcases quiet_or_settles c.timeoutMs es with hq | ⟨before, e, after, rfl, hq, he⟩
    · exact ⟨es, rfl, hq⟩
    · rw [sendRaw_first c _ payload clientId hq he] at h
      cases h

end Session

/-! ## (4) What becomes of failures -/

/-- A send keeps its promise with every logger, but for a line that is shown without a date. One
    that is said while the script runs does not even break the promise: the program ends. -/
def Turn.ComesBack (t : Turn) (l : Log.Logger) (start : Clock.Instant) (script : Script) : Prop :=
  t.delivery.Kept ∧
  ((t.shown l).delivery = if l.cut t.spoken then .broken .timeOutOfRange else t.delivery) ∧
  ((t.shown l).crash = if l.cut t.opening = false ∧ l.cut t.live = true then some .timeOutOfRange else none) ∧
  (script.Dated start → (t.shown l).delivery = t.delivery ∧ (t.shown l).crash = none)

theorem Turn.comesBack {t : Turn} {l : Log.Logger} {start : Clock.Instant} {script : Script}
    (hkept : t.delivery.Kept) (hraised : t.raised = none)
    (hdated : script.Dated start → ∀ r ∈ t.spoken, Clock.HasDate r.time) : t.ComesBack l start script := by
  obtain ⟨hdelivery, hcrash⟩ := t.shown_of_unraised l hraised
  refine ⟨hkept, hdelivery, hcrash, fun h => ?_⟩
  have hspoken : l.cut t.spoken = false := l.cut_of_dated (hdated h)
  have hlive : l.cut t.live = false := by
    rw [Turn.spoken, l.cut_append, l.cut_append, Bool.or_eq_false_iff, Bool.or_eq_false_iff] at hspoken
    exact hspoken.1.2
  rw [hdelivery, hcrash, hspoken, hlive]
  exact ⟨rfl, if_neg (by simp)⟩

/-- Whatever is sent and whatever the connection does, a send is pending or done with a result,
    and a value that is no envelope is refused as invalid; what a promise fails with comes back
    as an error, an error as it is and a value by its text. Only lines without dates, `null` for
    an envelope and values that no error can be made of are left out. -/
theorem failures_come_back_as_results (c : Config) (s : Session) (l : Log.Logger) (script : Script)
    (readable : script.Readable) :
    (∀ v, v ≠ .null → (s.send c v script).2.ComesBack l s.now script) ∧
    (∀ payload clientId, (s.sendRaw c payload clientId script).2.ComesBack l s.now script) ∧
    (∀ v, v ≠ .null → ¬Envelope.IsEnvelope v → ∃ message,
      (s.send c v script).2.delivery = .done (.error (.validation message none)) ∧ (s.send c v script).2.trace = []) ∧
    (∀ (α : Type) (a : α), Fault.caught? (.ok a) = some (.ok a)) ∧
    (∀ (α : Type) (e : Raised), Fault.caught? (.error (.error e) : Except Thrown α) = some (.error (.raised e))) ∧
    (∀ (α : Type) (v : Json), ¬v.Textless → ∃ text, v.HasText text ∧
      Fault.caught? (.error (.value v) : Except Thrown α) = some (.error (.raised ⟨"Error", text, none, none⟩))) := by
  refine ⟨?_, ?_, ?_, fun α a => rfl, fun α e => rfl, ?_⟩
  · intro v hnull
    exact Turn.comesBack (Session.send_kept c s hnull readable) (Session.send_unraised c s v readable)
      (Session.send_dated c s hnull)
  · intro payload clientId
    exact Turn.comesBack (Session.sendRaw_kept c s payload clientId readable)
      (Session.sendRaw_unraised c s payload clientId readable) (Session.sendRaw_dated c s payload clientId)
  · intro v hnull hv
    rw [Session.send_refused c s hnull hv]
    exact ⟨_, rfl, rfl⟩
  · intro α v hv
    obtain ⟨text, htext, hf⟩ := Fault.ofThrown?_value hv
    refine ⟨text, htext, ?_⟩
    rw [Fault.caught?, hf]
    rfl

/-- A list with a hole in it is thrown at a send, and its text is the reason. -/
theorem a_thrown_list_comes_back :
    let v : Json := .arr [.bool true, .null, .arr [.str "x", .obj []]]
    let c : Config := ⟨"127.0.0.1", 8080, 0, 1024, .info⟩
    let l : Log.Logger := .forComponent "tcp-client" (some .info)
    ¬v.Textless ∧
    (((Session.start 0).sendRaw c [1] none (.refused (.value v))).2.shown l).delivery
      = .done (.error (.raised ⟨"Error", "true,,x,[object Object]", none, none⟩)) := by
  intro v c l
  have hreadable : ¬v.Textless := by
    rw [← Json.plain?_eq_none_iff]
    decide
  obtain ⟨-, hraw, -⟩ := failures_come_back_as_results c (.start 0) l (.refused (.value v)) hreadable
  obtain ⟨-, -, -, hshown⟩ := hraw [1] none
  refine ⟨hreadable, ?_⟩
  have hdate : Clock.HasDate (Session.start 0).now := by decide
  rw [(hshown hdate).1]
  rfl

/-- `null` has no id to be refused by, a thrown value with a `toString` of its own has no text,
    and the line of a reply has no date. -/
theorem failures_that_are_lost :
    let c : Config := ⟨"127.0.0.1", 8080, 0, 1024, .info⟩
    let s : Session := .start 1704067200000
    let l : Log.Logger := .forComponent "tcp-client" (some .info)
    let v : Json := .obj [("toString", .bool true)]
    let script : Script := .events [.advance 9000000000000000, .data [65, 67, 75]]
    ¬((s.send c .null script).2.shown l).delivery.Kept ∧
    ¬((s.sendRaw c [120] none (.refused (.value v))).2.shown l).delivery.Kept ∧
    Fault.caught? (.error (.value v) : Except Thrown Json) = none ∧
    ¬((s.sendRaw c [120] none script).2.shown l).delivery.Kept := by
  intro c s l v script
  have hcut : l.cut (s.sendRaw c [120] none script).2.spoken = true := by decide
  -- each delivery is broken, which computes
  refine ⟨?_, ?_, rfl, ?_⟩
  · exact fun h => h
  · rw [Turn.shown_delivery]
    exact fun h => h
  · rw [Turn.shown_delivery, hcut]
    exact fun h => h

end Client

end CheckpointRelay
