/-
  CheckpointRelay.Proofs.Client.Scripts — what a script comes to.

  A script is read in two ways. `Event.settles` says of an event, from the limit and from how far
  the script has moved the clock, whether it settles an exchange; a script none of whose events
  does is `Quiet`. `Event.failure` says how the listener of an event fails, from the logger and the
  instant; a script is `reached` up to the first whose listener does.
  - `quiet_or_settles`: every script is quiet or has a first event that settles.
  - `moved_lt_of_quiet`: a quiet script ends before the limit.
  - `reached_or`: every script is reached to its end or up to an event whose listener fails.
  - `failure_of_regular`: a regular event fails at the line of a connection only.
-/

import CheckpointRelay.Proofs.Client.Showing
import Mathlib.Data.List.Induction

namespace CheckpointRelay

open Text.Utf8 (Bytes)

/-! ## (1) Events -/

/-- A connection error can be made of it: it is an error, or an object or a list whose message, if
    there is one, has a text. -/
def Thrown.reportable : Thrown → Bool
  | .error _ => true
  | .value v => v.isContainer && (v.field? "message").all fun m => m.plain?.isSome

theorem Fault.ofSocket_ok_iff (address : String) {error : Thrown} :
    (∃ f, ofSocket address error = .ok f) ↔ error.reportable = true := by
  cases error with
  | error e => exact ⟨fun _ => rfl, fun _ => ⟨_, rfl⟩⟩
  | value v =>
    cases hcontainer : v.isContainer with
    | false =>
      have herror : ∃ f, ofSocket address (.value v) = .error f := by
        simp only [ofSocket, hcontainer, plainText]
        cases v.plain? <;> exact ⟨_, rfl⟩
      obtain ⟨f, hf⟩ := herror
      simp [hf, Thrown.reportable, hcontainer]
    | true =>
      have hok : ofSocket address (.value v)
          = (memberText v "message").map (.connection · (socketCode (v.field? "code")) address none) := by
        simp only [ofSocket, hcontainer]
        cases memberText v "message" <;> rfl
      rw [hok, Thrown.reportable, hcontainer, memberText]
      cases v.field? "message" with
      | none => exact ⟨fun _ => rfl, fun _ => ⟨_, rfl⟩⟩
      | some m => cases hm : m.plain? <;> simp [plainText, Except.map, hm]

/-- What goes wrong with the others has nothing to do with dates. -/
theorem Fault.ofSocket_error_ne {address : String} {error : Thrown} {f : Fault}
    (h : ofSocket address error = .error f) : f ≠ .timeOutOfRange := by
  have hplain {v : Json} {g : Fault} (hg : plainText v = .error g) : g = .noPlainText := by
    unfold plainText at hg
    split at hg <;> cases hg
    rfl
  cases error with
  | error e => cases h
  | value v =>
    rintro rfl
    cases hcontainer : v.isContainer with
    | false =>
      simp only [ofSocket, hcontainer] at h
      cases htext : plainText v with
      | error g =>
        rw [htext] at h
        cases h
        cases hplain htext
      | ok text =>
        rw [htext] at h
        cases h
    | true =>
      simp only [ofSocket, hcontainer] at h
      cases htext : memberText v "message" with
      | error g =>
        rw [htext] at h
        cases h
        unfold memberText at htext
        split at htext
        · cases hplain htext
        · cases htext
      | ok text =>
        rw [htext] at h
        cases h

namespace Client

namespace Event

/-- By how much an event moves the clock. -/
def span : Event → Int
  | .advance ms => ms
  | _ => 0

/-- Connections fail with error objects, and the clock is not turned back. -/
def regular : Event → Bool
  | .failed (.value _) => false
  | .advance ms => 0 ≤ ms
  | _ => true

/-- An event that settles an exchange with this limit, once the clock has moved by `moved` in
    all, this event included. -/
def settles (limit : Nat) (moved : Int) : Event → Bool
  | .connected => false
  | .failed error => error.reportable
  | .advance _ => 0 < limit && limit ≤ moved
  | _ => true

/-- The writes that an event asks for. -/
def writes (payload : Bytes) : Event → List Action
  | .connected => [.write payload]
  | _ => []

/-- How the listener of an event fails that comes at this instant: at the line of a connection, or
    at an error that none can be made of. -/
def failure (l : Log.Logger) (c : Config) (now : Clock.Instant) : Event → Option Fault
  | .connected => if l.enables .debug && !decide (Clock.HasDate now) then some .timeOutOfRange else none
  | .failed error =>
    match Fault.ofSocket c.address error with
    | .ok _ => none
    | .error f => some f
  | _ => none

end Event

/-! ## (2) Scripts -/

/-- By how much a script moves the clock. -/
def moved : List Event → Int
  | [] => 0
  | e :: es => e.span + moved es

/-- The events of a script that begins at an instant, up to the first whose listener fails. -/
def reached (l : Log.Logger) (c : Config) (now : Clock.Instant) : List Event → List Event
  | [] => []
  | e :: es =>
    match e.failure l c now with
    | some _ => []
    | none => e :: reached l c (now + e.span) es

/-- How that listener fails. -/
def halt (l : Log.Logger) (c : Config) (now : Clock.Instant) : List Event → Option Fault
  | [] => none
  | e :: es => (e.failure l c now).or (halt l c (now + e.span) es)

/-- No event of the script settles the exchange. -/
def Quiet (limit : Nat) (es : List Event) : Prop :=
  ∀ before e after, es = before ++ e :: after → e.settles limit (moved (before ++ [e])) = false

@[simp] theorem moved_nil : moved [] = 0 := rfl

theorem moved_cons (e : Event) (es : List Event) : moved (e :: es) = e.span + moved es := rfl

theorem moved_append (es fs : List Event) : moved (es ++ fs) = moved es + moved fs := by
  induction es with
  | nil => rw [List.nil_append, moved_nil, Int.zero_add]
  | cons e es ih => rw [List.cons_append, moved_cons, moved_cons, ih, Int.add_assoc]

theorem elapsed_snoc (t : Int) (es : List Event) (e : Event) : t + moved es + e.span - t = moved (es ++ [e]) := by
  rw [moved_append, moved_cons, moved_nil]
  omega

theorem span_nonneg {e : Event} (h : e.regular = true) : 0 ≤ e.span := by
  cases e <;> simp_all [Event.regular, Event.span]

theorem reportable_of_regular {error : Thrown} (h : (Event.failed error).regular = true) :
    error.reportable = true := by
  cases error with
  | error e => rfl
  | value v => cases h

/-- Events that do not turn the clock back do not turn it back together. -/
theorem moved_nonneg {es : List Event} (forward : ∀ e ∈ es, 0 ≤ e.span) : 0 ≤ moved es := by
  induction es with
  | nil => simp [moved]
  | cons e es ih =>
    have hspan : 0 ≤ e.span := forward e List.mem_cons_self
    have hmoved : 0 ≤ moved es := ih fun d hd => forward d (List.mem_cons_of_mem e hd)
    rw [moved_cons]
    omega

/-- Where a listener fails, the script has not got past its event. -/
theorem reached_or (l : Log.Logger) (c : Config) (now : Clock.Instant) (es : List Event) :
    (reached l c now es = es ∧ halt l c now es = none) ∨
    ∃ e rest f, es = reached l c now es ++ e :: rest ∧ e.failure l c (now + moved (reached l c now es)) = some f ∧
      halt l c now es = some f := by
  induction es generalizing now with
  | nil => exact Or.inl ⟨rfl, rfl⟩
  | cons e es ih =>
    unfold reached halt
    cases hfailure : e.failure l c now with
    | some f =>
      refine Or.inr ⟨e, es, f, rfl, ?_, rfl⟩
      rw [moved_nil, Int.add_zero]
      exact hfailure
    | none =>
      rcases ih (now + e.span) with ⟨hall, hnone⟩ | ⟨d, rest, f, hsplit, hf, hhalt⟩
      · exact Or.inl ⟨congrArg (e :: ·) hall, hnone⟩
      · refine Or.inr ⟨d, rest, f, congrArg (e :: ·) hsplit, ?_, hhalt⟩
        rw [moved_cons, ← Int.add_assoc]
        exact hf

theorem reached_initial (l : Log.Logger) (c : Config) (now : Clock.Instant) (es : List Event) :
    reached l c now es <+: es := by
  rcases reached_or l c now es with ⟨hall, -⟩ | ⟨e, rest, f, hsplit, -⟩
  · exact ⟨[], (List.append_nil _).trans hall⟩
  · exact ⟨e :: rest, hsplit.symm⟩

/-- Where no listener fails, a script is reached to its end. -/
theorem reached_of_halt {l : Log.Logger} {c : Config} {now : Clock.Instant} {es : List Event}
    (h : halt l c now es = none) : reached l c now es = es := by
  rcases reached_or l c now es with ⟨hall, -⟩ | ⟨_, _, _, -, -, hsome⟩
  · exact hall
  · rw [h] at hsome
    cases hsome

/-- The listeners of all events that a script gets to do their work. -/
theorem failure_of_reached {l : Log.Logger} {c : Config} {now : Clock.Instant} {es before after : List Event}
    {e : Event} (h : reached l c now es = before ++ e :: after) : e.failure l c (now + moved before) = none := by
  induction es generalizing now before with
  | nil => simp [reached] at h
  | cons d es ih =>
    unfold reached at h
    cases hfailure : d.failure l c now with
    | some f => simp [hfailure] at h
    | none =>
      simp only [hfailure] at h
      cases before with
      | nil =>
        cases h
        rw [moved_nil, Int.add_zero]
        exact hfailure
      | cons b before =>
        rw [List.cons_append, List.cons.injEq] at h
        obtain ⟨rfl, h⟩ := h
        rw [moved_cons, ← Int.add_assoc]
        exact ih h

/-- Error objects can be reported, so a regular event fails only at the line of a connection. -/
theorem failure_of_regular {l : Log.Logger} {c : Config} {now : Clock.Instant} {e : Event} {f : Fault}
    (regular : e.regular = true) (h : e.failure l c now = some f) :
    e = .connected ∧ l.enables .debug = true ∧ ¬Clock.HasDate now ∧ f = .timeOutOfRange := by
  cases e with
  | connected =>
    simp only [Event.failure] at h
    split at h
    · rename_i hcut
      rw [Bool.and_eq_true, Bool.not_eq_true', decide_eq_false_iff_not] at hcut
      exact ⟨rfl, hcut.1, hcut.2, (Option.some.inj h).symm⟩
    · cases h
  | failed error =>
    cases error with
    | error e => cases h
    | value v => cases regular
  | _ => cases h

/-- The clock of such events stays between their beginning and their end. -/
theorem moved_between {before after : List Event} (forward : ∀ e ∈ before ++ after, 0 ≤ e.span) :
    0 ≤ moved before ∧ moved before ≤ moved (before ++ after) := by
  have hbefore : 0 ≤ moved before := moved_nonneg fun e he => forward e (List.mem_append_left after he)
  have hafter : 0 ≤ moved after := moved_nonneg fun e he => forward e (List.mem_append_right before he)
  rw [moved_append]
  omega

theorem quiet_nil (limit : Nat) : Quiet limit [] := by
  intro before e after h
  simp at h

theorem quiet_snoc (limit : Nat) (es : List Event) (e : Event) :
    Quiet limit (es ++ [e]) ↔ Quiet limit es ∧ e.settles limit (moved (es ++ [e])) = false := by
  constructor
  · intro h
    refine ⟨fun before d after hd => h before d (after ++ [e]) (by simp [hd]), h es e [] rfl⟩
  · rintro ⟨hes, he⟩ before d after h
    -- the cut lies at the last event or before it
    rcases List.eq_nil_or_concat after with rfl | ⟨init, last, rfl⟩
    · obtain ⟨rfl, hd⟩ := List.append_inj' h rfl
      cases hd
      exact he
    · have hinit : es = before ++ d :: init := by
        have h' : es ++ [e] = (before ++ d :: init) ++ [last] := by simpa using h
        exact (List.append_inj' h' rfl).1
      exact hes before d init hinit

/-- A script is quiet or has a first event that settles. -/
theorem quiet_or_settles (limit : Nat) (es : List Event) :
    Quiet limit es ∨ ∃ before e after, es = before ++ e :: after ∧ Quiet limit before ∧
      e.settles limit (moved (before ++ [e])) = true := by
  induction es using List.reverseRecOn with
  | nil => exact Or.inl (quiet_nil limit)
  | append_singleton es x ih =>
    rcases ih with hq | ⟨before, e, after, rfl, hq, he⟩
    · cases hx : x.settles limit (moved (es ++ [x])) with
      | false => exact Or.inl ((quiet_snoc limit es x).mpr ⟨hq, hx⟩)
      | true => exact Or.inr ⟨es, x, [], rfl, hq, hx⟩
    · exact Or.inr ⟨before, e, after ++ [x], by simp, hq, he⟩

/-- A quiet script ends before the limit. -/
theorem moved_lt_of_quiet {limit : Nat} (hlimit : 0 < limit) {es : List Event} (hq : Quiet limit es) :
    moved es < limit := by
  induction es using List.reverseRecOn with
  | nil =>
    rw [moved_nil]
    omega
  | append_singleton es e ih =>
    obtain ⟨hes, he⟩ := (quiet_snoc limit es e).mp hq
    have hbefore : moved es < limit := ih hes
    cases e with
    | advance ms =>
      simp only [Event.settles, hlimit, decide_true, Bool.true_and, decide_eq_false_iff_not] at he
      omega
    | _ => simpa [moved_append, moved_cons, Event.span] using hbefore

/-- A script up to the first event whose listener fails. -/
def Script.reached (l : Log.Logger) (c : Config) (now : Clock.Instant) : Script → Script
  | .refused error => .refused error
  | .events es => .events (Client.reached l c now es)

/-- How that listener fails. -/
def Script.halt (l : Log.Logger) (c : Config) (now : Clock.Instant) : Script → Option Fault
  | .refused _ => none
  | .events es => Client.halt l c now es

end Client

end CheckpointRelay
