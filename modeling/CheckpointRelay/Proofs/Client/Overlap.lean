/-
  CheckpointRelay.Proofs.Client.Overlap — an exchange among the timers of earlier ones.

  Earlier exchanges are known by numbers, and each by the deadline of its timer. The clock takes
  them in `lapsing` order: an event of the script ends those whose deadline it reaches, and each
  that ends gives back one timer and one connection. Nothing else tells the run from the run of
  the same exchange alone.
  - `SameExchange`: two states that differ at most in the other exchanges; `step_same` keeps it.
  - `run_awaits`: the timers left are those whose deadline is still to come.
  - `pieces_among`: event by event, a run does what it does alone, after what lapses.
-/

import CheckpointRelay.Proofs.Client.Verdict

namespace CheckpointRelay.Client

open Text.Utf8 (Bytes)

/-- What the end of an exchange with a timer gives back. -/
def returned : List Action := [.clearTimer, .destroy]

/-- For each event of a script, the numbers whose deadline the clock reaches with it. -/
def lapsing (deadline : Nat → Clock.Instant) (js : List Nat) (now : Clock.Instant) : List Event → List (List Nat)
  | [] => []
  | e :: es =>
    js.filter (fun j => now < deadline j && deadline j ≤ now + e.span) :: lapsing deadline js (now + e.span) es

/-- The timers of the exchanges that wait are those of the numbers whose deadline is to come. -/
def Awaits (waiting : List Attempt) (now : Clock.Instant) (deadline : Nat → Clock.Instant) (js : List Nat) : Prop :=
  waiting.map Attempt.dueAt = (js.filter fun j => now < deadline j).map fun j => some (deadline j)

namespace State

/-- What a run does, event by event. -/
def pieces (c : Config) (s : State) : List Event → List (List Action)
  | [] => []
  | e :: es => Deed.actions (s.step c e).2 :: pieces c (s.step c e).1 es

theorem run_actions_pieces (c : Config) (s : State) (es : List Event) :
    Deed.actions (run c s es).2 = (pieces c s es).flatten := by
  induction es generalizing s with
  | nil => rfl
  | cons e es ih => rw [run_cons_actions, ih, pieces, List.flatten_cons]

theorem length_pieces (c : Config) (s : State) (es : List Event) : (pieces c s es).length = es.length := by
  induction es generalizing s with
  | nil => rfl
  | cons e es ih => simp only [pieces, List.length_cons, ih]

theorem pieces_append (c : Config) (s : State) (es fs : List Event) :
    pieces c s (es ++ fs) = pieces c s es ++ pieces c (run c s es).1 fs := by
  induction es generalizing s with
  | nil => rfl
  | cons e es ih => simp only [List.cons_append, pieces, ih, run_cons_state]

/-- The first events of a script do the first of what it does. -/
theorem pieces_of_initial (c : Config) (s : State) {seen es : List Event} (h : seen <+: es) :
    pieces c s seen = (pieces c s es).take seen.length := by
  obtain ⟨unseen, rfl⟩ := h
  rw [pieces_append, List.take_left' (length_pieces c s seen)]

/-! ## (1) The same exchange -/

/-- States of one exchange, whatever else is under way in them. -/
structure SameExchange (s s₀ : State) : Prop where
  now : s.now = s₀.now
  current : s.current = s₀.current
  outcome : s.outcome = s₀.outcome

variable {c : Config} {s s₀ : State}

theorem settling_same (h : SameExchange s s₀) (e : Event) : s.settling e = s₀.settling e := by
  cases e <;> simp only [settling, decides, h.now, h.current, h.outcome]

theorem own_same (h : SameExchange s s₀) (e : Event) : s.own e = s₀.own e := by
  cases e <;> simp only [own, h.current, settling_same h]

theorem voice_same (h : SameExchange s s₀) (e : Event) : s.voice c e = s₀.voice c e := by
  cases e <;> simp only [voice, h.now]

theorem step_same (h : SameExchange s s₀) (e : Event) : SameExchange (s.step c e).1 (s₀.step c e).1 := by
  refine ⟨?_, ?_, ?_⟩
  · rw [step_now, step_now, h.now]
  · rw [step_current, step_current, h.current]
  · rw [step_outcome, step_outcome, h.outcome, settling_same h]

theorem run_same (h : SameExchange s s₀) (es : List Event) : SameExchange (run c s es).1 (run c s₀ es).1 := by
  induction es generalizing s s₀ with
  | nil => exact h
  | cons e es ih => exact ih (step_same h e)

/-- Runs of one exchange say the same and come to the same exception. -/
theorem run_same_voice (h : SameExchange s s₀) (es : List Event) :
    Deed.said (run c s es).2 = Deed.said (run c s₀ es).2 ∧
      Deed.raised (run c s es).2 = Deed.raised (run c s₀ es).2 := by
  induction es generalizing s s₀ with
  | nil => exact ⟨rfl, rfl⟩
  | cons e es ih =>
    obtain ⟨hsaid, hraised⟩ := ih (step_same (c := c) h e)
    rw [run_cons_deeds, run_cons_deeds, Deed.said_append, Deed.said_append, Deed.raised_append, Deed.raised_append,
      step_said, step_said, step_raised, step_raised, voice_same h, hsaid, hraised]
    exact ⟨rfl, rfl⟩

/-! ## (2) The timers of the others -/

/-- A timer that has run out. -/
def lapsed (now : Clock.Instant) : Option Clock.Instant → Bool
  | some t => t ≤ now
  | none => false

variable {deadline : Nat → Clock.Instant} {js : List Nat}

theorem late_dueAt (h : Awaits s.waiting s.now deadline js) (now : Clock.Instant) :
    (s.waiting.filter (·.due now)).map Attempt.dueAt
      = (js.filter fun j => s.now < deadline j && deadline j ≤ now).map fun j => some (deadline j) := by
  have hfilter : (s.waiting.filter (·.due now)).map Attempt.dueAt
      = (s.waiting.map Attempt.dueAt).filter (lapsed now) := by
    rw [List.filter_map]
    rfl
  rw [hfilter, h, List.filter_map, List.filter_filter]
  congr 2
  funext j
  exact Bool.and_comm _ _

theorem release_of_dueAt {as : List Attempt} {ds : List Nat}
    (h : as.map Attempt.dueAt = ds.map fun j => some (deadline j)) :
    as.flatMap Attempt.release = ds.flatMap fun _ => returned := by
  calc as.flatMap Attempt.release
      = (as.map Attempt.dueAt).flatMap fun d => (if d.isSome then [.clearTimer] else []) ++ [.destroy] := by
        rw [List.flatMap_map]
        rfl
    _ = ds.flatMap fun _ => returned := by
        rw [h, List.flatMap_map]
        rfl

theorem none_between (deadline : Nat → Clock.Instant) (js : List Nat) (now : Clock.Instant) :
    (js.filter fun j => now < deadline j && deadline j ≤ now + (0 : Int)) = [] := by
  rw [List.filter_eq_nil_iff]
  intro j _ h
  rw [Bool.and_eq_true, decide_eq_true_eq, decide_eq_true_eq] at h
  unfold Clock.Instant at *
  omega

/-- An event ends the exchanges whose deadline the clock reaches with it. -/
theorem late_among (h : Awaits s.waiting s.now deadline js) (e : Event) :
    (s.late e).flatMap Attempt.release
      = (js.filter fun j => s.now < deadline j && deadline j ≤ s.now + e.span).flatMap fun _ => returned := by
  cases e with
  | advance ms => exact release_of_dueAt (late_dueAt h (s.now + ms))
  | _ => exact (congrArg (List.flatMap fun _ => returned) (none_between deadline js s.now)).symm

theorem step_awaits (h : Awaits s.waiting s.now deadline js) {e : Event} (forward : 0 ≤ e.span) :
    Awaits (s.step c e).1.waiting (s.step c e).1.now deadline js := by
  cases e with
  | advance ms =>
    have hkept : (s.kept (.advance ms)).map Attempt.dueAt
        = (s.waiting.map Attempt.dueAt).filter fun d => !lapsed (s.now + ms) d := by
      rw [List.filter_map]
      rfl
    rw [Awaits, step_waiting, step_now, hkept, h, List.filter_map, List.filter_filter]
    congr 1
    -- the clock goes forward, so a deadline beyond the new instant is beyond the old one
    refine List.filter_congr fun j _ => ?_
    have hms : (Event.advance ms).span = ms := rfl
    rw [Bool.eq_iff_iff]
    simp only [lapsed, Function.comp, Bool.and_eq_true, Bool.not_eq_true', decide_eq_false_iff_not, decide_eq_true_eq]
    unfold Clock.Instant at *
    omega
  | _ =>
    simp only [Awaits, step_waiting, kept, step_now, Event.span, Int.add_zero]
    exact h

/-- The timers left after a script are those whose deadline is still to come. -/
theorem run_awaits (h : Awaits s.waiting s.now deadline js) {es : List Event} (forward : ∀ e ∈ es, 0 ≤ e.span) :
    Awaits (run c s es).1.waiting (run c s es).1.now deadline js := by
  induction es generalizing s with
  | nil => exact h
  | cons e es ih =>
    rw [run_cons_state]
    exact ih (step_awaits h (forward e List.mem_cons_self)) fun d hd => forward d (List.mem_cons_of_mem e hd)

/-- Event by event, a run among earlier exchanges does what it does alone, after what lapses. -/
theorem pieces_among (h : Awaits s.waiting s.now deadline js) (same : SameExchange s s₀) (alone : s₀.waiting = [])
    {es : List Event} (forward : ∀ e ∈ es, 0 ≤ e.span) :
    pieces c s es
      = List.zipWith (fun ended own => (ended.flatMap fun _ => returned) ++ own) (lapsing deadline js s.now es)
          (pieces c s₀ es) := by
  induction es generalizing s s₀ with
  | nil => rfl
  | cons e es ih =>
    have hrest : ∀ d ∈ es, 0 ≤ d.span := fun d hd => forward d (List.mem_cons_of_mem e hd)
    have ih := ih (step_awaits (c := c) h (forward e List.mem_cons_self)) (step_same same e)
      (run_waiting_nil (c := c) alone [e]) hrest
    rw [pieces, ih, step_actions, late_among h, own_same same, step_now, lapsing, pieces, List.zipWith_cons_cons,
      step_actions_alone alone]

end State

end CheckpointRelay.Client
