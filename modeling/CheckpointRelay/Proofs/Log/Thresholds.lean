/-
  CheckpointRelay.Proofs.Log.Thresholds — a threshold takes lines away and changes none.

  A logger is compared with the one that is like it but shows every level (`Logger.full`). A
  threshold keeps the lines of its level and of those above it (`kept`). One thing more can tell
  the two apart: the logger that shows more meets more records, so it may stop at one without a
  date that the other one passes over. Two outputs of the same records are `Thinned`: the lesser
  one begins with what the threshold keeps of the full one, and it is just that, with the same
  fault, unless a record without a date has stopped the full one.
  - `output_thinned`: the outputs of any records.
  - `heard_thinned`: all that one caller hears of its calls, timers and all.
  - `heard_of_play`: which is what is played, one step after the other.
  - `play_kept`: the same step by step.
-/

import CheckpointRelay.Log.Timer

namespace CheckpointRelay.Log

/-! ## (1) What a threshold keeps -/

/-- The channels of a level and of the levels above it. -/
def Level.upward : Level → List Console.Channel
  | .debug => [.debug, .info, .warn, .error]
  | .info => [.info, .warn, .error]
  | .warn => [.warn, .error]
  | .error => [.error]

/-- The lines that a threshold keeps; all of them where there is none. -/
def kept (threshold : Option Level) (lines : List Console.Call) : List Console.Call :=
  match threshold with
  | none => lines
  | some t => lines.filter fun line => t.upward.contains line.channel

@[simp] theorem kept_nil (threshold : Option Level) : kept threshold [] = [] := by
  cases threshold <;> rfl

theorem kept_append (threshold : Option Level) (as bs : List Console.Call) :
    kept threshold (as ++ bs) = kept threshold as ++ kept threshold bs := by
  cases threshold with
  | none => rfl
  | some t => exact List.filter_append as bs

namespace Output

variable {a b : Output}

/-- An output that has ended goes no further. -/
theorem append_ended {f : Fault} (h : a.fault = some f) : a.append b = a := by
  simp only [append, h]

theorem append_open (h : a.fault = none) : a.append b = ⟨a.calls ++ b.calls, b.fault⟩ := by
  simp only [append, h]

theorem append_assoc (a b c : Output) : (a.append b).append c = a.append (b.append c) := by
  cases ha : a.fault with
  | some f => rw [append_ended ha, append_ended ha, append_ended ha]
  | none =>
    rw [append_open ha, append_open ha]
    cases hb : b.fault with
    | some f => rw [append_ended hb, append_ended rfl, hb]
    | none => rw [append_open hb, append_open rfl, List.append_assoc]

end Output

/-- The output of the same records as `all`, under a threshold. -/
structure Output.Thinned (threshold : Option Level) (all lesser : Output) : Prop where
  begins : kept threshold all.calls <+: lesser.calls
  whole : all.fault ≠ some .timeOutOfRange → lesser = ⟨kept threshold all.calls, all.fault⟩

namespace Output.Thinned

variable {threshold : Option Level} {a a' b b' : Output}

theorem of_eq (h : a' = ⟨kept threshold a.calls, a.fault⟩) : a.Thinned threshold a' := by
  subst h
  exact ⟨List.prefix_rfl, fun _ => rfl⟩

/-- A full output that has stopped at a record without a date ends nothing else. -/
theorem of_stopped (hfault : a.fault = some .timeOutOfRange) (h : kept threshold a.calls <+: a'.calls) :
    a.Thinned threshold a' :=
  ⟨h, fun hne => absurd hfault hne⟩

theorem append (ha : a.Thinned threshold a') (hb : b.Thinned threshold b') :
    (a.append b).Thinned threshold (a'.append b') := by
  cases hfault : a.fault with
  | none =>
    have ha' : a' = ⟨kept threshold a.calls, none⟩ := by
      have hwhole := ha.whole
      rw [hfault] at hwhole
      exact hwhole (by simp)
    subst ha'
    rw [append_open hfault, append_open rfl]
    refine ⟨?_, ?_⟩
    · rw [kept_append]
      exact (List.prefix_append_right_inj _).mpr hb.begins
    · intro hne
      rw [hb.whole hne, kept_append]
  | some f =>
    rw [append_ended hfault]
    by_cases hdate : f = .timeOutOfRange
    · -- what the lesser output goes on with is behind all that the full one has
      subst hdate
      refine of_stopped hfault (ha.begins.trans ?_)
      cases ha' : a'.fault with
      | some g => simp only [append_ended ha', List.prefix_rfl]
      | none =>
        rw [append_open ha']
        exact List.prefix_append _ _
    · have ha' : a' = ⟨kept threshold a.calls, some f⟩ := by
        have hwhole := ha.whole
        rw [hfault] at hwhole
        apply hwhole
        intro h
        exact hdate (Option.some.inj h)
      refine of_eq ?_
      rw [ha', append_ended rfl, hfault]

end Output.Thinned

/-! ## (2) Loggers -/

namespace Logger

variable (l : Logger)

/-- The same logger, showing every level. -/
def full : Logger := { l with threshold := some .debug }

theorem full_enables (level : Level) : l.full.enables level = true := by
  cases level <;> rfl

/-- A logger keeps the line of a record exactly when it shows the level of the record. -/
theorem kept_line (level : Level) (line : String) :
    kept l.threshold [⟨level.channel, line⟩] = if l.enables level then [⟨level.channel, line⟩] else [] := by
  obtain ⟨threshold, service, component⟩ := l
  cases threshold with
  | none => rfl
  | some t => cases t <;> cases level <;> rfl

theorem outputOne_thinned (r : Record) : (l.full.outputOne r).Thinned l.threshold (l.outputOne r) := by
  have hcall : l.full.call? r = l.call? r := rfl
  unfold outputOne
  rw [full_enables, hcall]
  cases hline : l.call? r with
  | none => exact .of_stopped rfl (by simp)
  | some call =>
    have hchannel : call.channel = r.level.channel := by
      obtain ⟨stamp, -, rfl⟩ := Option.map_eq_some_iff.mp hline
      rfl
    refine .of_eq ?_
    have hkept := l.kept_line r.level call.line
    rw [← hchannel] at hkept
    simp only [if_true, hkept]
    cases l.enables r.level <;> rfl

/-- A logger shows of some records what its threshold keeps of their lines. -/
theorem output_thinned (rs : List Record) : (l.full.output rs).Thinned l.threshold (l.output rs) := by
  induction rs with
  | nil => exact .of_eq (by simp [output])
  | cons r rs ih => exact (l.outputOne_thinned r).append ih

end Logger

/-! ## (3) The calls of one caller -/

namespace Session

/-- All lines of the steps, one after the other, and the fault that ended them early. -/
def heard (l : Logger) (s : Session) : List Step → Output
  | [] => ⟨[], none⟩
  | e :: es =>
    match s.step e with
    | .error f => ⟨[], some f⟩
    | .ok (s, rs) => (l.output rs).append (heard l s es)

variable (l : Logger) (s : Session) (es : List Step)

/-- Whatever is called in whatever order, a logger is heard to say what its threshold keeps. -/
theorem heard_thinned : (heard l.full s es).Thinned l.threshold (heard l s es) := by
  induction es generalizing s with
  | nil => exact .of_eq (by simp [heard])
  | cons e es ih =>
    unfold heard
    cases s.step e with
    | error f => exact .of_eq (by simp)
    | ok next => exact (l.output_thinned next.2).append (ih next.1)

/-- The play of the first step and of the rest. -/
theorem play_cons (e : Step) : play l s (e :: es) =
    match s.step e with
    | .error f => .error f
    | .ok (s, rs) =>
      match (l.output rs).fault with
      | some f => .error f
      | none => (play l s es).map ((l.output rs).calls :: ·) := by
  show (s.step e >>= fun next => (l.output next.2).result >>= fun calls =>
    play l next.1 es >>= fun rest => pure (calls :: rest)) = _
  cases s.step e with
  | error f => rfl
  | ok next =>
    show ((l.output next.2).result >>= fun calls => play l next.1 es >>= fun rest => pure (calls :: rest)) = _
    cases hfault : (l.output next.2).fault with
    | some f =>
      simp only [Output.result, hfault]
      rfl
    | none =>
      simp only [Output.result, hfault]
      cases play l next.1 es <;> rfl

/-- What is played is what is heard: the lines of all steps, or the fault that ended them. -/
theorem heard_of_play :
    match play l s es with
    | .ok lines => heard l s es = ⟨lines.flatten, none⟩
    | .error f => (heard l s es).fault = some f := by
  induction es generalizing s with
  | nil => rfl
  | cons e es ih =>
    rw [play_cons, heard]
    cases s.step e with
    | error f => rfl
    | ok next =>
      have ih := ih next.1
      simp only [Output.append]
      cases hfault : (l.output next.2).fault with
      | some f => exact hfault
      | none =>
        cases hplay : play l next.1 es with
        | error f =>
          rw [hplay] at ih
          exact ih
        | ok lines =>
          rw [hplay] at ih
          simp only at ih
          simp only [ih, Except.map, List.flatten_cons]

/-- Step by step, a logger plays what its threshold keeps, and fails as the full one does, unless
    a record without a date fails the full one. -/
theorem play_kept (h : play l.full s es ≠ .error .timeOutOfRange) :
    play l s es = (play l.full s es).map (List.map (kept l.threshold)) := by
  induction es generalizing s with
  | nil => rfl
  | cons e es ih =>
    rw [play_cons] at h
    rw [play_cons, play_cons]
    cases hstep : s.step e with
    | error f => rfl
    | ok next =>
      obtain ⟨s', rs⟩ := next
      rw [hstep] at h
      have hthin := (l.output_thinned rs).whole
      cases hfault : (l.full.output rs).fault with
      | some f =>
        simp only [hfault] at h hthin ⊢
        rw [hthin (by intro hf; exact h (congrArg Except.error (Option.some.inj hf)))]
        rfl
      | none =>
        simp only [hfault] at h hthin ⊢
        rw [hthin (by simp)]
        have hrest : play l.full s' es ≠ .error .timeOutOfRange := by
          intro hplay
          rw [hplay] at h
          exact h rfl
        simp only [ih s' hrest]
        cases play l.full s' es <;> rfl

end Session

end CheckpointRelay.Log
