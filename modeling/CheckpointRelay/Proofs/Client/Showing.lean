/-
  CheckpointRelay.Proofs.Client.Showing — what a logger makes of a send.

  A logger can take something away from a send only in one way: a line that it shows falls on an
  instant without a date (`Log.Logger.cut`). What goes with the line is told by where it stands.
  - `output_fault`: an output ends with a fault exactly when it is cut, and with no other.
  - `Deed.course_output` / `Deed.course_trace_initial`: deeds come to what they say, and to a first
    part of what they do.
  - `Turn.shown_delivery` / `shown_crash`: a turn is delivered as it is unless a line of its own is
    cut or an exception leaves a listener; the lines of the other exchanges that settle in it
    take nothing away.
  - `Turn.shown_trace`: its trace stands as far as its deeds come.
  - `Turn.plain_shown`: nothing of it goes to plain output.
-/

import CheckpointRelay.Client.Session
import CheckpointRelay.Proofs.Log.Thresholds

namespace CheckpointRelay

/-- An instant whose date can be written. -/
def Clock.HasDate (t : Clock.Instant) : Prop := t.natAbs ≤ Clock.furthest

instance (t : Clock.Instant) : Decidable (Clock.HasDate t) := inferInstanceAs (Decidable (_ ≤ _))

theorem Clock.stamp?_isSome {t : Clock.Instant} (h : Clock.HasDate t) : (Clock.stamp? t).isSome := by
  unfold Clock.HasDate at h
  simp [Clock.stamp?, h]

theorem Clock.stamp?_eq_none {t : Clock.Instant} (h : ¬Clock.HasDate t) : Clock.stamp? t = none := by
  unfold Clock.HasDate at h
  simp [Clock.stamp?, h]

/-- Between two instants with dates every instant has one. -/
theorem Clock.hasDate_between {a b t : Clock.Instant} (ha : Clock.HasDate a) (hb : Clock.HasDate b) (h₁ : a ≤ t)
    (h₂ : t ≤ b) : Clock.HasDate t := by
  unfold Clock.HasDate Clock.Instant at *
  omega

/-- The lines on plain output. -/
def Console.plain (lines : List Console.Call) : List Console.Call := lines.filter (·.channel = .log)

theorem Console.plain_append (as bs : List Console.Call) :
    Console.plain (as ++ bs) = Console.plain as ++ Console.plain bs := List.filter_append as bs

namespace Log.Logger

variable (l : Logger)

/-- One of the records is shown and has no date. -/
def cut (rs : List Record) : Bool := rs.any fun r => l.enables r.level && !decide (Clock.HasDate r.time)

theorem cut_append (rs qs : List Record) : l.cut (rs ++ qs) = (l.cut rs || l.cut qs) := by
  simp only [cut, List.any_append]

/-- Only the threshold of a logger has a say in what is cut. -/
theorem cut_congr {l l' : Logger} (h : l.threshold = l'.threshold) (rs : List Record) : l.cut rs = l'.cut rs := by
  simp only [cut, enables, h]

theorem cut_single {rs : List Record} (h : l.cut rs = false) {r : Record} (hr : r ∈ rs) : l.cut [r] = false := by
  rw [cut, List.any_eq_false] at h
  rw [cut, List.any_cons, List.any_nil, Bool.or_false]
  exact Bool.eq_false_iff.mpr (h r hr)

theorem cut_of_dated {rs : List Record} (h : ∀ r ∈ rs, Clock.HasDate r.time) : l.cut rs = false := by
  simp only [cut, List.any_eq_false]
  intro r hr
  simp [h r hr]

theorem outputOne_fault (r : Record) : (l.outputOne r).fault = if l.cut [r] then some .timeOutOfRange else none := by
  simp only [outputOne, cut, List.any_cons, List.any_nil, Bool.or_false]
  cases l.enables r.level with
  | false => rfl
  | true =>
    by_cases h : Clock.HasDate r.time
    · obtain ⟨stamp, hs⟩ := Option.isSome_iff_exists.mp (Clock.stamp?_isSome h)
      simp [call?, hs, h]
    · simp [call?, Clock.stamp?_eq_none h, h]

/-- An output is cut short by a record without a date, and by nothing else. -/
theorem output_fault (rs : List Record) : (l.output rs).fault = if l.cut rs then some .timeOutOfRange else none := by
  induction rs with
  | nil => rfl
  | cons r rs ih =>
    have happ : l.cut (r :: rs) = (l.cut [r] || l.cut rs) := l.cut_append [r] rs
    simp only [output, Output.append, outputOne_fault, happ]
    cases hr : l.cut [r] with
    | true => simp [outputOne_fault, hr]
    | false => simp [ih]

theorem plain_outputOne (r : Record) : Console.plain (l.outputOne r).calls = [] := by
  unfold outputOne call?
  cases r.level <;> cases l.enables _ <;> cases Clock.stamp? r.time <;> rfl

/-- A logger prints nothing plain. -/
theorem plain_output (rs : List Record) : Console.plain (l.output rs).calls = [] := by
  induction rs with
  | nil => rfl
  | cons r rs ih =>
    rw [output, Output.append]
    split
    · exact l.plain_outputOne r
    · rw [Console.plain_append, l.plain_outputOne, ih]
      rfl

end Log.Logger

namespace Client

/-! ## (1) Deeds -/

namespace Deed

variable (l : Log.Logger)

def action? : Deed → Option Action
  | .act a => some a
  | _ => none

/-- The actions among deeds. -/
def actions (ds : List Deed) : List Action := ds.filterMap action?

/-- The lines that deeds come to, exceptions considered. -/
def said : List Deed → List Log.Record
  | [] => []
  | .act _ :: ds => said ds
  | .say r :: ds => r :: said ds
  | .raise _ :: _ => []

/-- The exception that deeds come to. -/
def raised : List Deed → Option Fault
  | [] => none
  | .act _ :: ds => raised ds
  | .say _ :: ds => raised ds
  | .raise f :: _ => some f

@[simp] theorem actions_append (ds es : List Deed) : actions (ds ++ es) = actions ds ++ actions es :=
  List.filterMap_append

@[simp] theorem actions_acts (as : List Action) : actions (as.map .act) = as := by
  rw [actions, List.filterMap_map]
  exact List.filterMap_some

theorem raised_append (ds es : List Deed) : raised (ds ++ es) = (raised ds).or (raised es) := by
  induction ds with
  | nil => rfl
  | cons d ds ih => cases d <;> first | exact ih | rfl

theorem said_append (ds es : List Deed) : said (ds ++ es) = said ds ++ if (raised ds).isSome then [] else said es := by
  induction ds with
  | nil => rfl
  | cons d ds ih =>
    cases d with
    | act a => exact ih
    | say r => exact congrArg (r :: ·) ih
    | raise f => rfl

@[simp] theorem raised_acts (as : List Action) : raised (as.map .act) = none := by
  induction as with
  | nil => rfl
  | cons a as ih => exact ih

@[simp] theorem said_acts (as : List Action) : said (as.map .act) = [] := by
  induction as with
  | nil => rfl
  | cons a as ih => exact ih

/-- Deeds are heard of by their lines, up to the first that is cut, and by their exception. -/
theorem course_output (ds : List Deed) : (course l ds).output = (l.output (said ds)).append ⟨[], raised ds⟩ := by
  induction ds with
  | nil => rfl
  | cons d ds ih =>
    cases d with
    | act a => exact ih
    | raise f => rfl
    | say r =>
      simp only [course, said, raised, Log.Logger.output, Log.Output.append_assoc]
      cases hfault : (l.outputOne r).fault with
      | some f => simp only [Log.Output.append_ended hfault]
      | none => rw [ih]

theorem course_fault (ds : List Deed) :
    (course l ds).output.fault = if l.cut (said ds) then some .timeOutOfRange else raised ds := by
  have hfault := l.output_fault (said ds)
  rw [course_output]
  cases hcut : l.cut (said ds) with
  | true =>
    rw [hcut, if_pos rfl] at hfault
    rw [Log.Output.append_ended hfault, hfault, if_pos rfl]
  | false =>
    rw [hcut] at hfault
    rw [Log.Output.append_open hfault]
    rfl

/-- What is done is a first part of what would be done without a failure. -/
theorem course_trace_initial (ds : List Deed) : (course l ds).trace <+: actions ds := by
  induction ds with
  | nil => exact List.prefix_rfl
  | cons d ds ih =>
    cases d with
    | act a => exact (List.prefix_cons_inj a).mpr ih
    | raise f => exact List.nil_prefix
    | say r =>
      rw [course]
      split
      · exact List.nil_prefix
      · exact ih

/-- Without a failure it is all of it. -/
theorem course_trace_whole {ds : List Deed} (h : (course l ds).output.fault = none) :
    (course l ds).trace = actions ds := by
  induction ds with
  | nil => rfl
  | cons d ds ih =>
    cases d with
    | act a => exact congrArg (a :: ·) (ih h)
    | raise f => cases h
    | say r =>
      rw [course] at h ⊢
      cases hfault : (l.outputOne r).fault with
      | some f =>
        simp only [hfault] at h
        cases h
      | none =>
        simp only [hfault, Log.Output.append_open hfault] at h
        exact ih h

/-- A logger has a say in how far deeds come by the lines that it cuts, and only so. -/
theorem course_trace_congr {l l' : Log.Logger} {ds : List Deed} (h : ∀ r ∈ said ds, l.cut [r] = l'.cut [r]) :
    (course l ds).trace = (course l' ds).trace := by
  induction ds with
  | nil => rfl
  | cons d ds ih =>
    cases d with
    | act a => exact congrArg (a :: ·) (ih h)
    | raise f => rfl
    | say r =>
      simp only [course, l.outputOne_fault, l'.outputOne_fault, h r List.mem_cons_self]
      split
      · rfl
      · exact ih fun q hq => h q (List.mem_cons_of_mem r hq)

theorem course_acts (as : List Action) (ds : List Deed) :
    course l (as.map .act ++ ds) = ⟨as ++ (course l ds).trace, (course l ds).output⟩ := by
  induction as with
  | nil => rfl
  | cons a as ih => rw [List.map_cons, List.cons_append, course, ih]; rfl

/-- A line that is cut keeps what follows it from being done. -/
theorem course_cut {r : Log.Record} (h : l.cut [r] = true) (ds : List Deed) :
    (course l (.say r :: ds)).trace = [] ∧ (course l (.say r :: ds)).output.fault = some .timeOutOfRange := by
  have hfault := l.outputOne_fault r
  rw [h, if_pos rfl] at hfault
  simp only [course, hfault, and_self]

/-- One that is not takes nothing away. -/
theorem course_say {r : Log.Record} (h : l.cut [r] = false) (ds : List Deed) :
    (course l (.say r :: ds)).trace = (course l ds).trace ∧
      (course l (.say r :: ds)).output.fault = (course l ds).output.fault := by
  have hfault := l.outputOne_fault r
  rw [h] at hfault
  simp only [course, hfault, Log.Output.append_open hfault]
  exact ⟨rfl, rfl⟩

end Deed

/-! ## (2) Turns -/

namespace Turn

variable (l : Log.Logger)

/-- What a send does where nothing fails. -/
def trace (t : Turn) : List Action := Deed.actions t.deeds

/-- What it says while its script runs. -/
def live (t : Turn) : List Log.Record := Deed.said t.deeds

/-- The exception that its script comes to. -/
def raised (t : Turn) : Option Fault := Deed.raised t.deeds

/-- What is said of the exchange that a send made, once it is settled. -/
def ownClosing (t : Turn) : List Log.Record := ((t.closings.find? (·.own)).map (·.records)).getD []

/-- Everything that a send says of itself. -/
def spoken (t : Turn) : List Log.Record :=
  t.opening ++ t.live ++ if t.raised.isSome then [] else t.ownClosing

theorem shownClosings_fault (cs : List Closing) :
    (shownClosings l cs).fault
      = if l.cut (((cs.find? (·.own)).map (·.records)).getD []) then some .timeOutOfRange else none := by
  induction cs with
  | nil => rfl
  | cons c cs ih =>
    by_cases hc : c.own
    · simp [shownClosings, hc, l.output_fault]
    · simp [shownClosings, hc, ih]

/-- A send is delivered as it is unless one of its own lines is shown and has no date, or an
    exception leaves a listener of its connection. -/
theorem shown_delivery (t : Turn) :
    (t.shown l).delivery = if l.cut t.spoken then .broken .timeOutOfRange
      else match t.raised with
        | some f => .broken f
        | none => t.delivery := by
  have hlive : (Deed.course l t.deeds).output.fault = if l.cut t.live then some .timeOutOfRange else t.raised :=
    Deed.course_fault l t.deeds
  have hclosing : (shownClosings l t.closings).fault = if l.cut t.ownClosing then some .timeOutOfRange else none :=
    shownClosings_fault l t.closings
  simp only [shown, spoken, l.cut_append, l.output_fault, hlive]
  cases l.cut t.opening with
  | true => rfl
  | false =>
    cases l.cut t.live with
    | true => rfl
    | false =>
      cases t.raised with
      | some f => rfl
      | none =>
        simp only [hclosing, Option.isSome_none, Bool.false_eq_true, if_false, Bool.false_or]
        cases l.cut t.ownClosing <;> rfl

/-- Once the lines before the connection are written, a send comes to what its deeds come to. -/
theorem shown_course {t : Turn} (hopening : l.cut t.opening = false) :
    (t.shown l).trace = (Deed.course l t.deeds).trace ∧
      (t.shown l).crash = (Deed.course l t.deeds).output.fault := by
  simp only [shown, l.output_fault, hopening]
  cases (Deed.course l t.deeds).output.fault <;> exact ⟨rfl, rfl⟩

/-- The program ends with a line of the script that is cut, or with an exception. -/
theorem shown_crash (t : Turn) :
    (t.shown l).crash = if l.cut t.opening then none else if l.cut t.live then some .timeOutOfRange else t.raised := by
  cases hopening : l.cut t.opening with
  | true => simp only [shown, l.output_fault, hopening, if_true]
  | false => exact (shown_course l hopening).2.trans (Deed.course_fault l t.deeds)

theorem shown_trace (t : Turn) :
    (t.shown l).trace = if l.cut t.opening then [] else (Deed.course l t.deeds).trace := by
  cases hopening : l.cut t.opening with
  | true => simp only [shown, l.output_fault, hopening, if_true]
  | false => exact (shown_course l hopening).1

/-- A send whose script comes to no exception is broken by its lines alone, and by those of its
    script it ends the program. -/
theorem shown_of_unraised {t : Turn} (h : t.raised = none) :
    ((t.shown l).delivery = if l.cut t.spoken then .broken .timeOutOfRange else t.delivery) ∧
      (t.shown l).crash = if l.cut t.opening = false ∧ l.cut t.live = true then some .timeOutOfRange else none := by
  rw [shown_delivery, shown_crash, h]
  refine ⟨rfl, ?_⟩
  cases l.cut t.opening <;> simp

theorem shown_trace_initial (t : Turn) : (t.shown l).trace <+: t.trace := by
  rw [shown_trace]
  split
  · exact List.nil_prefix
  · exact Deed.course_trace_initial l t.deeds

/-- A send that does not end the program does all that it would do. -/
theorem shown_trace_whole {t : Turn} (hopening : l.cut t.opening = false) (h : (t.shown l).crash = none) :
    (t.shown l).trace = t.trace := by
  rw [shown_crash, hopening] at h
  rw [shown_trace, hopening]
  exact Deed.course_trace_whole l ((Deed.course_fault l t.deeds).trans h)

/-- A delivery that is not broken is that of a send without a failure. -/
theorem intact_of_delivery {l : Log.Logger} {t : Turn} (h : ∀ f, (t.shown l).delivery ≠ .broken f) :
    l.cut t.spoken = false ∧ t.raised = none := by
  rw [shown_delivery] at h
  cases hcut : l.cut t.spoken with
  | true =>
    rw [hcut, if_pos rfl] at h
    exact absurd rfl (h .timeOutOfRange)
  | false =>
    cases hraised : t.raised with
    | some f =>
      rw [hcut, hraised] at h
      exact absurd rfl (h f)
    | none => exact ⟨rfl, rfl⟩

/-- A crash breaks the delivery. -/
theorem uncrashed {l : Log.Logger} {t : Turn} (h : ∀ f, (t.shown l).delivery ≠ .broken f) :
    (t.shown l).crash = none := by
  obtain ⟨hcut, hraised⟩ := intact_of_delivery h
  rw [spoken, l.cut_append, l.cut_append, Bool.or_eq_false_iff, Bool.or_eq_false_iff] at hcut
  rw [shown_crash, hcut.1.1, hcut.1.2, hraised]
  rfl

/-- Without a crash no exception has left a listener. -/
theorem unraised_of_uncrashed {l : Log.Logger} {t : Turn} (h : (t.shown l).crash = none)
    (hcut : l.cut t.spoken = false) : t.raised = none := by
  rw [spoken, l.cut_append, l.cut_append, Bool.or_eq_false_iff, Bool.or_eq_false_iff] at hcut
  rw [shown_crash, hcut.1.1, hcut.1.2] at h
  exact h

/-- Loggers with one threshold deliver the same, leave the same trace, and end the program alike. -/
theorem shown_congr {l l' : Log.Logger} (h : l.threshold = l'.threshold) (t : Turn) :
    (t.shown l).delivery = (t.shown l').delivery ∧ (t.shown l).trace = (t.shown l').trace ∧
      (t.shown l).crash = (t.shown l').crash := by
  have hcut := Log.Logger.cut_congr h
  rw [shown_delivery, shown_delivery, shown_trace, shown_trace, shown_crash, shown_crash, hcut, hcut, hcut,
    Deed.course_trace_congr fun r _ => hcut [r]]
  exact ⟨rfl, rfl, rfl⟩

theorem plain_shownClosings (cs : List Closing) : Console.plain (shownClosings l cs).calls = [] := by
  induction cs with
  | nil => rfl
  | cons c cs ih =>
    rw [shownClosings]
    simp only [Console.plain_append, l.plain_output, ih, List.append_nil]

theorem plain_course (ds : List Deed) : Console.plain (Deed.course l ds).output.calls = [] := by
  rw [Deed.course_output, Log.Output.append]
  split
  · exact l.plain_output _
  · rw [List.append_nil]
    exact l.plain_output _

/-- A send prints nothing plain. -/
theorem plain_shown (t : Turn) : Console.plain (t.shown l).console = [] := by
  unfold shown
  simp only
  split
  · exact l.plain_output t.opening
  · split
    · simp only [Console.plain_append, l.plain_output, plain_course, List.append_nil]
    · simp only [Console.plain_append, l.plain_output, plain_course, plain_shownClosings l, List.append_nil]

end Turn

/-- Before it connects, a send that breaks there leaves the session as it was. -/
theorem Session.showing_eq (l : Log.Logger) (s : Session) (sent : Session × Turn) :
    s.showing l sent = (if l.cut sent.2.opening then s else sent.1, sent.2.shown l) := by
  simp only [showing, l.output_fault]
  cases l.cut sent.2.opening <;> rfl

end Client

end CheckpointRelay
