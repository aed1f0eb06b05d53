/-
  CheckpointRelay.Proofs.Client.Bounds — only checked values reach the network.

  A configuration that loads is in bounds (`Config.InBounds`), whatever its values come from, and
  a send takes address, delay and largest reply from its configuration. So everything that a send
  does is in bounds as well (`Bounded`): where it connects to, how long its timer is, and how much
  of a reply it gives.
  - `load_inBounds` / `load_refused`: a configuration in bounds, or the complaints about it.
  - `sendRaw_opens`: an exchange connects, sets its timer if it has one, and does neither again.
  - `send_bounded` / `make_bounded`: a send in bounds, shown with any logger.
-/

import CheckpointRelay.Proofs.Client.Calls
import CheckpointRelay.Proofs.Client.Fields
import CheckpointRelay.Proofs.Client.Results

namespace CheckpointRelay.Client

open Number (Binary64)
open Text.Utf8 (Bytes)

/-! ## (1) Configurations -/

structure Config.InBounds (c : Config) : Prop where
  host : c.host ≠ "" ∧ Text.trim c.host = c.host
  port : 1 ≤ c.port ∧ c.port ≤ 65535
  timeoutMs : c.timeoutMs ≤ 2147483647
  maxResponseBytes : 1 ≤ c.maxResponseBytes

variable {overrides : Raw} {e : Environment} {c : Config}

/-- A configuration that loads is in bounds. -/
theorem load_inBounds (h : Config.load overrides e = .ok c) : c.InBounds := by
  have htakes : ∀ f : Field, f.Takes (f.effective (overrides.field? f) e) (c.value f) := load_ok_iff.mp h
  obtain ⟨s, -, ⟨b, hb, hprinted⟩, hhost⟩ := takes_host (htakes .host)
  obtain ⟨_, -, -, hport⟩ := takes_port (htakes .port)
  obtain ⟨_, -, -, htimeout⟩ := takes_timeoutMs (htakes .timeoutMs)
  obtain ⟨_, -, -, hbytes⟩ := takes_maxResponseBytes (htakes .maxResponseBytes)
  refine ⟨⟨?_, ?_⟩, hport, htimeout, hbytes⟩
  · intro hempty
    rw [hempty, Text.trim_eq_empty_iff, Text.allBlank, List.all_eq_true] at hhost
    rw [hhost b hb] at hprinted
    cases hprinted
  · rw [← hhost]
    exact Text.trim_trim s

/-- One that does not load is refused with what is wrong with it. -/
theorem load_refused (h : ¬∃ c, Config.load overrides e = .ok c) :
    ∃ issues, Config.load overrides e = .error (.config issues) := ⟨_, load_error h⟩

/-- The limit is the number that its raw value denotes, a negative zero too. -/
theorem timeoutMs_of_denotes (h : Config.load overrides e = .ok c) {x : Binary64} {n : Nat}
    (hraw : Field.timeoutMs.effective overrides.timeoutMs e = .num x) (hx : x.Denotes n) : c.timeoutMs = n := by
  have htakes : Field.timeoutMs.Takes (Field.timeoutMs.effective overrides.timeoutMs e) (.number c.timeoutMs) :=
    load_ok_iff.mp h .timeoutMs
  obtain ⟨y, hy, hdenotes, -⟩ := takes_timeoutMs htakes
  cases hraw.symm.trans hy
  rw [← Binary64.toNat_of_denotes hx, Binary64.toNat_of_denotes hdenotes]

/-! ## (2) What a send does -/

def Action.isTimer : Action → Bool
  | .timer _ => true
  | _ => false

/-- What is done and given within the bounds of a configuration: addresses and delays are checked
    ones, there is at most one timer for the one connection and none without a limit, and a reply
    is no larger than the largest one. -/
structure Bounded (c : Config) (trace : List Action) (gives : Bytes → Prop) : Prop where
  address : ∀ host port, .connect host port ∈ trace → host ≠ "" ∧ Text.trim host = host ∧ 1 ≤ port ∧ port ≤ 65535
  delay : ∀ ms, .timer ms ∈ trace → 1 ≤ ms ∧ ms ≤ 2147483647
  timers : trace.countP Action.isTimer ≤ trace.countP Action.isConnect ∧ trace.countP Action.isConnect ≤ 1
  unlimited : c.timeoutMs = 0 → ∀ ms, .timer ms ∉ trace
  reply : ∀ raw, gives raw → raw.length ≤ c.maxResponseBytes ∧ 1 ≤ c.maxResponseBytes

theorem Bounded.idle {gives : Bytes → Prop} (h : ∀ raw, ¬gives raw) : Bounded c [] gives :=
  ⟨by simp, by simp, by simp, by simp, fun raw hraw => absurd hraw (h raw)⟩

theorem Bounded.mono {trace : List Action} {gives gives' : Bytes → Prop} (h : Bounded c trace gives)
    (hgives : ∀ raw, gives' raw → gives raw) : Bounded c trace gives' :=
  ⟨h.address, h.delay, h.timers, h.unlimited, fun raw hraw => h.reply raw (hgives raw hraw)⟩

/-- The delivery gives these bytes. -/
def Delivery.Gives (d : Delivery) (raw : Bytes) : Prop := ∃ response, d = .done (.ok response) ∧ response.raw = raw

namespace Session

variable (c) (s : Session) (payload : Bytes) (clientId : Option String)

/-- An exchange connects first and sets its timer then; no event does either again. -/
theorem sendRaw_opens (script : Script) :
    ∃ timers rest, (s.sendRaw c payload clientId script).2.trace = .connect c.host c.port :: (timers ++ rest) ∧
      (timers = [] ∨ timers = [.timer c.timeoutMs] ∧ c.timeoutMs ≠ 0) ∧
      ∀ a ∈ rest, a.isConnect = false ∧ a.isTimer = false := by
  cases script with
  | refused error => exact ⟨[], [], sendRaw_refused_trace c s payload clientId error, Or.inl rfl, by simp⟩
  | events es =>
    refine ⟨if c.timeoutMs = 0 then [] else [.timer c.timeoutMs], _, sendRaw_trace c s payload clientId es, ?_,
      fun a ha => ?_⟩
    · by_cases h : c.timeoutMs = 0
      · exact Or.inl (if_pos h)
      · exact Or.inr ⟨if_neg h, h⟩
    · rcases State.mem_run_actions ha with rfl | rfl | rfl <;> exact ⟨rfl, rfl⟩

/-- The bytes of a reply are cut to the largest size. -/
theorem sendRaw_length {script : Script} {raw : Bytes}
    (h : (s.sendRaw c payload clientId script).2.delivery.Gives raw) : raw.length ≤ c.maxResponseBytes := by
  obtain ⟨response, hresponse, rfl⟩ := h
  cases script with
  | refused error =>
    simp only [sendRaw] at hresponse
    split at hresponse <;> cases hresponse
  | events es =>
    rcases quiet_or_settles c.timeoutMs es with hq | ⟨before, event, after, rfl, hq, he⟩
    · rw [sendRaw_quiet c s payload clientId hq] at hresponse
      cases hresponse
    · rw [sendRaw_first c s payload clientId hq he] at hresponse
      cases event with
      | connected => cases he
      | data chunk =>
        cases hresponse
        exact List.length_take_le _ _
      | ended =>
        cases hresponse
        exact Nat.zero_le _
      | closed =>
        cases hresponse
        exact Nat.zero_le _
      | _ => cases hresponse

variable {c} {s}

theorem sendRaw_bounded (hc : c.InBounds) (script : Script) :
    let turn := (s.sendRaw c payload clientId script).2
    Bounded c turn.trace turn.delivery.Gives := by
  intro turn
  obtain ⟨timers, rest, htrace, htimers, hrest⟩ := sendRaw_opens c s payload clientId script
  have hdelay (ms : Nat) (hms : .timer ms ∈ turn.trace) : ms = c.timeoutMs ∧ c.timeoutMs ≠ 0 := by
    rw [htrace, List.mem_cons, List.mem_append] at hms
    rcases hms with hms | hms | hms
    · cases hms
    · rcases htimers with rfl | ⟨rfl, hlimit⟩
      · cases hms
      · cases List.mem_singleton.mp hms
        exact ⟨rfl, hlimit⟩
    · cases (hrest _ hms).2
  refine ⟨fun host port hconnect => ?_, fun ms hms => ?_, ?_, fun hzero ms hms => (hdelay ms hms).2 hzero,
    fun raw hraw => ⟨sendRaw_length c s payload clientId hraw, hc.maxResponseBytes⟩⟩
  · rw [htrace, List.mem_cons, List.mem_append] at hconnect
    rcases hconnect with hconnect | hconnect | hconnect
    · cases hconnect
      exact ⟨hc.host.1, hc.host.2, hc.port⟩
    · rcases htimers with rfl | ⟨rfl, -⟩
      · cases hconnect
      · cases List.mem_singleton.mp hconnect
    · cases (hrest _ hconnect).1
  · obtain ⟨rfl, hlimit⟩ := hdelay ms hms
    exact ⟨Nat.pos_of_ne_zero hlimit, hc.timeoutMs⟩
  · have hconnects : turn.trace.countP Action.isConnect = 1 := sendRaw_connects_once c payload clientId s script
    have hnone : rest.countP Action.isTimer = 0 :=
      List.countP_eq_zero.mpr fun a ha => Bool.eq_false_iff.mp (hrest a ha).2
    have hone : timers.countP Action.isTimer ≤ 1 := by
      rcases htimers with rfl | ⟨rfl, -⟩
      · exact Nat.zero_le 1
      · exact Nat.le_refl 1
    have hopening : Action.isTimer (.connect c.host c.port) = false := rfl
    have hcount : turn.trace.countP Action.isTimer = timers.countP Action.isTimer := by
      rw [htrace, List.countP_cons_of_neg (by rw [hopening]; decide), List.countP_append, hnone, Nat.add_zero]
    omega

/-- A logger that cuts a script short takes nothing out of bounds. -/
theorem sendRaw_shown_bounded (hc : c.InBounds) (script : Script) (l : Log.Logger) :
    let shown := (s.sendRaw c payload clientId script).2.shown l
    Bounded c shown.trace shown.delivery.Gives := by
  intro shown
  have hreply (raw : Bytes) (hraw : shown.delivery.Gives raw) :
      raw.length ≤ c.maxResponseBytes ∧ 1 ≤ c.maxResponseBytes := by
    obtain ⟨response, hresponse, heq⟩ := hraw
    have hgiven := Turn.delivery_of_shown hresponse trivial
    exact (sendRaw_bounded payload clientId hc script).reply raw ⟨response, hgiven, heq⟩
  cases hopening : l.cut (s.sendRaw c payload clientId script).2.opening with
  | true =>
    have htrace : shown.trace = [] := by rw [Turn.shown_trace, if_pos hopening]
    rw [htrace]
    exact ⟨by simp, by simp, by simp, by simp, hreply⟩
  | false =>
    -- what is shown is what the script does as far as it is reached
    have hreached := sendRaw_bounded (s := s) payload clientId hc (script.reached l c s.now)
    have htrace : shown.trace = (s.sendRaw c payload clientId (script.reached l c s.now)).2.trace :=
      (sendRaw_shown c s payload clientId l script hopening).1
    rw [htrace]
    exact ⟨hreached.address, hreached.delay, hreached.timers, hreached.unlimited, hreply⟩

theorem send_bounded (hc : c.InBounds) (v : Json) (script : Script) (l : Log.Logger) :
    let shown := (s.send c v script).2.shown l
    Bounded c shown.trace shown.delivery.Gives := by
  intro shown
  cases hv : Envelope.serialize v with
  | ok payload =>
    have hsent : s.send c v script = s.sendRaw c payload (senderId v) script := by
      simp only [send, hv]
    simp only [shown, hsent]
    exact sendRaw_shown_bounded payload (senderId v) hc script l
  | error f =>
    have hrefused : (s.send c v script).2.trace = [] ∧
        ∀ response, (s.send c v script).2.delivery ≠ .done (.ok response) := by
      simp only [send, hv]
      split <;> exact ⟨rfl, by simp⟩
    have htrace : shown.trace = [] := List.prefix_nil.mp (hrefused.1 ▸ Turn.shown_trace_initial l _)
    rw [htrace]
    refine Bounded.idle ?_
    rintro raw ⟨response, hresponse, -⟩
    exact hrefused.2 response (Turn.delivery_of_shown hresponse trivial)

/-- Every call of a client stays in bounds, on every session. -/
theorem make_bounded (hc : c.InBounds) (call : Call) (l : Log.Logger) :
    let shown := (s.make c call).2.shown l
    Bounded c shown.trace shown.delivery.Gives := by
  unfold make
  cases call.order with
  | bytes payload clientId => exact sendRaw_shown_bounded payload clientId hc call.script l
  | envelope v => exact send_bounded hc v call.script l

end Session

end CheckpointRelay.Client
