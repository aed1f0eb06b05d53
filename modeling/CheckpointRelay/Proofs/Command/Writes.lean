/-
  CheckpointRelay.Proofs.Command.Writes — what a run of the program puts on the wire.

  A run writes only what one send writes, and a send writes only the bytes of its envelope. So
  what the builders promise of a request holds of every write:
  - `plan_calls`: an action script plans a hook call of a forwarded action, or no request.
  - `request_formed`: a command line makes a registration or a hook call.
  - `every_write_is_a_request`: every write of a run is such a request, in UTF-8.
-/

import CheckpointRelay.Command.Run
import CheckpointRelay.Proofs.Hook.Preflight

namespace CheckpointRelay

open Envelope (HookAction HookCall OnWire Registration Request)
open Text.Utf8 (Bytes)

theorem bind_ok {ε α β : Type} {x : Except ε α} {f : α → Except ε β} {b : β} (h : (x >>= f) = .ok b) :
    ∃ a, x = .ok a ∧ f a = .ok b := by
  cases x with
  | error e => cases h
  | ok a => exact ⟨a, rfl, h⟩

/-! ## (1) A send -/

namespace Client

theorem Session.send_writes {c : Config} {s : Session} {v : Json} {script : Script} {payload : Bytes}
    (h : .write payload ∈ (s.send c v script).2.trace) : Envelope.serialize v = .ok payload := by
  unfold send at h
  split at h
  · rename_i sent hv
    rw [hv, sendRaw_writes c s sent _ h]
  · split at h <;> cases h

/-- What a send writes of a request is the request. -/
theorem Session.send_onWire {c : Config} {s : Session} {r : Request} {script : Script} {l : Log.Logger}
    {payload : Bytes} {form : Json → Prop} (hform : form r.toJson.ordered)
    (h : .write payload ∈ ((s.send c r.toJson script).2.shown l).trace) : OnWire form payload := by
  obtain ⟨hpayload, hread⟩ := Request.serialize_read (send_writes ((Turn.shown_trace_initial l _).subset h))
  exact ⟨r.toJson.text, r.toJson.ordered, hpayload, hread, hform⟩

end Client

/-! ## (2) An action script -/

namespace Hook

/-- Only a cleared call plans a request. -/
theorem cleared_of_plan {call : Call} {request : Request} {client : Client.Config}
    (h : plan call = .ok (.forward request client)) :
    ∃ dir config action, Cleared call dir config action client ∧ request = hookRequest config action := by
  rcases checked call with ⟨f, hstopped⟩ | ⟨dir, config, hexcused⟩ | ⟨dir, config, action, _, hcleared⟩
  · rw [plan_of_stopped hstopped] at h
    cases h
  · rw [plan_of_excused hexcused] at h
    cases h
  · rw [plan_of_cleared hcleared] at h
    cases h
    exact ⟨dir, config, action, hcleared, rfl⟩

theorem plan_calls {call : Call} {request : Request} {client : Client.Config}
    (h : plan call = .ok (.forward request client)) : request.Calls forwarded := by
  obtain ⟨dir, config, action, hcleared, rfl⟩ := cleared_of_plan h
  exact hookRequest_calls hcleared

theorem run_writes {call : Call} {script : Client.Script} {payload : Bytes}
    (h : .write payload ∈ (run call script).trace) : OnWire (HookCall forwarded) payload := by
  unfold run at h
  split at h
  · cases h
  · cases h
  · rename_i request client hplan
    exact Client.Session.send_onWire (Request.hookCall_read (plan_calls hplan)) h

end Hook

/-! ## (3) A command line -/

namespace Command

theorem failed_trace (now : Clock.Instant) (what : String) (trace : List Client.Action) (console : List Console.Call)
    (f : Fault) : (failed now what trace console f).trace = trace := by
  unfold failed
  simp only
  split <;> rfl

theorem readDependencies_sound {t : Files.Tree} {path : String} {r : Request} (h : readDependencies t path = .ok r) :
    r.Registers := by
  unfold readDependencies at h
  obtain ⟨content, -, h⟩ := bind_ok h
  split at h
  · exact Request.ofMap_sound h
  · cases h

theorem request_formed {t : Files.Tree} {i : Invocation} {r : Request} (h : request t i = .ok r) :
    r.Registers ∨ r.Calls HookAction.all := by
  unfold request at h
  split at h
  · left
    split at h
    · cases h
    · exact readDependencies_sound h
    · exact Request.ofMesh_sound h
    · exact Request.ofMesh_sound h
  · right
    split at h
    · cases h
    · rename_i action hfound
      have haction : action ∈ HookAction.all := List.mem_of_find?_eq_some hfound
      exact Request.ofHook_sound haction (mapError_ok h)

/-- A registration or a call of any hook. -/
def Formed (v : Json) : Prop := Registration v ∨ HookCall HookAction.all v

theorem formed_read {r : Request} (h : r.Registers ∨ r.Calls HookAction.all) : Formed r.toJson.ordered := by
  rcases h with h | h
  · exact Or.inl (Request.registration_read h)
  · exact Or.inr (Request.hookCall_read h)

/-- What comes of the one send of a run. -/
def sent (call : Call) (r : Request) (config : Client.Config) (script : Client.Script) : Client.Shown :=
  ((Client.Session.start call.now).send config r.toJson script).2.shown
    (.forComponent "tcp-client" (some config.logLevel))

/-- A run by the command line does nothing, or what its one send does. -/
theorem runInvocation_trace (call : Call) (i : Invocation) (script : Client.Script) :
    (runInvocation call i script).trace = [] ∨ ∃ r config, request call.files i = .ok r ∧
      Client.Config.load (overrides i.program) call.ambient = .ok config ∧
      (runInvocation call i script).trace = (sent call r config script).trace := by
  unfold runInvocation
  simp only
  split
  · left
    rw [failed_trace]
  · rename_i r config hprepared
    obtain ⟨r', hr, hprepared⟩ := bind_ok hprepared
    obtain ⟨config', hconfig, hprepared⟩ := bind_ok hprepared
    cases hprepared
    refine Or.inr ⟨r, config, hr, hconfig, ?_⟩
    split
    · rfl
    · rfl
    · rfl
    · rw [failed_trace]
      rfl
    · rw [failed_trace]
      rfl

/-- The hook call that a run makes as an action script. -/
def hookCall (call : Call) (action : String) : Hook.Call where
  now := call.now
  action
  environment := call.environment
  ambient := call.ambient
  sharedDir := Hook.sharedConfigDir
  logger := none
  files := call.files

/-- A run as an action script does what its hook does. -/
theorem runScript_trace (call : Call) (action : String) (script : Client.Script) :
    (runScript call action script).trace = (Hook.run (hookCall call action) script).trace := by
  unfold runScript
  simp only
  split
  · rfl
  · rfl
  · rfl
  · rw [failed_trace]
    rfl

theorem runInvocation_writes {call : Call} {i : Invocation} {script : Client.Script} {payload : Bytes}
    (h : .write payload ∈ (runInvocation call i script).trace) : OnWire Formed payload := by
  rcases runInvocation_trace call i script with htrace | ⟨r, config, hr, -, htrace⟩
  · rw [htrace] at h
    cases h
  · rw [htrace] at h
    exact Client.Session.send_onWire (formed_read (request_formed hr)) h

theorem runScript_writes {call : Call} {action : String} {script : Client.Script} {payload : Bytes}
    (h : .write payload ∈ (runScript call action script).trace) : OnWire (HookCall Hook.forwarded) payload := by
  rw [runScript_trace] at h
  exact Hook.run_writes h

theorem formed_of_hookCall {allowed : List HookAction} {v : Json} (h : HookCall allowed v) : Formed v := by
  obtain ⟨id, action, list, hid, -, hlist⟩ := h
  have haction : action ∈ HookAction.all := by cases action <;> decide
  exact Or.inr (HookCall.mk id action list hid haction hlist)

/-- Every write of a run is a request, and a hook call of a forwarded action when the run is
    that of an action script. -/
theorem every_write_is_a_request :
    (∀ (call : Call) (script : Client.Script) (payload : Bytes),
      .write payload ∈ (run call script).trace → OnWire (fun v => Registration v ∨ HookCall HookAction.all v) payload) ∧
    (∀ (call : Call) (script : Client.Script) (payload : Bytes) (action : String),
      call.environment.scriptAction = some action → .write payload ∈ (run call script).trace →
        OnWire (HookCall [.preDump, .postDump, .preRestore]) payload) ∧
    (∀ (call : Hook.Call) (script : Client.Script) (payload : Bytes),
      .write payload ∈ (Hook.run call script).trace →
        OnWire (HookCall [.preDump, .postDump, .preRestore]) payload) := by
  refine ⟨?_, ?_, fun call script payload h => Hook.run_writes h⟩
  · intro call script payload h
    unfold run at h
    split at h
    · obtain ⟨text, v, hpayload, hread, hform⟩ := runScript_writes h
      exact ⟨text, v, hpayload, hread, formed_of_hookCall hform⟩
    · split at h
      · rename_i stop _
        cases stop <;> cases h
      · exact runInvocation_writes h
  · intro call script payload action haction h
    unfold run at h
    rw [haction] at h
    exact runScript_writes h

/-- An action script that finds its configuration, and the call that it sends. -/
theorem a_hook_call_on_the_wire :
    let config : Json := .obj [("id", .str "web"), ("dependencies", .str "db: cache:")]
    let files : Files.Tree :=
      ⟨[], [(["img"], .directory), (["img", "criu-coordinator.json"], .file (Text.Utf8.encode config.text))]⟩
    let environment : Environment := { scriptAction := some "pre-restore", imageDir := some "img" }
    let call : Call := ⟨0, [], environment, {}, files⟩
    let payload : Bytes := Text.Utf8.encode
      (Json.obj [("id", .str "web"), ("action", .str "pre-restore"), ("dependencies", .str "db:cache")]).text
    .write payload ∈ (run call (.events [.connected])).trace ∧
      OnWire (HookCall [.preDump, .postDump, .preRestore]) payload := by
  intro config files environment call payload
  have hsent : .write payload ∈ (run call (.events [.connected])).trace := by decide +kernel
  exact ⟨hsent, every_write_is_a_request.2.1 call _ payload _ rfl hsent⟩

end Command

end CheckpointRelay
