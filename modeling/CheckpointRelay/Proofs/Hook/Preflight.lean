/-
  CheckpointRelay.Proofs.Hook.Preflight — the checks before an action is forwarded.

  The checks stand in an order: the image directory, its configuration, the action, the capture
  socket, the id, the client. A call passes all of them (`Cleared`), fails at the first that does
  not hold (`Stopped`), or has an action that is not forwarded (`Excused`). It is always one of
  the three (`checked`), and each of them fixes the plan of the call, so it is never two.
  - `plan_of_stopped` / `plan_of_excused` / `plan_of_cleared`: the plan of each.
  - `load_host` / `load_port`: the client connects to the very address and port of the file.
  - `run_of_stopped` / `run_of_excused` / `run_of_cleared`: what each does and gives.
  - `connects_iff_every_check_passes`: all of it.
-/

import CheckpointRelay.Hook.Run
import CheckpointRelay.Proofs.Client.Fields
import CheckpointRelay.Proofs.Client.Results
import CheckpointRelay.Proofs.Envelope.Requests
import CheckpointRelay.Proofs.Hook.Lookup

namespace CheckpointRelay

open Envelope (HookAction Request)

theorem mapError_ok {ε ε' α : Type} {x : Except ε α} {f : ε → ε'} {a : α} (h : x.mapError f = .ok a) : x = .ok a := by
  cases x with
  | error e => cases h
  | ok b =>
    cases h
    rfl

/-! ## (1) Address and port -/

namespace Hook

open Files (Tree)

theorem checkAddress_trimmed {field : Option Json} {address : String} (h : checkAddress field = .ok address) :
    Text.trim address = address := by
  unfold checkAddress at h
  split at h
  · cases h
    decide
  · split at h
    · cases h
    · cases h
      exact Text.trim_trim _
  · cases h

/-- An address that was read from a file has no padding. -/
theorem load_trimmed {t : Tree} {dir sharedDir : String} {config : Config}
    (h : Config.load t dir sharedDir = .ok config) : Text.trim config.address = config.address := by
  obtain ⟨v, hvalid⟩ := Config.validate_of_load h
  unfold Config.validate Config.ofMembers at hvalid
  split at hvalid
  · simp only at hvalid
    split at hvalid
    · rename_i haddress _
      cases hvalid
      exact checkAddress_trimmed haddress
    · cases hvalid
  · cases hvalid

theorem load_host {config : Config} {ambient : Environment} {client : Client.Config}
    (h : Client.Config.load (overrides config) ambient = .ok client) : client.host = Text.trim config.address := by
  have htakes : Client.Field.Takes .host (.str config.address) (.text client.host) := Client.load_ok_iff.mp h .host
  obtain ⟨s, hs, -, htrim⟩ := Client.takes_host htakes
  cases hs
  exact htrim.symm

theorem load_port {config : Config} {ambient : Environment} {client : Client.Config}
    (h : Client.Config.load (overrides config) ambient = .ok client) : config.port.Denotes client.port := by
  have htakes : Client.Field.Takes .port (.num config.port) (.number client.port) := Client.load_ok_iff.mp h .port
  obtain ⟨x, hx, hdenotes, -⟩ := Client.takes_port htakes
  cases hx
  exact hdenotes

/-! ## (2) The checks in their order -/

/-- There is no capture socket, or it is a socket. -/
inductive CaptureInOrder (t : Tree) (dir : String) : Prop
  | absent (operation : Files.Operation) (path : String) :
      t.lstat (Files.Path.join dir "streamer-capture.sock") = .error (.file .noEntry operation path) →
      CaptureInOrder t dir
  | socket : t.lstat (Files.Path.join dir "streamer-capture.sock") = .ok .socket → CaptureInOrder t dir

/-- Something else stands in its place, or its place cannot be looked at. -/
inductive CaptureFault (t : Tree) (dir : String) : Fault → Prop
  | other (e : Files.Entry) : t.lstat (Files.Path.join dir "streamer-capture.sock") = .ok e → e ≠ .socket →
      CaptureFault t dir (.domain "streamer-capture.sock exists but is not a Unix socket" "SOCKET_ERROR" none)
  | unseen (f : Fault) : t.lstat (Files.Path.join dir "streamer-capture.sock") = .error f →
      (∀ operation path, f ≠ .file .noEntry operation path) → CaptureFault t dir f

/-- The image directory is named and its configuration loads. -/
structure Configured (call : Call) (dir : String) (config : Config) : Prop where
  named : call.environment.imageDir = some dir
  nonempty : dir ≠ ""
  loaded : Config.load call.files dir call.sharedDir = .ok config

/-- And the action is none that is forwarded. -/
structure Excused (call : Call) (dir : String) (config : Config) : Prop extends Configured call dir config where
  other : call.action ∉ ["pre-dump", "post-dump", "pre-restore"]

/-- And the action is forwarded, and a dump finds the capture socket in order. -/
structure Forwardable (call : Call) (dir : String) (config : Config) (action : HookAction) : Prop
    extends Configured call dir config where
  called : call.action = action.name
  forwarded : action ∈ [.preDump, .postDump, .preRestore]
  capture : action = .preDump → CaptureInOrder call.files dir

/-- And the id is not blank, and there is a client for the address and the port. -/
structure Cleared (call : Call) (dir : String) (config : Config) (action : HookAction) (client : Client.Config) : Prop
    extends Forwardable call dir config action where
  identified : Text.allBlank config.id = false
  reachable : Client.Config.load ⟨some (.str config.address), some (.num config.port), none, none, none⟩ call.ambient
    = .ok client

/-- The first check that fails, and its error. -/
inductive Stopped (call : Call) : Fault → Prop
  | unnamed : (∀ dir, call.environment.imageDir = some dir → dir = "") →
      Stopped call (.config ["CRTOOLS_IMAGE_DIR is not set"])
  | unconfigured (dir : String) (f : Fault) : call.environment.imageDir = some dir → dir ≠ "" →
      Config.load call.files dir call.sharedDir = .error f → Stopped call f
  | uncaptured (dir : String) (config : Config) (f : Fault) : Configured call dir config → call.action = "pre-dump" →
      CaptureFault call.files dir f → Stopped call f
  | unidentified (dir : String) (config : Config) (action : HookAction) : Forwardable call dir config action →
      Text.allBlank config.id = true → Stopped call (.validation "Client ID must not be empty" (some "id"))
  | unreachable (dir : String) (config : Config) (action : HookAction) (f : Fault) :
      Forwardable call dir config action → Text.allBlank config.id = false →
      Client.Config.load ⟨some (.str config.address), some (.num config.port), none, none, none⟩ call.ambient
        = .error f → Stopped call f

theorem capture_checked (t : Tree) (dir : String) : CaptureInOrder t dir ∨ ∃ f, CaptureFault t dir f := by
  cases h : t.lstat (Files.Path.join dir "streamer-capture.sock") with
  | ok e =>
    by_cases he : e = .socket
    · subst he
      exact Or.inl (.socket h)
    · exact Or.inr ⟨_, .other e h he⟩
  | error f =>
    by_cases hf : ∃ operation path, f = .file .noEntry operation path
    · obtain ⟨operation, path, rfl⟩ := hf
      exact Or.inl (.absent operation path h)
    · exact Or.inr ⟨f, .unseen f h fun operation path he => hf ⟨operation, path, he⟩⟩

/-- The names of the forwarded actions. -/
theorem mem_forwarded_names {name : String} :
    name ∈ ["pre-dump", "post-dump", "pre-restore"] ↔ ∃ action ∈ forwarded, action.name = name := by
  have hnames : ["pre-dump", "post-dump", "pre-restore"] = forwarded.map HookAction.name := rfl
  rw [hnames, List.mem_map]

theorem configured_checked {call : Call} {dir : String} {config : Config} {action : HookAction}
    (h : Configured call dir config) (hcalled : call.action = action.name)
    (hforwarded : action ∈ forwarded) :
    (∃ f, Stopped call f) ∨ Forwardable call dir config action := by
  -- only a dump minds the capture socket
  by_cases hdump : action = .preDump
  · subst hdump
    rcases capture_checked call.files dir with hcapture | ⟨f, hf⟩
    · exact Or.inr ⟨h, hcalled, hforwarded, fun _ => hcapture⟩
    · exact Or.inl ⟨f, .uncaptured dir config f h hcalled hf⟩
  · exact Or.inr ⟨h, hcalled, hforwarded, fun he => absurd he hdump⟩

theorem forwardable_checked {call : Call} {dir : String} {config : Config} {action : HookAction}
    (h : Forwardable call dir config action) :
    (∃ f, Stopped call f) ∨ ∃ client, Cleared call dir config action client := by
  cases hid : Text.allBlank config.id with
  | true => exact Or.inl ⟨_, .unidentified dir config action h hid⟩
  | false =>
    cases hclient : Client.Config.load (overrides config) call.ambient with
    | error f => exact Or.inl ⟨f, .unreachable dir config action f h hid hclient⟩
    | ok client => exact Or.inr ⟨client, h, hid, hclient⟩

/-- Every call is stopped, excused or cleared. -/
theorem checked (call : Call) :
    (∃ f, Stopped call f) ∨ (∃ dir config, Excused call dir config) ∨
      ∃ dir config action client, Cleared call dir config action client := by
  by_cases hdir : ∀ dir, call.environment.imageDir = some dir → dir = ""
  · exact Or.inl ⟨_, .unnamed hdir⟩
  simp only [not_forall] at hdir
  obtain ⟨dir, hnamed, hne⟩ := hdir
  cases hload : Config.load call.files dir call.sharedDir with
  | error f => exact Or.inl ⟨f, .unconfigured dir f hnamed hne hload⟩
  | ok config =>
    have hconfigured : Configured call dir config := ⟨hnamed, hne, hload⟩
    by_cases haction : call.action ∈ ["pre-dump", "post-dump", "pre-restore"]
    · obtain ⟨action, hforwarded, hcalled⟩ := mem_forwarded_names.mp haction
      rcases configured_checked hconfigured hcalled.symm hforwarded with hstopped | hready
      · exact Or.inl hstopped
      · rcases forwardable_checked hready with hstopped | ⟨client, hcleared⟩
        · exact Or.inl hstopped
        · exact Or.inr (Or.inr ⟨dir, config, action, client, hcleared⟩)
    · exact Or.inr (Or.inl ⟨dir, config, hconfigured, haction⟩)

/-! ## (3) The plan -/

/-- The request that is made of a configuration. -/
def hookRequest (config : Config) (action : HookAction) : Request :=
  ⟨config.id, action.name, .list (Text.join ":" (Request.listedNames (Text.splitOn ':' config.dependencies)))⟩

variable {call : Call} {dir : String} {config : Config} {action : HookAction} {client : Client.Config}

theorem imageDir_named (hnamed : call.environment.imageDir = some dir) (hne : dir ≠ "") :
    imageDir call.environment = .ok dir := by
  simp only [imageDir, hnamed, if_neg hne]

theorem imageDir_unnamed (h : ∀ dir, call.environment.imageDir = some dir → dir = "") :
    imageDir call.environment = .error (.config ["CRTOOLS_IMAGE_DIR is not set"]) := by
  unfold imageDir
  split
  · rfl
  · rename_i dir hdir
    rw [if_pos (h dir hdir)]
    rfl

theorem checkCapture_inOrder {t : Tree} (h : CaptureInOrder t dir) : checkCapture t dir = .ok () := by
  unfold checkCapture
  cases h with
  | absent operation path h =>
    have hfound : t.lstat (capturePath dir) = .error (.file .noEntry operation path) := h
    rw [hfound]
  | socket h =>
    have hfound : t.lstat (capturePath dir) = .ok .socket := h
    rw [hfound]
    rfl

theorem checkCapture_fault {t : Tree} {f : Fault} (h : CaptureFault t dir f) : checkCapture t dir = .error f := by
  unfold checkCapture
  cases h with
  | other e h he =>
    have hfound : t.lstat (capturePath dir) = .ok e := h
    rw [hfound]
    cases e with
    | socket => exact absurd rfl he
    | _ => rfl
  | unseen f h hf =>
    have hfound : t.lstat (capturePath dir) = .error f := h
    rw [hfound]
    split
    · rename_i he
      cases he
    · rename_i operation path he
      cases he
      exact absurd rfl (hf operation path)
    · rename_i he
      cases he
      rfl

theorem forwarded?_name (h : action ∈ forwarded) : forwarded? action.name = some action := by
  simp only [forwarded, List.mem_cons, List.not_mem_nil, or_false] at h
  rcases h with rfl | rfl | rfl <;> rfl

theorem forwarded?_other {name : String} (h : name ∉ ["pre-dump", "post-dump", "pre-restore"]) :
    forwarded? name = none := by
  rw [forwarded?, List.find?_eq_none]
  intro action haction hname
  exact h (mem_forwarded_names.mpr ⟨action, haction, beq_iff_eq.mp hname⟩)

/-- The plan of an action that passes the capture socket. -/
def forwardPlan (config : Config) (ambient : Environment) (action : HookAction) : Except Fault Plan := do
  let request ← (Request.ofHook config.id action.name (Text.splitOn ':' config.dependencies)).mapError
    Request.HookError.fault
  let client ← Client.Config.load (overrides config) ambient
  return .forward request client

/-- The id and the client decide it. -/
theorem forwardPlan_eq (config : Config) (ambient : Environment) (action : HookAction) :
    forwardPlan config ambient action
      = if Text.allBlank config.id then .error (.validation "Client ID must not be empty" (some "id"))
        else (Client.Config.load (overrides config) ambient).map (.forward (hookRequest config action)) := by
  rw [forwardPlan, Request.ofHook_splitOn]
  split
  · rfl
  · cases Client.Config.load (overrides config) ambient <;> rfl

theorem plan_of_configured (h : Configured call dir config) :
    plan call = match forwarded? call.action with
      | none => .ok (.skip config)
      | some action =>
        if action = .preDump then (checkCapture call.files dir).bind fun _ => forwardPlan config call.ambient action
        else forwardPlan config call.ambient action := by
  have hbind {α β : Type} (a : α) (f : α → Except Fault β) : (Except.ok a >>= f) = f a := rfl
  rw [plan, imageDir_named h.named h.nonempty, hbind, h.loaded, hbind]
  rfl

theorem plan_of_excused (h : Excused call dir config) : plan call = .ok (.skip config) := by
  rw [plan_of_configured h.toConfigured, forwarded?_other h.other]

theorem plan_of_forwardable (h : Forwardable call dir config action) :
    plan call = forwardPlan config call.ambient action := by
  rw [plan_of_configured h.toConfigured, h.called, forwarded?_name h.forwarded]
  simp only
  split
  · rename_i hdump
    rw [checkCapture_inOrder (h.capture hdump)]
    rfl
  · rfl

theorem plan_of_stopped {f : Fault} (h : Stopped call f) : plan call = .error f := by
  cases h with
  | unnamed h =>
    rw [plan, imageDir_unnamed h]
    rfl
  | unconfigured dir f hnamed hne hload =>
    have hbind {α β : Type} (a : α) (f : α → Except Fault β) : (Except.ok a >>= f) = f a := rfl
    rw [plan, imageDir_named hnamed hne, hbind, hload]
    rfl
  | uncaptured dir config f h hcalled hf =>
    have hdump : call.action = HookAction.preDump.name := hcalled
    rw [plan_of_configured h, hdump, forwarded?_name (by decide)]
    simp only [if_true, checkCapture_fault hf]
    rfl
  | unidentified dir config action h hid => rw [plan_of_forwardable h, forwardPlan_eq, if_pos hid]
  | unreachable dir config action f h hid hclient =>
    have hfault : Client.Config.load (overrides config) call.ambient = .error f := hclient
    rw [plan_of_forwardable h, forwardPlan_eq, hid, hfault]
    rfl

theorem plan_of_cleared (h : Cleared call dir config action client) :
    plan call = .ok (.forward (hookRequest config action) client) := by
  have hclient : Client.Config.load (overrides config) call.ambient = .ok client := h.reachable
  rw [plan_of_forwardable h.toForwardable, forwardPlan_eq, h.identified, hclient]
  rfl

/-- What is forwarded is a hook call of a forwarded action. -/
theorem hookRequest_calls (h : Cleared call dir config action client) :
    (hookRequest config action).Calls forwarded := by
  have hmade : Request.ofHook config.id action.name (Text.splitOn ':' config.dependencies)
      = .ok (hookRequest config action) := by
    rw [Request.ofHook_splitOn, h.identified]
    rfl
  exact Request.ofHook_sound h.forwarded hmade

/-! ## (4) The run -/

theorem run_of_stopped {f : Fault} (h : Stopped call f) (script : Client.Script) :
    run call script = ⟨some (.error f), [], [], call.now, none⟩ := by
  rw [run, plan_of_stopped h]

theorem run_of_excused (h : Excused call dir config) (dated : Clock.HasDate call.now) (script : Client.Script) :
    (run call script).result = some (.ok (.skipped call.action)) ∧ (run call script).trace = [] := by
  have hcut : call.loggerInUse.cut [skipRecord call.now call.action config] = false := by
    refine call.loggerInUse.cut_of_dated fun r hr => ?_
    rw [List.mem_singleton.mp hr]
    exact dated
  rw [run, plan_of_excused h]
  refine ⟨?_, rfl⟩
  simp only [Log.Output.result, Log.Logger.output_fault, hcut]
  rfl

/-- The client does not refuse the request: a cleared call is one send. -/
theorem send_of_cleared (h : Cleared call dir config action client) (script : Client.Script) :
    let request := hookRequest config action
    (Client.Session.start call.now).send client request.toJson script
      = (Client.Session.start call.now).sendRaw client (Text.Utf8.encode request.toJson.text) (some config.id)
          script := by
  intro request
  rw [Client.Session.send_envelope client _ (Request.isEnvelope_of_calls (hookRequest_calls h))]
  rfl

theorem run_of_cleared (h : Cleared call dir config action client) (script : Client.Script) :
    let request := hookRequest config action
    let start := Client.Session.start call.now
    let sent := start.sendRaw client (Text.Utf8.encode request.toJson.text) (some config.id) script
    let shown := sent.2.shown call.loggerInUse
    run call script
      = ⟨result request shown, shown.trace, shown.console, (start.showing call.loggerInUse sent).1.now,
        shown.crash⟩ := by
  intro request start sent shown
  rw [run, plan_of_cleared h]
  simp only [send_of_cleared h]
  rfl

/-- It does what that send does with the script as far as its listeners come. -/
theorem trace_of_cleared (h : Cleared call dir config action client) (dated : Clock.HasDate call.now)
    (script : Client.Script) :
    (run call script).trace = ((Client.Session.start call.now).sendRaw client
      (Text.Utf8.encode (hookRequest config action).toJson.text) (some config.id)
      (script.reached call.loggerInUse client call.now)).2.trace := by
  rw [run_of_cleared h]
  exact (Client.Session.sendRaw_shown client (.start call.now) _ _ _ script
    (Client.Session.sendRaw_opening_cut client (.start call.now) _ _ script _ dated)).1

/-- What a forwarded call results in, by what comes of its send. A crash breaks the delivery, so one
    that is not broken is that of no crash. -/
theorem result_told (request : Request) (l : Log.Logger) (turn : Client.Turn) :
    let shown := turn.shown l
    (shown.delivery = .pending → result request shown = none) ∧
    (∀ response, shown.delivery = .done (.ok response) → result request shown = some (.ok (.sent request response))) ∧
    (∀ f, shown.delivery = .done (.error f) → result request shown = some (.error f)) ∧
    (∀ f, shown.delivery = .broken f →
      result request shown = if shown.crash.isSome then none else some (.error f)) := by
  intro shown
  have hintact (hbroken : ∀ f, shown.delivery ≠ .broken f) : shown.crash = none := Client.Turn.uncrashed hbroken
  refine ⟨fun hd => ?_, fun response hd => ?_, fun f hd => ?_, fun f hd => ?_⟩
  · rw [result, hintact (by simp [hd]), hd]
  · rw [result, hintact (by simp [hd]), hd]
    rfl
  · rw [result, hintact (by simp [hd]), hd]
    rfl
  · rw [result, hd]
    cases shown.crash <;> rfl

/-- A call connects exactly when every check holds, in their order. The first that does not hold
    gives the result, and an action that is not forwarded is skipped once there is a
    configuration; neither does anything. A call that connects does so once, to the address and
    the port of its configuration, and whatever it writes is its request. Its result is that of the
    one send: none while the send is pending or when the program has crashed, the response with the
    request, or the failure. -/
theorem connects_iff_every_check_passes (call : Call) (script : Client.Script) (dated : Clock.HasDate call.now) :
    let done := run call script
    ((∃ host port, .connect host port ∈ done.trace) ↔
      ∃ dir config action client, Cleared call dir config action client) ∧
    ((∃ f, Stopped call f) ∨ (∃ dir config, Excused call dir config) ∨
      ∃ dir config action client, Cleared call dir config action client) ∧
    (∀ f, Stopped call f → done.result = some (.error f) ∧ done.trace = []) ∧
    (∀ dir config, Excused call dir config → done.result = some (.ok (.skipped call.action)) ∧ done.trace = []) ∧
    (∀ dir config action client, Cleared call dir config action client →
      let names := ((Text.splitOn ':' config.dependencies).map Text.trim).filter (· ≠ "")
      let request : Request := ⟨config.id, call.action, .list (Text.join ":" names)⟩
      let payload := Text.Utf8.encode (Json.obj
        [("id", .str config.id), ("action", .str call.action), ("dependencies", .str (Text.join ":" names))]).text
      let turn := ((Client.Session.start call.now).sendRaw client payload (some config.id) script).2
      let shown := turn.shown call.loggerInUse
      Envelope.serialize request.toJson = .ok payload ∧
      config.port.Denotes client.port ∧
      (∃ rest, done.trace = .connect config.address client.port :: rest ∧ ∀ host port, .connect host port ∉ rest) ∧
      (∀ written, .write written ∈ done.trace → written = payload) ∧
      done.trace = shown.trace ∧ (done.crash = none → done.trace = turn.trace) ∧ done.crash = shown.crash ∧
      (shown.delivery = .pending → done.result = none) ∧
      (∀ response, shown.delivery = .done (.ok response) → done.result = some (.ok (.sent request response))) ∧
      (∀ f, shown.delivery = .done (.error f) → done.result = some (.error f)) ∧
      (∀ f, shown.delivery = .broken f → done.result = if done.crash.isSome then none else some (.error f))) := by
  intro done
  have hstopped (f : Fault) (h : Stopped call f) : done.result = some (.error f) ∧ done.trace = [] :=
    ⟨congrArg Run.result (run_of_stopped h script), congrArg Run.trace (run_of_stopped h script)⟩
  have hexcused (dir : String) (config : Config) (h : Excused call dir config) :
      done.result = some (.ok (.skipped call.action)) ∧ done.trace = [] := run_of_excused h dated script
  have hcleared (dir : String) (config : Config) (action : HookAction) (client : Client.Config)
      (h : Cleared call dir config action client) :
      ∃ rest, done.trace = .connect config.address client.port :: rest ∧ ∀ host port, .connect host port ∉ rest := by
    have hhost : client.host = config.address := (load_host h.reachable).trans (load_trimmed h.loaded)
    rw [← hhost]
    simp only [done, trace_of_cleared h dated script]
    exact Client.Session.sendRaw_connects client _ _ _ _
  refine ⟨⟨?_, ?_⟩, checked call, hstopped, hexcused, ?_⟩
  · rintro ⟨host, port, hconnect⟩
    rcases checked call with ⟨f, h⟩ | ⟨dir, config, h⟩ | h
    · rw [(hstopped f h).2] at hconnect
      cases hconnect
    · rw [(hexcused dir config h).2] at hconnect
      cases hconnect
    · exact h
  · rintro ⟨dir, config, action, client, h⟩
    obtain ⟨rest, htrace, -⟩ := hcleared dir config action client h
    exact ⟨config.address, client.port, htrace ▸ List.mem_cons_self⟩
  · intro dir config action client h names request payload turn shown
    have hrequest : request = hookRequest config action := by
      simp only [request, h.called]
      rfl
    have hrun : done = _ := run_of_cleared h script
    rw [← hrequest] at hrun
    have hcrash : done.crash = shown.crash := congrArg Run.crash hrun
    have htrace : done.trace = shown.trace := congrArg Run.trace hrun
    have hresult : done.result = result request shown := congrArg Run.result hrun
    have hsent : Envelope.serialize request.toJson = .ok payload := by
      refine Envelope.serialize_ok_iff.mpr ⟨?_, rfl⟩
      rw [hrequest]
      exact Request.isEnvelope_of_calls (hookRequest_calls h)
    have hopening : call.loggerInUse.cut turn.opening = false :=
      Client.Session.sendRaw_opening_cut client (.start call.now) payload _ script _ dated
    refine ⟨hsent, load_port h.reachable, hcleared dir config action client h, ?_, htrace, ?_, hcrash, ?_⟩
    · intro written hwritten
      rw [htrace] at hwritten
      exact Client.Session.sendRaw_writes client _ _ _ ((Client.Turn.shown_trace_initial _ turn).subset hwritten)
    · intro hnone
      rw [htrace]
      exact Client.Turn.shown_trace_whole _ hopening (hcrash.symm.trans hnone)
    · rw [hresult, hcrash]
      exact result_told request call.loggerInUse turn

/-- A dump with its capture socket in place, to the port that its file names in a text. -/
theorem a_dump_is_forwarded :
    let config : Json := .obj [("id", .str "web"), ("dependencies", .str "db: cache:"), ("address", .str " relay "),
      ("port", .str "9000")]
    let files : Tree :=
      ⟨[], [(["img"], .directory), (["img", "criu-coordinator.json"], .file (Text.Utf8.encode config.text)),
        (["img", "streamer-capture.sock"], .socket)]⟩
    let call : Call := ⟨0, "pre-dump", { imageDir := some "img" }, {}, "/etc/criu", none, files⟩
    Clock.HasDate call.now ∧ .connect "relay" 9000 ∈ (run call (.events [.connected])).trace ∧
      ∃ dir config action client, Cleared call dir config action client := by
  intro config files call
  have hdated : Clock.HasDate call.now := by decide
  have hconnects : .connect "relay" 9000 ∈ (run call (.events [.connected])).trace := by decide +kernel
  obtain ⟨hcleared, -⟩ := connects_iff_every_check_passes call (.events [.connected]) hdated
  exact ⟨hdated, hconnects, hcleared.mp ⟨"relay", 9000, hconnects⟩⟩

end Hook

end CheckpointRelay
