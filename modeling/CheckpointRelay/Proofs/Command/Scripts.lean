/-
  CheckpointRelay.Proofs.Command.Scripts — the program as an action script.

  An action script is told what to do by its variables and by a file in its image directory. It
  reads no arguments, and the address in that file stands over the one in the environment, the
  default of the file included. So it does what the `hook` command does that is given the same
  id, action and dependencies.
  - `run_rerouted`: arguments and address have no say (`arguments_and_address_do_not_matter`).
  - `load_described`: the configuration that a file describes.
  - `runScript_cleared` / `run_hookLine`: a script and a command line come to the same send.
  - `hook_entries_agree`: they do the same and end alike, unless the program keeps a word of the
    line from the command.
-/

import CheckpointRelay.Proofs.Command.Endings
import CheckpointRelay.Proofs.Command.Words
import CheckpointRelay.Proofs.Hook.Lookup

namespace CheckpointRelay

open Envelope (HookAction Request)

/-! ## (1) What a script does not read -/

/-- The environment with another address of the coordinator. -/
def Environment.rerouted (e : Environment) (host port : Option String) : Environment := { e with host, port }

namespace Hook

theorem load_rerouted (config : Config) (e : Environment) (host port : Option String) :
    Client.Config.load (overrides config) (e.rerouted host port) = Client.Config.load (overrides config) e := by
  refine Client.load_congr fun f => ?_
  cases f <;> rfl

/-- The call with other addresses in its environments. -/
def Call.rerouted (call : Call) (host port host' port' : Option String) : Call :=
  { call with
    environment := call.environment.rerouted host port
    ambient := call.ambient.rerouted host' port' }

variable (call : Call) (host port host' port' : Option String)

theorem plan_rerouted : plan (call.rerouted host port host' port') = plan call := by
  unfold plan
  simp only [Call.rerouted, load_rerouted]
  rfl

theorem run_rerouted (script : Client.Script) : run (call.rerouted host port host' port') script = run call script := by
  unfold run
  rw [plan_rerouted]
  rfl

end Hook

namespace Command

/-- The run with other arguments, and with other addresses in its environments. -/
def Call.rerouted (call : Call) (words : List String) (host port host' port' : Option String) : Call :=
  { call with
    words
    environment := call.environment.rerouted host port
    ambient := call.ambient.rerouted host' port' }

/-- A run as an action script is the same with any arguments and with any addresses in its
    environments, and so is the call of a hook. -/
theorem arguments_and_address_do_not_matter (script : Client.Script) (words : List String)
    (host port host' port' : Option String) :
    (∀ (call : Call) (action : String), call.environment.scriptAction = some action →
      run (call.rerouted words host port host' port') script = run call script) ∧
    (∀ call : Hook.Call, Hook.run (call.rerouted host port host' port') script = Hook.run call script) := by
  refine ⟨?_, fun call => Hook.run_rerouted call host port host' port' script⟩
  intro call action haction
  have haction' : (call.rerouted words host port host' port').environment.scriptAction = some action := haction
  have hcall : hookCall (call.rerouted words host port host' port') action
      = (hookCall call action).rerouted host port host' port' := rfl
  calc run (call.rerouted words host port host' port') script
      = runScript (call.rerouted words host port host' port') action script := by simp only [run, haction']
    _ = runScript call action script := by rw [runScript_eq, runScript_eq, hcall, Hook.run_rerouted]
    _ = run call script := by simp only [run, haction]

/-- A script in an environment where nothing is right but its own variables. -/
theorem a_script_in_a_broken_environment :
    let config : Json := .obj [("id", .str "web"), ("dependencies", .str "db")]
    let files : Files.Tree :=
      ⟨[], [(["img"], .directory), (["img", "criu-coordinator.json"], .file (Text.Utf8.encode config.text))]⟩
    let script : Client.Script := .events [.connected, .data [65, 67, 75]]
    let plain : Environment := { scriptAction := some "post-dump", imageDir := some "img" }
    let broken : Environment := { plain with host := some " ", port := some "eighty" }
    let call : Call := ⟨0, [], plain, plain, files⟩
    .connect "127.0.0.1" 8080 ∈ (run call script).trace ∧
    run ⟨0, ["--port", "1.5"], broken, broken, files⟩ script = run call script ∧
    Hook.run ⟨0, "post-dump", broken, broken, "/etc/criu", none, files⟩ script
      = Hook.run ⟨0, "post-dump", plain, plain, "/etc/criu", none, files⟩ script := by
  intro config files script plain broken call
  obtain ⟨hruns, hhooks⟩ := arguments_and_address_do_not_matter script ["--port", "1.5"] (some " ") (some "eighty")
    (some " ") (some "eighty")
  exact ⟨by decide +kernel, hruns call "post-dump" rfl, hhooks ⟨0, "post-dump", plain, plain, "/etc/criu", none, files⟩⟩

end Command

/-! ## (2) The file of a script -/

/-- No variable of the client is set. -/
structure Environment.Unset (e : Environment) : Prop where
  host : e.host = none
  port : e.port = none
  timeoutMs : e.timeoutMs = none
  maxResponseBytes : e.maxResponseBytes = none
  logLevel : e.logLevel = none

namespace Client

/-- The client of nobody's making. -/
def plainClient : Config := ⟨"127.0.0.1", 8080, 0, 1024, .info⟩

/-- Overrides that are the defaults leave the client as it is. -/
theorem load_plain {overrides : Raw} {e : Environment} (unset : e.Unset)
    (h : ∀ f : Field, (overrides.field? f).getD f.default = f.default) :
    Config.load overrides e = .ok plainClient := by
  rw [load_ok_iff]
  intro f
  have hambient : f.ambient e = f.default := by
    cases f with
    | host => simp only [Field.ambient, Field.setting?, unset.host]
    | port => simp only [Field.ambient, Field.setting?, unset.port]
    | timeoutMs => simp only [Field.ambient, Field.setting?, unset.timeoutMs]
    | maxResponseBytes => simp only [Field.ambient, Field.setting?, unset.maxResponseBytes]
    | logLevel => simp only [Field.ambient, Field.setting?, unset.logLevel]
  have hdefault : (f.check (some f.default)).toOption = some (plainClient.value f) := by
    cases f <;> decide +kernel
  rw [Field.effective, hambient, h f, ← check_ok_iff]
  cases hcheck : f.check (some f.default) with
  | error found =>
    rw [hcheck] at hdefault
    cases hdefault
  | ok v =>
    rw [hcheck] at hdefault
    exact congrArg Except.ok (Option.some.inj hdefault)

theorem loggerOf_unset {e : Environment} (unset : e.Unset) (component : String) :
    loggerOf component e = .forComponent component (some .info) := by
  have hlevel : levelOfEnvironment e = .info := by
    simp only [levelOfEnvironment, Settings.ofEnvironment, unset.logLevel]
    decide
  rw [loggerOf, hlevel]

end Client

namespace Hook

/-- The file in an image directory is the JSON text of an object with this id and these
    dependencies, without an address and a port. -/
def Describes (t : Files.Tree) (dir id deps : String) : Prop :=
  ∃ content ms, t.read (Files.Path.join dir "criu-coordinator.json") = .ok content ∧
    Json.read? (Text.Utf8.decode content) = some (.obj ms) ∧
    Keyed.get? ms "id" = some (.str id) ∧ Keyed.get? ms "dependencies" = some (.str deps) ∧
    Keyed.get? ms "address" = none ∧ Keyed.get? ms "port" = none

/-- A file that a value without numbers was written to describes what the value says. -/
theorem describes_written {t : Files.Tree} {dir id deps : String} {v : Json}
    (hread : t.read (Files.Path.join dir "criu-coordinator.json") = .ok (Text.Utf8.encode v.text))
    (hnumbers : v.numberFree = true) {ms : Keyed Json} (hv : v.ordered = .obj ms)
    (hid : Keyed.get? ms "id" = some (.str id)) (hdeps : Keyed.get? ms "dependencies" = some (.str deps))
    (haddress : Keyed.get? ms "address" = none) (hport : Keyed.get? ms "port" = none) : Describes t dir id deps := by
  refine ⟨_, ms, hread, ?_, hid, hdeps, haddress, hport⟩
  rw [Text.Utf8.decode_encode, Json.read_text v hnumbers, hv]

theorem load_described {t : Files.Tree} {dir id deps : String} (h : Describes t dir id deps)
    (hid : Text.allBlank id = false) (sharedDir : String) :
    Config.load t dir sharedDir = .ok ⟨id, deps, "127.0.0.1", .ofNat 8080⟩ := by
  obtain ⟨content, ms, hread, hjson, hid', hdeps, haddress, hport⟩ := h
  have hfile : t.stat (Files.Path.join dir "criu-coordinator.json") = .ok (.file content) :=
    Files.Tree.stat_of_read hread
  have hne : id ≠ "" := by
    rintro rfl
    cases hid
  rw [Config.load_taken (Config.firstFile_file hfile) hfile, Config.ofContent, hjson]
  simp only [Config.validate, Config.ofMembers, hid', hdeps, haddress, hport, checkId, if_neg hne, checkDependencies]
  rfl

end Hook

/-! ## (3) The hook command and the script -/

namespace Command

/-- A run by the hook command with nothing set. -/
structure ByLine (call : Call) (id : String) (action : HookAction) (deps : String) : Prop where
  line : call.words = hookLine id action deps
  unscripted : call.environment.scriptAction = none
  unset : call.ambient.Unset

/-- A run as an action script with nothing else set, in an image directory whose file says the rest. -/
structure ByScript (call : Call) (id : String) (action : HookAction) (deps : String) (dir : String) : Prop where
  scripted : call.environment.scriptAction = some action.name
  named : call.environment.imageDir = some dir
  nonempty : dir ≠ ""
  described : Hook.Describes call.files dir id deps
  capture : Hook.CaptureInOrder call.files dir
  unset : call.ambient.Unset

/-- The configuration of a hook without an address. -/
def hookConfig (id deps : String) : Hook.Config := ⟨id, deps, "127.0.0.1", .ofNat 8080⟩

variable {call : Call} {id deps dir : String} {action : HookAction}

theorem cleared_of_script (forwarded : action ∈ Hook.forwarded) (hid : Text.allBlank id = false)
    (h : ByScript call id action deps dir) :
    Hook.Cleared (hookCall call action.name) dir (hookConfig id deps) action Client.plainClient where
  named := h.named
  nonempty := h.nonempty
  loaded := Hook.load_described h.described hid Hook.sharedConfigDir
  called := rfl
  forwarded := forwarded
  capture _ := h.capture
  identified := hid
  reachable := Client.load_plain h.unset fun f => by cases f <;> rfl

/-- Loggers with one threshold bring a send to the same end. -/
theorem ofShown_congr {l l' : Log.Logger} (h : l.threshold = l'.threshold) (s : Client.Session)
    (sent : Client.Session × Client.Turn) :
    (sent.2.shown l).trace = (s.showing l' sent).2.trace ∧
      Ending.ofShown (sent.2.shown l) (s.showing l sent).1.now
        = .ofShown (s.showing l' sent).2 (s.showing l' sent).1.now := by
  obtain ⟨hdelivery, htrace, hcrash⟩ := Client.Turn.shown_congr h sent.2
  rw [Client.Session.showing_eq, Client.Session.showing_eq, Log.Logger.cut_congr h]
  refine ⟨htrace, ?_⟩
  simp only [Ending.ofShown, hdelivery, hcrash]

/-- A script that passes every check comes to one send. -/
theorem runScript_cleared {config : Hook.Config} {client : Client.Config}
    (h : Hook.Cleared (hookCall call action.name) dir config action client) (script : Client.Script) :
    let start := Client.Session.start call.now
    let showing := start.showing (hookCall call action.name).loggerInUse
      (start.send client (Hook.hookRequest config action).toJson script)
    (runScript call action.name script).trace = showing.2.trace ∧
      (runScript call action.name script).ending = .ofShown showing.2 showing.1.now := by
  intro start showing
  have hhook : Hook.run (hookCall call action.name) script
      = ⟨Hook.result (Hook.hookRequest config action) showing.2, showing.2.trace, showing.2.console, showing.1.now,
        showing.2.crash⟩ := by
    rw [Hook.run, Hook.plan_of_cleared h]
    rfl
  rw [runScript_eq, hhook, ofHook, Hook.result, Ending.ofShown]
  cases showing.2.crash with
  | some f => exact ⟨rfl, rfl⟩
  | none =>
    cases showing.2.delivery with
    | pending => exact ⟨rfl, rfl⟩
    | broken f => exact ⟨failed_trace _ _ _ _ _, failed_ending _ _ _ _ _⟩
    | done result =>
      cases result with
      | ok response => exact ⟨rfl, rfl⟩
      | error f => exact ⟨failed_trace _ _ _ _ _, failed_ending _ _ _ _ _⟩

/-- So does a line of the hook command that is read, with the same client and request. -/
theorem run_hookLine (hid : Text.allBlank id = false) (h : ByLine call id action deps)
    (hfree : ¬Claimed id ∧ (id = "--" ∨ ¬Claimed deps)) (script : Client.Script) :
    let r := Hook.hookRequest (hookConfig id deps) action
    (run call script).trace = (sent call r Client.plainClient script).trace ∧
      (run call script).ending
        = .ofShown (sent call r Client.plainClient script) (sentAt call r Client.plainClient script) := by
  intro r
  have hparse : parse call.words
      = .ok ⟨.hook, [], [("--deps", deps), ("--action", action.name), ("--id", id)]⟩ := by
    rw [h.line]
    exact parse_hook hfree.1 hfree.2
  have hrequest : request call.files ⟨.hook, [], [("--deps", deps), ("--action", action.name), ("--id", id)]⟩
      = .ok r := by
    have hgiven : (value? [("--deps", deps), ("--action", action.name), ("--id", id)] "--action").getD ""
        = action.name := rfl
    have hname : HookAction.ofName? action.name = some action := by
      cases action <;> rfl
    simp only [request, hgiven, hname]
    show (Request.ofHook id action.name (Text.splitOn ':' deps)).mapError Request.HookError.fault = Except.ok r
    simp only [Request.ofHook_splitOn, hid]
    rfl
  have hconfig : Client.Config.load (overrides []) call.ambient = .ok Client.plainClient :=
    Client.load_plain h.unset fun f => by cases f <;> rfl
  exact run_prepared_told script h.unscripted hparse hrequest hconfig

/-- The hook command and an action script that are given the same do the same and end alike, for
    every id that is not blank and all dependencies, unless the program claims one of them on
    the line: then the command does nothing. The script connects whatever they are. -/
theorem hook_entries_agree (command hook : Call) (action : HookAction)
    (forwarded : action ∈ [.preDump, .postDump, .preRestore]) (identified : Text.allBlank id = false)
    (byLine : ByLine command id action deps) (byScript : ByScript hook id action deps dir)
    (sameTime : command.now = hook.now) (script : Client.Script) :
    (¬Claimed id ∧ (id = "--" ∨ ¬Claimed deps) →
      (run command script).trace = (run hook script).trace ∧ (run command script).ending = (run hook script).ending) ∧
    (Claimed id ∨ id ≠ "--" ∧ Claimed deps → (run command script).trace = []) ∧
    (Clock.HasDate hook.now → .connect "127.0.0.1" 8080 ∈ (run hook script).trace) := by
  have hcleared := cleared_of_script forwarded identified byScript
  have hhook : run hook script = runScript hook action.name script := by
    simp only [run, byScript.scripted]
  have hlogger : (hookCall hook action.name).loggerInUse = .forComponent "action-hook" (some .info) :=
    Client.loggerOf_unset byScript.unset "action-hook"
  obtain ⟨htrace, hending⟩ := runScript_cleared hcleared script
  refine ⟨?_, ?_, ?_⟩
  · intro hfree
    obtain ⟨htrace', hending'⟩ := run_hookLine identified byLine hfree script
    -- the loggers differ in their name only
    have hthreshold : (Log.Logger.forComponent "tcp-client" (some Client.plainClient.logLevel)).threshold
        = (hookCall hook action.name).loggerInUse.threshold := by
      rw [hlogger]
      rfl
    obtain ⟨htraces, hendings⟩ := ofShown_congr hthreshold (Client.Session.start hook.now)
      ((Client.Session.start hook.now).send Client.plainClient (Hook.hookRequest (hookConfig id deps) action).toJson
        script)
    rw [sent, sameTime] at htrace'
    rw [sent, sentAt, sameTime] at hending'
    rw [hhook]
    exact ⟨htrace'.trans (htraces.trans htrace.symm), hending'.trans (hendings.trans hending.symm)⟩
  · intro hclaimed
    obtain ⟨stop, hparse⟩ := parse_hook_claimed action hclaimed
    rw [← byLine.line] at hparse
    simp only [run, byLine.unscripted, hparse]
    cases stop <;> rfl
  · intro dated
    rw [hhook, runScript_trace, Hook.trace_of_cleared hcleared dated script]
    obtain ⟨rest, hconnects, -⟩ := Client.Session.sendRaw_connects Client.plainClient (.start hook.now)
      (Text.Utf8.encode (Hook.hookRequest (hookConfig id deps) action).toJson.text) (some id)
      (script.reached (hookCall hook action.name).loggerInUse Client.plainClient hook.now)
    exact hconnects ▸ List.mem_cons_self

/-- A dump by both entries, with names to be trimmed and a file with a member more. -/
theorem a_dump_by_both_entries :
    let config : Json := .obj [("color", .str "red"), ("dependencies", .str " db :: cache"), ("id", .str "web")]
    let files : Files.Tree :=
      ⟨[], [(["img"], .directory), (["img", "criu-coordinator.json"], .file (Text.Utf8.encode config.text))]⟩
    let command : Call := ⟨0, hookLine "web" .preDump " db :: cache", {}, {}, ⟨[], []⟩⟩
    let environment : Environment := { scriptAction := some "pre-dump", imageDir := some "img" }
    let hook : Call := ⟨0, ["--version"], environment, environment, files⟩
    let script : Client.Script := .events [.connected, .data [65, 67, 75]]
    (run command script).trace = (run hook script).trace ∧ (run command script).ending = (run hook script).ending ∧
      .connect "127.0.0.1" 8080 ∈ (run hook script).trace := by
  intro config files command environment hook script
  have hdescribed : Hook.Describes files "img" "web" " db :: cache" :=
    Hook.describes_written (v := config) rfl rfl rfl rfl rfl rfl rfl
  have hcapture : Hook.CaptureInOrder files "img" := .absent _ _ rfl
  obtain ⟨hsame, -, hconnects⟩ := hook_entries_agree command hook .preDump (by decide) (by decide)
    ⟨rfl, rfl, ⟨rfl, rfl, rfl, rfl, rfl⟩⟩
    ⟨rfl, rfl, by decide, hdescribed, hcapture, ⟨rfl, rfl, rfl, rfl, rfl⟩⟩ rfl script
  obtain ⟨htrace, hending⟩ := hsame (by decide)
  exact ⟨htrace, hending, hconnects (by decide)⟩

/-- An id that is a flag of the program: the command prints the version, and the script connects. -/
theorem an_id_that_is_a_flag :
    let config : Json := .obj [("id", .str "-V"), ("dependencies", .str "")]
    let files : Files.Tree :=
      ⟨[], [(["img"], .directory), (["img", "criu-coordinator.json"], .file (Text.Utf8.encode config.text))]⟩
    let command : Call := ⟨0, hookLine "-V" .preDump "", {}, {}, files⟩
    let environment : Environment := { scriptAction := some "pre-dump", imageDir := some "img" }
    let hook : Call := ⟨0, [], environment, environment, files⟩
    let script : Client.Script := .events [.connected, .data [65, 67, 75]]
    Text.allBlank "-V" = false ∧ Hook.Describes files "img" "-V" "" ∧ Hook.CaptureInOrder files "img" ∧
      (run command script).trace = [] ∧ .connect "127.0.0.1" 8080 ∈ (run hook script).trace := by
  intro config files command environment hook script
  exact ⟨by decide, Hook.describes_written (v := config) rfl rfl rfl rfl rfl rfl rfl, .absent _ _ rfl, rfl,
    by decide +kernel⟩

end Command

end CheckpointRelay
