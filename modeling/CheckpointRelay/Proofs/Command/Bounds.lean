/-
  CheckpointRelay.Proofs.Command.Bounds — the bounds of a client hold in every run.

  Values come to a client as overrides, from the environment, on the command line and in the
  file of a hook. Whatever they are, a run that does anything does it with a configuration that
  was loaded, so it stays in the bounds of that (`Client.Bounded`). Where none can be loaded the
  run ends before it connects, with what is wrong with the configuration or the command line.
  - `Hook.run_bounded` / `Command.run_bounded`: a run does nothing, or it is in bounds.
  - `Hook.run_unreachable` / `Hook.run_unconfigured` / `Command.run_unloaded`: how the others end.
  - `only_checked_values_reach_the_network`: all of it.
-/

import CheckpointRelay.Proofs.Client.Bounds
import CheckpointRelay.Proofs.Command.Endings
import CheckpointRelay.Proofs.Command.Lines
import CheckpointRelay.Proofs.Text.Literals

namespace CheckpointRelay

open Client (Bounded)
open Envelope (Request)
open Text.Utf8 (Bytes)

/-! ## (1) Hooks -/

namespace Hook

/-- The bytes of the reply that a call gives. -/
def Run.Gives (r : Run) (raw : Bytes) : Prop :=
  ∃ request response, r.result = some (.ok (.sent request response)) ∧ response.raw = raw

theorem gives_of_result {request request' : Request} {shown : Client.Shown} {response : Client.Response}
    (h : result request shown = some (.ok (.sent request' response))) : shown.delivery = .done (.ok response) := by
  rw [result] at h
  cases hcrash : shown.crash with
  | some f =>
    rw [hcrash] at h
    cases h
  | none =>
    rw [hcrash] at h
    cases hd : shown.delivery with
    | pending =>
      rw [hd] at h
      cases h
    | broken f =>
      rw [hd] at h
      cases h
    | done r =>
      rw [hd] at h
      cases r with
      | error f => cases h
      | ok response' =>
        cases h
        rfl

/-- A call does nothing and gives nothing, or it is in the bounds of its client. -/
theorem run_bounded (call : Call) (script : Client.Script) :
    let done := run call script
    (done.trace = [] ∧ ∀ raw, ¬done.Gives raw) ∨ ∃ dir config action client,
      Cleared call dir config action client ∧ Bounded client done.trace done.Gives := by
  intro done
  cases hplan : plan call with
  | error f =>
    have hdone : done = ⟨some (.error f), [], [], call.now, none⟩ := by
      simp only [done, run, hplan]
    rw [hdone]
    refine Or.inl ⟨rfl, ?_⟩
    rintro raw ⟨request, response, h, -⟩
    cases h
  | ok p =>
    cases p with
    | skip config =>
      have hresult : done.result = some ((call.loggerInUse.output [skipRecord call.now call.action config]).result.map
          fun _ => .skipped call.action) := by
        simp only [done, run, hplan]
      have htrace : done.trace = [] := by
        simp only [done, run, hplan]
      refine Or.inl ⟨htrace, ?_⟩
      rintro raw ⟨request, response, h, -⟩
      rw [hresult] at h
      cases hshown : (call.loggerInUse.output [skipRecord call.now call.action config]).result <;>
        rw [hshown] at h <;> cases h
    | forward request client =>
      obtain ⟨dir, config, action, hcleared, -⟩ := cleared_of_plan hplan
      have hbounded := Client.Session.send_bounded (s := .start call.now) (Client.load_inBounds hcleared.reachable)
        request.toJson script call.loggerInUse
      refine Or.inr ⟨dir, config, action, client, hcleared, ?_⟩
      simp only [done, run, hplan]
      refine hbounded.mono ?_
      rintro raw ⟨request', response, hresult, heq⟩
      exact ⟨response, gives_of_result hresult, heq⟩

/-- Without a client for its address and port, a call ends with what is wrong with them. -/
theorem run_unreachable {call : Call} {dir : String} {config : Config} {action : Envelope.HookAction}
    (h : Forwardable call dir config action) (hid : Text.allBlank config.id = false)
    (hnone : ¬∃ client, Client.Config.load (overrides config) call.ambient = .ok client) (script : Client.Script) :
    ∃ issues, (run call script).result = some (.error (.config issues)) ∧ (run call script).trace = [] := by
  obtain ⟨issues, hissues⟩ := Client.load_refused hnone
  rw [run_of_stopped (.unreachable dir config action _ h hid hissues)]
  exact ⟨issues, rfl, rfl⟩

/-- A file that is no configuration ends a call with what is wrong with it. -/
theorem run_unconfigured {call : Call} {dir path : String} {v : Json} (hnamed : call.environment.imageDir = some dir)
    (hne : dir ≠ "") (hfile : Config.firstFile call.files (Config.candidates dir call.sharedDir) = .ok (some path))
    (hread : Config.readJson call.files path = .ok v) (hnone : ¬∃ config, Config.validate v = .ok config)
    (script : Client.Script) :
    ∃ issues, (run call script).result = some (.error (.config issues)) ∧ (run call script).trace = [] := by
  cases hvalid : Config.validate v with
  | ok config => exact absurd ⟨config, hvalid⟩ hnone
  | error issues =>
    have hload : Config.load call.files dir call.sharedDir = .error (.ofIssues issues) := by
      simp only [Config.load, hfile, hread, hvalid]
      rfl
    rw [run_of_stopped (.unconfigured dir _ hnamed hne hload)]
    exact ⟨_, rfl, rfl⟩

end Hook

/-! ## (2) Runs of the program -/

namespace Command

/-- The bytes of the reply that a run prints. -/
def Run.Prints (r : Run) (raw : Bytes) : Prop :=
  ⟨.log, "Received " ++ Text.ByteLiteral.format raw⟩ ∈ r.console

theorem mem_plain {line : String} {console : List Console.Call} :
    ⟨.log, line⟩ ∈ Console.plain console ↔ ⟨.log, line⟩ ∈ console := by
  simp [Console.plain]

theorem not_prints {r : Run} (h : Console.plain r.console = []) (raw : Bytes) : ¬r.Prints raw := by
  intro hprints
  rw [Run.Prints, ← mem_plain, h] at hprints
  cases hprints

/-- No help text is the line of a reply. -/
theorem help_ne_received (topic : Topic) (rest : String) : Help.text topic ≠ "Received " ++ rest := by
  have hpage (usage about : String) (flags commands : List (String × String)) :
      (Help.page usage about flags commands).toList.head? = some 'U' := by
    simp [Help.page, Text.join]
  intro h
  have hhead : (Help.text topic).toList.head? = some 'R' := by
    rw [h]
    simp
  cases topic <;> simp [Help.text, hpage] at hhead

theorem stopped_idle (stop : Stop) : (stopped stop).trace = [] ∧ ∀ raw, ¬(stopped stop).Prints raw := by
  cases stop with
  | version =>
    refine ⟨rfl, fun raw h => ?_⟩
    have hline := congrArg Console.Call.line (List.mem_singleton.mp h)
    have hhead := congrArg (fun s : String => s.toList.head?) hline
    simp [versionText] at hhead
  | help topic =>
    refine ⟨rfl, fun raw h => ?_⟩
    have hline := congrArg Console.Call.line (List.mem_singleton.mp h)
    exact help_ne_received topic _ hline.symm
  | noSuchTopic => exact ⟨rfl, not_prints rfl⟩
  | usage e => exact ⟨rfl, not_prints rfl⟩

variable {call : Call} {script : Client.Script} {i : Invocation} {r : Request} {config : Client.Config}

/-- A run that gets to its send is in the bounds of its client, and so is what it prints. -/
theorem prepared_bounded (hnone : call.environment.scriptAction = none) (hparse : parse call.words = .ok i)
    (hrequest : request call.files i = .ok r)
    (hconfig : Client.Config.load (overrides i.program) call.ambient = .ok config) :
    Bounded config (run call script).trace (run call script).Prints := by
  have hfollows := run_prepared script hnone hparse hrequest hconfig
  have hplain : Console.plain (sent call r config script).console = [] := sent_plain
  have hsent : Bounded config (sent call r config script).trace (sent call r config script).delivery.Gives :=
    Client.Session.send_bounded (Client.load_inBounds hconfig) r.toJson script _
  generalize run call script = done at hfollows ⊢
  cases hfollows with
  | crash f hcrash => exact hsent.mono fun raw hraw => absurd hraw (not_prints hplain raw)
  | pending hcrash hd => exact hsent.mono fun raw hraw => absurd hraw (not_prints hplain raw)
  | failure f hcrash hd =>
    rw [failed_trace]
    refine hsent.mono fun raw hraw => absurd hraw (not_prints ?_ raw)
    rw [failed_plain, hplain]
  | answer response hcrash hd =>
    refine hsent.mono fun raw hraw => ?_
    -- the line of the reply is the only plain one
    have hlast : ⟨.log, "Received " ++ Text.ByteLiteral.format raw⟩ ∈ Console.plain
        [⟨.log, "Received " ++ Text.ByteLiteral.format response.raw⟩] := by
      rw [Run.Prints, ← mem_plain] at hraw
      simpa only [Command.done, Console.plain_append, hplain, List.nil_append] using hraw
    have hline := congrArg Console.Call.line (List.mem_singleton.mp (mem_plain.mp hlast))
    have hformat := (String.append_right_inj _).mp hline
    exact ⟨response, hd, (Text.ByteLiteral.format_inj hformat).symm⟩

variable (script) in
theorem run_unloaded (hnone : call.environment.scriptAction = none) (hparse : parse call.words = .ok i)
    (hrequest : request call.files i = .ok r)
    (hload : ¬∃ config, Client.Config.load (overrides i.program) call.ambient = .ok config) :
    ∃ issues, (run call script).trace = [] ∧ (Clock.HasDate call.now → (run call script).ending = .exit (some 1) ∧
      (run call script).console.getLast? = some ⟨.error, "Error: " ++ (Fault.config issues).message⟩) := by
  obtain ⟨issues, hissues⟩ := Client.load_refused hload
  have hrun : run call script = failed call.now failure [] [] (.config issues) := by
    refine run_unprepared script hnone hparse ?_
    rw [hrequest, hissues]
    rfl
  rw [hrun, failed_trace, failed_ending]
  exact ⟨issues, rfl, fun dated => ⟨if_pos dated, failed_told _ _ _ _ _ dated⟩⟩

/-- A run by the command line does nothing and prints no reply, or it is in the bounds of its client. -/
theorem run_bounded (script : Client.Script) (hnone : call.environment.scriptAction = none) :
    let done := run call script
    (done.trace = [] ∧ ∀ raw, ¬done.Prints raw) ∨
      ∃ r config, Prepares call r config ∧ Bounded config done.trace done.Prints := by
  intro done
  have hidle {f : Fault} (h : done = failed call.now failure [] [] f) : done.trace = [] ∧ ∀ raw, ¬done.Prints raw := by
    rw [h, failed_trace]
    exact ⟨rfl, not_prints (failed_plain _ _ _ _ _)⟩
  cases hparse : parse call.words with
  | error stop =>
    have hdone : done = stopped stop := by
      simp only [done, run, hnone, hparse]
    rw [hdone]
    exact Or.inl (stopped_idle stop)
  | ok i =>
    cases hrequest : request call.files i with
    | error f =>
      refine Or.inl (hidle (f := f) (run_unprepared script hnone hparse ?_))
      rw [hrequest]
      rfl
    | ok r =>
      cases hconfig : Client.Config.load (overrides i.program) call.ambient with
      | error f =>
        refine Or.inl (hidle (f := f) (run_unprepared script hnone hparse ?_))
        rw [hrequest, hconfig]
        rfl
      | ok config =>
        exact Or.inr ⟨r, config, ⟨i, hparse, hrequest, hconfig⟩, prepared_bounded hnone hparse hrequest hconfig⟩

/-- An action script does nothing, or it is in the bounds of its hook's client; it prints no reply. -/
theorem runScript_bounded (call : Call) (action : String) (script : Client.Script) :
    let done := runScript call action script
    (done.trace = [] ∧ ∀ raw, ¬done.Prints raw) ∨ ∃ dir config forwarded client,
      Hook.Cleared (hookCall call action) dir config forwarded client ∧ Bounded client done.trace done.Prints := by
  intro done
  obtain ⟨hplain, -⟩ := runScript_told call script action
  have htrace := runScript_trace call action script
  rcases Hook.run_bounded (hookCall call action) script with
    ⟨hidle, -⟩ | ⟨dir, config, forwarded, client, hcleared, hbounded⟩
  · exact Or.inl ⟨htrace.trans hidle, not_prints hplain⟩
  · refine Or.inr ⟨dir, config, forwarded, client, hcleared, ?_⟩
    rw [← htrace] at hbounded
    exact hbounded.mono fun raw hraw => absurd hraw (not_prints hplain raw)

/-- Only checked values reach the network. Every call of a client, every hook and every run of
    the program connects to an address that is not blank and has no padding, at a port of 1 to
    65535, sets at most one timer for a connection, of 1 to 2147483647 milliseconds, and none
    when its limit is zero of either sign, and gives no more of a reply than its largest reply,
    which is at least 1. What cannot be so does not connect: a configuration that is not in
    bounds is refused as such, wherever its values come from, and so is a command line. -/
theorem only_checked_values_reach_the_network :
    (∀ (overrides : Client.Raw) (e : Environment) (c : Client.Config), Client.Config.load overrides e = .ok c →
      (∀ x, Client.Field.timeoutMs.effective overrides.timeoutMs e = .num x → x.Denotes 0 → c.timeoutMs = 0) ∧
      ∀ (s : Client.Session) (call : Client.Call) (l : Log.Logger),
        let shown := (s.make c call).2.shown l
        Bounded c shown.trace shown.delivery.Gives) ∧
    (∀ (overrides : Client.Raw) (e : Environment), (¬∃ c, Client.Config.load overrides e = .ok c) →
      ∃ issues, Client.Config.load overrides e = .error (.config issues)) ∧
    (∀ (call : Hook.Call) (script : Client.Script),
      let done := Hook.run call script
      (done.trace = [] ∧ ∀ raw, ¬done.Gives raw) ∨
        ∃ dir config action client, Hook.Cleared call dir config action client ∧ Bounded client done.trace done.Gives) ∧
    (∀ (call : Hook.Call) (script : Client.Script) (dir path : String) (v : Json),
      call.environment.imageDir = some dir → dir ≠ "" →
      Hook.Config.firstFile call.files (Hook.Config.candidates dir call.sharedDir) = .ok (some path) →
      Hook.Config.readJson call.files path = .ok v → (¬∃ config, Hook.Config.validate v = .ok config) →
      ∃ issues, (Hook.run call script).result = some (.error (.config issues)) ∧ (Hook.run call script).trace = []) ∧
    (∀ (call : Hook.Call) (script : Client.Script) (dir : String) (config : Hook.Config) (action : Envelope.HookAction),
      Hook.Forwardable call dir config action → Text.allBlank config.id = false →
      (¬∃ client, Client.Config.load (Hook.overrides config) call.ambient = .ok client) →
      ∃ issues, (Hook.run call script).result = some (.error (.config issues)) ∧ (Hook.run call script).trace = []) ∧
    (∀ (call : Call) (script : Client.Script),
      let done := run call script
      (done.trace = [] ∧ ∀ raw, ¬done.Prints raw) ∨
      (∃ r config, call.environment.scriptAction = none ∧ Prepares call r config ∧
        Bounded config done.trace done.Prints) ∨
      ∃ action dir config forwarded client, call.environment.scriptAction = some action ∧
        Hook.Cleared (hookCall call action) dir config forwarded client ∧ Bounded client done.trace done.Prints) ∧
    (∀ (words : List String) (i : Invocation), parse words = .ok i →
      ∀ flag ∈ ["--port", "--timeout", "--max-bytes"], ∀ value, value? i.program flag = some value →
        (Number.Numeral.read value).isInteger = true) ∧
    (∀ (call : Call) (script : Client.Script) (e : UsageError), call.environment.scriptAction = none →
      parse call.words = .error (.usage e) → run call script = ⟨.exit (some 1), [], [⟨.error, e.message⟩]⟩) ∧
    (∀ (call : Call) (script : Client.Script) (i : Invocation) (r : Request), call.environment.scriptAction = none →
      parse call.words = .ok i → request call.files i = .ok r →
      (¬∃ config, Client.Config.load (overrides i.program) call.ambient = .ok config) →
      ∃ issues, (run call script).trace = [] ∧ (Clock.HasDate call.now → (run call script).ending = .exit (some 1) ∧
        (run call script).console.getLast? = some ⟨.error, "Error: " ++ (Fault.config issues).message⟩)) := by
  refine ⟨fun overrides e c hload => ⟨fun x => Client.timeoutMs_of_denotes hload, fun s call l => ?_⟩,
    fun overrides e => Client.load_refused, Hook.run_bounded, ?_, ?_, fun call script => ?_,
    fun words i hparse flag hflag value => parse_whole hparse hflag, ?_, ?_⟩
  · exact Client.Session.make_bounded (Client.load_inBounds hload) call l
  · intro call script dir path v hnamed hne hfile hread hnone
    exact Hook.run_unconfigured hnamed hne hfile hread hnone script
  · intro call script dir config action h hid hnone
    exact Hook.run_unreachable h hid hnone script
  · cases hscript : call.environment.scriptAction with
    | none =>
      rcases run_bounded script hscript with hidle | ⟨r, config, hprepares, hbounded⟩
      · exact Or.inl hidle
      · exact Or.inr (Or.inl ⟨r, config, rfl, hprepares, hbounded⟩)
    | some action =>
      have hrun : run call script = runScript call action script := by
        simp only [run, hscript]
      rw [hrun]
      rcases runScript_bounded call action script with hidle | ⟨dir, config, forwarded, client, hcleared, hbounded⟩
      · exact Or.inl hidle
      · exact Or.inr (Or.inr ⟨action, dir, config, forwarded, client, rfl, hcleared, hbounded⟩)
  · intro call script e hnone hparse
    simp only [run, hnone, hparse]
    rfl
  · intro call script i r hnone hparse hrequest hload
    exact run_unloaded script hnone hparse hrequest hload

/-- Three command lines: numbers in other notations with a negative zero, a port that is out of
    bounds, and one that is no integer. -/
theorem a_run_in_bounds_and_two_refused :
    let line (words : List String) : Call := ⟨0, words, {}, {}, ⟨[], []⟩⟩
    let script : Client.Script := .events [.connected, .data [65, 67, 75]]
    let bounded := line ["--port", "0x1F90", "--timeout", "-0", "--max-bytes", "2e0"]
    let outside := line ["--port", "65536"]
    let fraction := line ["--port", "1.5"]
    (∃ r config, Prepares bounded r config ∧ .connect "127.0.0.1" 8080 ∈ (run bounded script).trace ∧
      Bounded config (run bounded script).trace (run bounded script).Prints) ∧
    (∃ issues, (run outside script).trace = [] ∧ (run outside script).ending = .exit (some 1) ∧
      (run outside script).console.getLast? = some ⟨.error, "Error: " ++ (Fault.config issues).message⟩) ∧
    (run fraction script).trace = [] := by
  intro line script bounded outside fraction
  obtain ⟨-, -, -, -, -, hruns, -, husage, hunloaded⟩ := only_checked_values_reach_the_network
  have hconnects : .connect "127.0.0.1" 8080 ∈ (run bounded script).trace := by decide +kernel
  refine ⟨?_, ?_, ?_⟩
  · rcases hruns bounded script with ⟨hidle, -⟩ | ⟨r, config, -, hprepares, hbounded⟩ | ⟨_, _, _, _, _, haction, -⟩
    · rw [hidle] at hconnects
      cases hconnects
    · exact ⟨r, config, hprepares, hconnects, hbounded⟩
    · cases haction
  · have hport : (Client.Config.load (overrides [("--port", "65536")]) {}).toOption.isNone = true := by decide +kernel
    have hnone : ¬∃ config, Client.Config.load (overrides [("--port", "65536")]) {} = .ok config := by
      rintro ⟨config, hconfig⟩
      rw [hconfig] at hport
      cases hport
    obtain ⟨issues, htrace, hending⟩ := hunloaded outside script ⟨.addDependencies, [("--port", "65536")], []⟩
      ⟨"kubescr", "add_dependencies", .map [("c1", ["c2", "c3"]), ("c2", ["c1", "c3"]), ("c3", ["c1", "c2"])]⟩
      rfl rfl rfl hnone
    exact ⟨issues, htrace, hending (by decide)⟩
  · rw [husage fraction script
      (.notInteger ⟨"--port", none, .integer "<port>", "Coordinator port (default: 8080)", false⟩ "1.5") rfl rfl]

end Command

end CheckpointRelay
