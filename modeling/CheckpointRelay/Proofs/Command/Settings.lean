/-
  CheckpointRelay.Proofs.Command.Settings — a setting as a flag and as a variable.

  Four fields of the client can be set by a flag of the program or by a variable of its
  environment (`Paired`). Each way has a parser of its own: the command line wants an integer
  where the field is a number, the environment reads any number and leaves the rest to the
  check of the field. No field takes a number that is no integer, so in the end both ways take
  the same texts and come to the same configuration.
  - `parse_flag` / `parse_fraction`: the command line of one flag.
  - `load_flag` / `load_fraction`: what is loaded with it.
  - `flag_and_variable_agree`: the runs.
-/

import CheckpointRelay.Proofs.Command.Bounds

namespace CheckpointRelay.Command

open Client (Field)
open Envelope (Request)

/-- A flag, the variable that stands for it, and the field that both set. -/
inductive Paired : String → String → Field → Prop
  | host : Paired "--host" "COORDINATOR_HOST" .host
  | port : Paired "--port" "COORDINATOR_PORT" .port
  | timeout : Paired "--timeout" "COORDINATOR_TIMEOUT_MS" .timeoutMs
  | maxBytes : Paired "--max-bytes" "COORDINATOR_MAX_RESPONSE_BYTES" .maxResponseBytes

variable {flag name s : String} {f : Field}

/-! ## (1) The command line -/

theorem parse_flag (h : Paired flag name f) (hs : f = .host ∨ (Number.Numeral.read s).isInteger = true) :
    parse [flag, s] = .ok ⟨.addDependencies, [(flag, s)], []⟩ := by
  cases h with
  | host => rfl
  | _ =>
    have hinteger : (Number.Numeral.read s).isInteger = true := by
      rcases hs with hs | hs
      · cases hs
      · exact hs
    -- the scan waits for the test of the number only
    simp only [parse, scan, Scan.take, hinteger]
    rfl

theorem parse_fraction (h : Paired flag name f) (hf : f ≠ .host) (hs : (Number.Numeral.read s).isInteger = false) :
    ∃ e, parse [flag, s] = .error (.usage e) := by
  cases h with
  | host => exact absurd rfl hf
  | _ =>
    simp only [parse, scan, Scan.take, hs]
    exact ⟨_, rfl⟩

/-! ## (2) The configuration -/

/-- What a flag overrides is its field. -/
theorem overrides_flag (h : Paired flag name f) (s : String) (g : Field) :
    (overrides [(flag, s)]).field? g = if g = f then some (f.ofText s) else none := by
  cases h <;> cases g <;> rfl

theorem setting?_update (h : Paired flag name f) (get : String → Option String) (s : String) (g : Field) :
    g.setting? (.ofLookup (Function.update get name (some s)))
      = if g = f then some s else g.setting? (.ofLookup get) := by
  cases h <;> cases g <;> rfl

/-- A text that is not blank is the same raw value as a flag and as a variable. -/
theorem load_flag (h : Paired flag name f) (hs : Text.allBlank s = false) (get : String → Option String) :
    Client.Config.load (overrides [(flag, s)]) (.ofLookup get)
      = Client.Config.load (overrides []) (.ofLookup (Function.update get name (some s))) := by
  have hnone (g : Field) : (overrides []).field? g = none := by
    cases g <;> rfl
  refine Client.load_congr fun g => ?_
  simp only [Field.effective, Field.ambient, overrides_flag h, hnone, setting?_update h, Option.getD_none]
  by_cases hg : g = f
  · subst hg
    simp only [if_true, Option.getD_some, hs, Bool.false_eq_true, if_false]
  · simp only [if_neg hg, Option.getD_none]

/-- With a text that is no integer, no number of the client loads. -/
theorem load_fraction (h : Paired flag name f) (hf : f ≠ .host) (hs : (Number.Numeral.read s).isInteger = false)
    (e : Environment) : ¬∃ config, Client.Config.load (overrides [(flag, s)]) e = .ok config := by
  rintro ⟨config, hload⟩
  have htakes := Client.load_ok_iff.mp hload f
  rw [overrides_flag h, if_pos rfl] at htakes
  have hinteger {n : Nat} (hdenotes : (Number.Numeral.read s).Denotes n) : False := by
    rw [Number.Binary64.isInteger_of_denotes hdenotes] at hs
    cases hs
  cases h with
  | host => exact hf rfl
  | port =>
    obtain ⟨x, hx, hdenotes, -⟩ := Client.takes_port htakes
    cases hx
    exact hinteger hdenotes
  | timeout =>
    obtain ⟨x, hx, hdenotes, -⟩ := Client.takes_timeoutMs htakes
    cases hx
    exact hinteger hdenotes
  | maxBytes =>
    obtain ⟨x, hx, hdenotes, -⟩ := Client.takes_maxResponseBytes htakes
    cases hx
    exact hinteger hdenotes

/-! ## (3) The runs -/

variable {call call' : Call} {i i' : Invocation} {r : Request} {script : Client.Script}

/-- Runs at one instant that come to the same request and configuration are the same. -/
theorem run_congr (hnone : call.environment.scriptAction = none) (hnone' : call'.environment.scriptAction = none)
    (hparse : parse call.words = .ok i) (hparse' : parse call'.words = .ok i') (hnow : call.now = call'.now)
    (hrequest : request call.files i = .ok r) (hrequest' : request call'.files i' = .ok r)
    (hload : Client.Config.load (overrides i.program) call.ambient
      = Client.Config.load (overrides i'.program) call'.ambient) :
    run call script = run call' script := by
  simp only [run, hnone, hnone', hparse, hparse', runInvocation, hnow, hrequest, hrequest', hload]

/-- A run that is prepared connects. -/
theorem prepared_connects (dated : Clock.HasDate call.now) (hnone : call.environment.scriptAction = none)
    (hparse : parse call.words = .ok i) (hrequest : request call.files i = .ok r) {config : Client.Config}
    (hconfig : Client.Config.load (overrides i.program) call.ambient = .ok config) :
    ∃ host port, .connect host port ∈ (run call script).trace := by
  obtain ⟨htrace, -⟩ := run_prepared_told script hnone hparse hrequest hconfig
  obtain ⟨rest, hconnects, -⟩ := Client.Session.sendRaw_connects config (.start call.now)
    (Text.Utf8.encode r.toJson.text) (some r.id)
    (script.reached (.forComponent "tcp-client" (some config.logLevel)) config call.now)
  obtain ⟨-, hsent, -⟩ := sent_shown script ⟨i, hparse, hrequest, hconfig⟩ dated
  refine ⟨config.host, config.port, ?_⟩
  rw [htrace, hsent, hconnects]
  exact List.mem_cons_self

theorem exportedValue_eq (h : ∀ c ∈ s.toList, c.toNat ≠ 0) : Environment.exportedValue s = s := by
  have htake : s.toList.takeWhile (fun c => c.toNat ≠ 0) = s.toList := by
    rw [List.takeWhile_eq_self_iff]
    simpa using h
  rw [Environment.exportedValue, htake, String.ofList_toList]

/-- A flag with a text and the variable with that text make the same run, or both end before they
    connect, with exit code 1. -/
theorem flag_and_variable_agree (now : Clock.Instant) (dated : Clock.HasDate now) (files : Files.Tree)
    (get process : String → Option String) (hscript : get "CRTOOLS_SCRIPT_ACTION" = none) (script : Client.Script)
    {flag name : String} {f : Field} (paired : Paired flag name f) (s : String)
    (hblank : Text.allBlank s = false) (hnul : ∀ c ∈ s.toList, c.toNat ≠ 0) :
    let flagged : Call := ⟨now, [flag, s], .ofLookup get, .ofLookup process, files⟩
    let exported : Call := ⟨now, [], .ofLookup (Function.update get name (some s)),
      .ofLookup (Function.update process name (some (Environment.exportedValue s))), files⟩
    ((∃ host port, .connect host port ∈ (run flagged script).trace) ∧ run flagged script = run exported script) ∨
    (((run flagged script).trace = [] ∧ (run exported script).trace = []) ∧
      (run flagged script).ending = .exit (some 1) ∧ (run exported script).ending = .exit (some 1)) := by
  intro flagged exported
  obtain ⟨r, hsmoke⟩ : ∃ r, Request.smoke = .ok r := ⟨_, rfl⟩
  have hnone : exported.environment.scriptAction = none := by
    cases paired <;> exact hscript
  have hexported : parse exported.words = .ok ⟨.addDependencies, [], []⟩ := rfl
  have hload : Client.Config.load (overrides [(flag, s)]) flagged.ambient
      = Client.Config.load (overrides []) exported.ambient := by
    simp only [flagged, exported, exportedValue_eq hnul]
    exact load_flag paired hblank process
  -- what does not load as a variable ends there
  have hunloaded (h : ¬∃ config, Client.Config.load (overrides [(flag, s)]) flagged.ambient = .ok config) :
      (run exported script).trace = [] ∧ (run exported script).ending = .exit (some 1) := by
    rw [hload] at h
    obtain ⟨_, htrace, hending⟩ := run_unloaded script hnone hexported hsmoke h
    exact ⟨htrace, (hending dated).1⟩
  by_cases hinteger : f = .host ∨ (Number.Numeral.read s).isInteger = true
  · have hflagged : parse flagged.words = .ok ⟨.addDependencies, [(flag, s)], []⟩ := parse_flag paired hinteger
    by_cases hok : ∃ config, Client.Config.load (overrides [(flag, s)]) flagged.ambient = .ok config
    · obtain ⟨config, hconfig⟩ := hok
      exact Or.inl ⟨prepared_connects dated hscript hflagged hsmoke hconfig,
        run_congr hscript hnone hflagged hexported rfl hsmoke hsmoke hload⟩
    · obtain ⟨_, htrace, hending⟩ := run_unloaded script hscript hflagged hsmoke hok
      obtain ⟨htrace', hending'⟩ := hunloaded hok
      exact Or.inr ⟨⟨htrace, htrace'⟩, (hending dated).1, hending'⟩
  · rw [not_or, Bool.not_eq_true] at hinteger
    obtain ⟨hf, hfraction⟩ := hinteger
    obtain ⟨e, hparse⟩ := parse_fraction paired hf hfraction
    have hflagged : run flagged script = stopped (.usage e) := by
      have hwords : parse flagged.words = .error (.usage e) := hparse
      have haction : flagged.environment.scriptAction = none := hscript
      simp only [run, haction, hwords]
    obtain ⟨htrace', hending'⟩ := hunloaded (load_fraction paired hf hfraction _)
    rw [hflagged]
    exact Or.inr ⟨⟨rfl, htrace'⟩, rfl, hending'⟩

/-- A port in hexadecimal, with padding, is good both ways. -/
theorem a_port_in_hexadecimal :
    let flagged : Call := ⟨0, ["--port", " 0x1F91 "], {}, {}, ⟨[], []⟩⟩
    let exported : Call := ⟨0, [], { port := some " 0x1F91 " }, { port := some " 0x1F91 " }, ⟨[], []⟩⟩
    let script : Client.Script := .events [.connected, .data [65, 67, 75]]
    .connect "127.0.0.1" 8081 ∈ (run flagged script).trace ∧ run flagged script = run exported script := by
  intro flagged exported script
  have hconnects : .connect "127.0.0.1" 8081 ∈ (run flagged script).trace := by decide +kernel
  have hagree := flag_and_variable_agree 0 (by decide) ⟨[], []⟩ (fun _ => none) (fun _ => none) rfl script .port
    " 0x1F91 " (by decide) (by simp)
  rcases hagree with ⟨-, hsame⟩ | ⟨⟨hidle, -⟩, -⟩
  · exact ⟨hconnects, hsame⟩
  · have hidle : (run flagged script).trace = [] := hidle
    rw [hidle] at hconnects
    cases hconnects

end CheckpointRelay.Command
