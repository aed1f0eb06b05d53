/-
  CheckpointRelay.Command.Run — one run of the program.

  Called as an action script (the script action variable is set, even to nothing), the
  program forwards the action and says nothing on plain output. Otherwise it reads its command
  line, sends one request and prints the reply. Whatever fails ends in an error line and exit
  code 1; a failure that cannot even be logged crashes the run, and so does an exception that
  leaves a listener of the connection.
-/

import CheckpointRelay.Command.Line
import CheckpointRelay.Hook.Run
import CheckpointRelay.Text.ByteLiteral

namespace CheckpointRelay.Command

open Files (Tree)
open Envelope (HookAction Request)

/-- Where a run takes place. The arguments and `environment` are what it was called with;
    `ambient` are the variables of the process. -/
structure Call where
  now : Clock.Instant
  words : List String
  environment : Environment
  ambient : Environment
  files : Tree

inductive Ending where
  /-- The coordinator has not answered yet. -/
  | pending
  | exit (code : Option Nat)
  | crash (f : Fault)

/-- What a run did. -/
structure Run where
  ending : Ending
  trace : List Client.Action
  console : List Console.Call

def logger : Log.Logger := .forComponent "cli" (some .info)

def done (trace : List Client.Action) (console : List Console.Call) : Run := ⟨.exit none, trace, console⟩

/-- A failure is logged first and then told. -/
def failed (now : Clock.Instant) (what : String) (trace : List Client.Action) (console : List Console.Call)
    (f : Fault) : Run :=
  let logged := logger.output [⟨now, .error, what, [], some (Log.faultInfo f)⟩]
  match logged.fault with
  | some crash => ⟨.crash crash, trace, console ++ logged.calls⟩
  | none => ⟨.exit (some 1), trace, console ++ logged.calls ++ [⟨.error, "Error: " ++ f.message⟩]⟩

/-! ## (1) As an action script -/

def runScript (call : Call) (action : String) (script : Client.Script) : Run :=
  let hook := Hook.run
    { now := call.now
      action
      environment := call.environment
      ambient := call.ambient
      sharedDir := Hook.sharedConfigDir
      logger := none
      files := call.files } script
  match hook.crash, hook.result with
  | some f, _ => ⟨.crash f, hook.trace, hook.console⟩
  | none, none => ⟨.pending, hook.trace, hook.console⟩
  | none, some (.ok _) => done hook.trace hook.console
  | none, some (.error f) => failed hook.endedAt ("Action hook " ++ action ++ " failed") hook.trace hook.console f

/-! ## (2) By the command line -/

def readDependencies (t : Tree) (path : String) : Except Fault Request := do
  let content ← t.read path
  match Json.read? (Text.Utf8.decode content) with
  | some v => Request.ofMap v
  | none => throw (.validation (path ++ " is not valid JSON: " ++ Json.readError) (some "depsFile"))

def unknownAction : Fault :=
  .validation ("Unknown action. Expected one of: " ++ Text.join ", " HookAction.names) (some "action")

def request (t : Tree) (i : Invocation) : Except Fault Request :=
  match i.command with
  | .addDependencies =>
    match value? i.own "--deps-file", value? i.own "--components" with
    | some _, some _ => .error (.validation "Use either --deps-file or --components, not both" none)
    | some path, none => readDependencies t path
    | none, some list => Request.ofMesh (Text.splitOn ',' list)
    | none, none => Request.smoke
  | .hook =>
    match HookAction.ofName? ((value? i.own "--action").getD "") with
    | none => .error unknownAction
    | some action =>
      (Request.ofHook ((value? i.own "--id").getD "") action.name
        (Text.splitOn ':' ((value? i.own "--deps").getD ""))).mapError Request.HookError.fault

def overrides (program : Given) : Client.Raw where
  host := (value? program "--host").map .str
  port := (value? program "--port").map fun s => .num (Number.Numeral.read s)
  timeoutMs := (value? program "--timeout").map fun s => .num (Number.Numeral.read s)
  maxResponseBytes := (value? program "--max-bytes").map fun s => .num (Number.Numeral.read s)
  logLevel := none

/-- The line of a command that failed. -/
def failure : String := "Command failed"

def runInvocation (call : Call) (i : Invocation) (script : Client.Script) : Run :=
  let prepared := do
    let request ← request call.files i
    let config ← Client.Config.load (overrides i.program) call.ambient
    pure (request, config)
  match prepared with
  | .error f => failed call.now failure [] [] f
  | .ok (request, config) =>
    let start := Client.Session.start call.now
    let (session, shown) := start.showing (.forComponent "tcp-client" (some config.logLevel))
      (start.send config request.toJson script)
    match shown.crash, shown.delivery with
    | some f, _ => ⟨.crash f, shown.trace, shown.console⟩
    | none, .pending => ⟨.pending, shown.trace, shown.console⟩
    | none, .done (.ok response) =>
      done shown.trace (shown.console ++ [⟨.log, "Received " ++ Text.ByteLiteral.format response.raw⟩])
    | none, .done (.error f) => failed session.now failure shown.trace shown.console f
    | none, .broken f => failed session.now failure shown.trace shown.console f

def stopped : Stop → Run
  | .version => done [] [⟨.log, versionText⟩]
  | .help topic => done [] [⟨.log, Help.text topic⟩]
  | .noSuchTopic => ⟨.exit (some 1), [], [⟨.error, Help.text .program⟩]⟩
  | .usage e => ⟨.exit (some 1), [], [⟨.error, e.message⟩]⟩

/-- Every path that a run may look at. -/
def paths (words : List String) (e : Environment) : List String :=
  match e.scriptAction with
  | some _ => (e.imageDir.map fun dir => Hook.paths dir Hook.sharedConfigDir).getD []
  | none =>
    match parse words with
    | .error _ => []
    | .ok i => (value? i.own "--deps-file").toList

def run (call : Call) (script : Client.Script) : Run :=
  match call.environment.scriptAction with
  | some action => runScript call action script
  | none =>
    match parse call.words with
    | .error stop => stopped stop
    | .ok i => runInvocation call i script

end CheckpointRelay.Command
