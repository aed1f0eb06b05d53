/-
  CheckpointRelay.Hook.Run — one call of an action script.

  A call is planned first (`plan`): the image directory is named, the configuration loads,
  the action is one that is forwarded, the capture socket is in order, the request and the
  client can be made. The first check that fails is the result and nothing is sent. A plan to
  send makes one exchange.
-/

import CheckpointRelay.Client.Session
import CheckpointRelay.Hook.Config

namespace CheckpointRelay.Hook

open Files (Tree)
open Envelope (HookAction Request)

def captureSocket : String := "streamer-capture.sock"

def capturePath (imageDir : String) : String := Files.Path.join imageDir captureSocket

/-- Every path that a call may look at. -/
def paths (imageDir sharedDir : String) : List String :=
  Config.candidates imageDir sharedDir ++ [capturePath imageDir]

/-- The actions that are forwarded; every other one is acknowledged without a request. -/
def forwarded : List HookAction := [.preDump, .postDump, .preRestore]

def forwarded? (action : String) : Option HookAction := forwarded.find? (·.name == action)

structure Call where
  now : Clock.Instant
  action : String
  /-- The variables that the call is about. -/
  environment : Environment
  /-- The variables of the process, read by the client and the default logger. -/
  ambient : Environment
  sharedDir : String
  logger : Option Log.Logger
  files : Tree

/-! ## (1) The plan -/

inductive Plan where
  | skip (config : Config)
  | forward (request : Request) (client : Client.Config)

/-- A capture socket may be absent; anything else in its place stops the dump. -/
def checkCapture (t : Tree) (imageDir : String) : Except Fault Unit :=
  match t.lstat (capturePath imageDir) with
  | .ok e =>
    if e.isSocket then .ok ()
    else .error (.domain (captureSocket ++ " exists but is not a Unix socket") "SOCKET_ERROR" none)
  | .error (.file .noEntry _ _) => .ok ()
  | .error f => .error f

def imageDir (e : Environment) : Except Fault String :=
  match e.imageDir with
  | none => .error (.config [Environment.imageDirName ++ " is not set"])
  | some dir => if dir = "" then .error (.config [Environment.imageDirName ++ " is not set"]) else .ok dir

/-- The hook's own address and port stand over the environment. -/
def overrides (config : Config) : Client.Raw where
  host := some (.str config.address)
  port := some (.num config.port)
  timeoutMs := none
  maxResponseBytes := none
  logLevel := none

def plan (call : Call) : Except Fault Plan := do
  let dir ← imageDir call.environment
  let config ← Config.load call.files dir call.sharedDir
  match forwarded? call.action with
  | none => return .skip config
  | some action =>
    if action = .preDump then checkCapture call.files dir
    let request ← (Request.ofHook config.id action.name (Text.splitOn ':' config.dependencies)).mapError
      Request.HookError.fault
    let client ← Client.Config.load (overrides config) call.ambient
    return .forward request client

/-! ## (2) The run -/

inductive Outcome where
  | skipped (action : String)
  | sent (request : Request) (response : Client.Response)

/-- No result yet is `none`; after a `crash` there will be none. -/
structure Run where
  result : Option (Except Fault Outcome)
  trace : List Client.Action
  console : List Console.Call
  endedAt : Clock.Instant
  crash : Option Fault

def skipRecord (now : Clock.Instant) (action : String) (config : Config) : Log.Record :=
  ⟨now, .debug, "Nothing to do for action " ++ action, [("clientId", .json (.str config.id))], none⟩

def result (request : Request) (shown : Client.Shown) : Option (Except Fault Outcome) :=
  match shown.crash, shown.delivery with
  | some _, _ => none
  | none, .pending => none
  | none, .done r => some (r.map (.sent request))
  | none, .broken f => some (.error f)

def Call.loggerInUse (call : Call) : Log.Logger :=
  call.logger.getD (Client.loggerOf "action-hook" call.ambient)

def run (call : Call) (script : Client.Script) : Run :=
  match plan call with
  | .error f => ⟨some (.error f), [], [], call.now, none⟩
  | .ok (.skip config) =>
    let shown := call.loggerInUse.output [skipRecord call.now call.action config]
    ⟨some (shown.result.map fun _ => .skipped call.action), [], shown.calls, call.now, none⟩
  | .ok (.forward request client) =>
    let start := Client.Session.start call.now
    let (session, shown) := start.showing call.loggerInUse (start.send client request.toJson script)
    ⟨result request shown, shown.trace, shown.console, session.now, shown.crash⟩

end CheckpointRelay.Hook
