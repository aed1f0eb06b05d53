/-
  CheckpointRelay.Client.Config — where the client connects and how long it waits.

  A field's raw value is the override if there is one, else the environment variable if it
  is not blank, else the default (`Settings.overlay`). Each raw value is checked by itself
  (`Config.ofRaw`); the issues of all fields come in the order host, port, timeout, largest
  reply, log level.
-/

import CheckpointRelay.Environment
import CheckpointRelay.Fault
import CheckpointRelay.Log.Logger
import CheckpointRelay.Number.Numeral

namespace CheckpointRelay.Client

open Number (Binary64)

structure Config where
  host : String
  port : Nat
  timeoutMs : Nat
  maxResponseBytes : Nat
  logLevel : Log.Level
  deriving DecidableEq

def defaultHost : String := "127.0.0.1"
def defaultPort : Nat := 8080
def defaultMaxResponseBytes : Nat := 1024

/-- The longest delay of a timer. -/
def maxTimeoutMs : Nat := 2147483647

/-! ## (1) The environment over the defaults -/

/-- Values as the environment gives them, not yet checked. -/
structure Settings where
  host : String
  port : Binary64
  timeoutMs : Binary64
  maxResponseBytes : Binary64
  logLevel : String

/-- The trimmed text of a variable that is set and not blank. -/
def meant? (raw : Option String) : Option String :=
  (raw.map Text.trim).filter (· ≠ "")

def numberOr (fallback : Nat) (raw : Option String) : Binary64 :=
  match meant? raw with
  | some s => Number.Numeral.read s
  | none => .ofNat fallback

def Settings.ofEnvironment (e : Environment) : Settings where
  host := (meant? e.host).getD defaultHost
  port := numberOr defaultPort e.port
  timeoutMs := numberOr 0 e.timeoutMs
  maxResponseBytes := numberOr defaultMaxResponseBytes e.maxResponseBytes
  logLevel := (meant? e.logLevel).getD Log.Level.info.name

/-! ## (2) Raw values -/

structure Raw where
  host : Option Json
  port : Option Json
  timeoutMs : Option Json
  maxResponseBytes : Option Json
  logLevel : Option Json

def Raw.ofMembers (ms : Keyed Json) : Raw where
  host := Keyed.get? ms "host"
  port := Keyed.get? ms "port"
  timeoutMs := Keyed.get? ms "timeoutMs"
  maxResponseBytes := Keyed.get? ms "maxResponseBytes"
  logLevel := Keyed.get? ms "logLevel"

/-- Overrides as one value. What has no members of these names overrides nothing, but `null`
    is no value to take members from. -/
def Raw.ofJson : Json → Except Fault Raw
  | .null => .error .noMembers
  | .obj ms => .ok (.ofMembers ms)
  | _ => .ok (.ofMembers [])

/-- The overrides over the settings. -/
def Settings.overlay (s : Settings) (overrides : Raw) : Raw where
  host := overrides.host <|> some (.str s.host)
  port := overrides.port <|> some (.num s.port)
  timeoutMs := overrides.timeoutMs <|> some (.num s.timeoutMs)
  maxResponseBytes := overrides.maxResponseBytes <|> some (.num s.maxResponseBytes)
  logLevel := overrides.logLevel <|> some (.str s.logLevel)

/-! ## (3) Checks -/

def checkHost : Option Json → Checked String
  | none => .error [.required]
  | some (.str s) => if Text.allBlank s then .error [.blankHost] else .ok (Text.trim s)
  | some v => .error [.expected .string v.shape]

/-- A whole number; the complaints of its range are added to that of a fraction. -/
def checkNumber (range : Binary64 → List Complaint) : Option Json → Checked Nat
  | none => .error [.required]
  | some (.num .nan) => .error [.expected .number .nan]
  | some (.num x) =>
    match (if x.isInteger then [] else [.notInteger]) ++ range x with
    | [] => .ok x.toNat
    | found => .error found
  | some v => .error [.expected .number v.shape]

def portRange (x : Binary64) : List Complaint :=
  (if x.below 1 then [.portOutOfRange] else []) ++ (if x.above 65535 then [.portOutOfRange] else [])

def timeoutRange (x : Binary64) : List Complaint :=
  (if x.below 0 then [.negativeTimeout] else []) ++ (if x.above maxTimeoutMs then [.timeoutTooLong] else [])

def maxBytesRange (x : Binary64) : List Complaint := if x.below 1 then [.noResponseBytes] else []

def Config.ofRaw (r : Raw) : Except (List Issue) Config :=
  let host := checkHost r.host
  let port := checkNumber portRange r.port
  let timeoutMs := checkNumber timeoutRange r.timeoutMs
  let maxResponseBytes := checkNumber maxBytesRange r.maxResponseBytes
  let logLevel := Log.Level.check r.logLevel
  match host, port, timeoutMs, maxResponseBytes, logLevel with
  | .ok host, .ok port, .ok timeoutMs, .ok maxResponseBytes, .ok logLevel =>
    .ok { host, port, timeoutMs, maxResponseBytes, logLevel }
  | _, _, _, _, _ =>
    .error (host.issues "host" ++ port.issues "port" ++ timeoutMs.issues "timeoutMs"
      ++ maxResponseBytes.issues "maxResponseBytes" ++ logLevel.issues "logLevel")

/-- The check of a whole configuration that comes from outside. -/
def Config.validate : Json → Except (List Issue) Config
  | .obj ms => Config.ofRaw (Raw.ofMembers ms)
  | v => .error [Issue.notObject v]

def Config.load (overrides : Raw) (e : Environment) : Except Fault Config :=
  (Config.ofRaw ((Settings.ofEnvironment e).overlay overrides)).mapError .ofIssues

def Config.address (c : Config) : String := c.host ++ ":" ++ toString c.port

/-- The level that `LOG_LEVEL` names; `info` when it names none. -/
def levelOfEnvironment (e : Environment) : Log.Level :=
  (Log.Level.ofText? (Settings.ofEnvironment e).logLevel).getD .info

/-- The logger of one part of the program at the level of the environment. -/
def loggerOf (component : String) (e : Environment) : Log.Logger :=
  .forComponent component (some (levelOfEnvironment e))

end CheckpointRelay.Client
