/-
  CheckpointRelay.Main — the program at work on a real machine.

  `Command.run` decides everything. This module tells it the arguments, the variables, the
  files and the time, and holds the conversation: a run with a connection that only opens
  says where to connect and what to write (`Errand`), what then happens on the network is
  the script, and the run with that script says what to print.
-/

import CheckpointRelay.Command.Run
import Std.Async.DNS
import Std.Async.TCP
import Std.Async.Timer

namespace CheckpointRelay

open Std.Async (Async)
open Text.Utf8 (Bytes)

/-! ## (1) What the machine holds -/

def readEnvironment : IO Environment := do
  let pairs ← Environment.names.filterMapM fun name => do return (← IO.getEnv name).map (name, ·)
  return .ofLookup fun name => pairs.lookup name

/-- What opens under a path. -/
def readEntry (path : String) : IO (Option Files.Entry) :=
  try return some (.file (← IO.FS.readBinFile path).toList)
  catch
  | .inappropriateType .. => return some .directory
  | .noSuchThing .. => return some .socket
  | _ => return none

def realPath (path : String) : IO String :=
  try return (← IO.FS.realPath path).toString
  catch _ => return path

/-- The entry under a name of a directory, and what it leads to when it is a link. A link that
    leads nowhere counts as absent. -/
def observe (directory name : String) : IO (List (String × Files.Entry)) := do
  let path := directory ++ "/" ++ name
  match ← readEntry path with
  | none => return []
  | some e =>
    let place := Files.Path.join (← realPath directory) name
    let real ← realPath path
    return if real = place then [(place, e)] else [(place, .link real), (real, e)]

/-- The entries on the way of one path. -/
def observeAlong (path : String) : IO (List (String × Files.Entry)) := do
  let names := (Files.Path.parts path).filter (· ≠ ".")
  let start := if Files.Path.isAbsolute path then "/" else "."
  let found ← names.zipIdx.mapM fun p => observe (Text.join "/" (start :: names.take p.2)) p.1
  return found.flatten

def readTree (paths : List String) : IO Files.Tree := do
  let workingDir := Files.Path.parts (← IO.currentDir).toString
  return .ofList workingDir (← paths.mapM observeAlong).flatten

def readCall (words : List String) : IO Command.Call := do
  let environment ← readEnvironment
  return {
    now := (← Std.Time.Timestamp.now).toMillisecondsSinceUnixEpoch.val
    words
    environment
    ambient := environment
    files := ← readTree (Command.paths words environment) }

/-! ## (2) The conversation -/

structure Errand where
  host : String
  port : Nat
  payload : Bytes
  limit : Option Nat

def Errand.ofTrace? (trace : List Client.Action) : Option Errand := do
  let (host, port) ← trace.findSome? fun | .connect host port => some (host, port) | _ => none
  let payload ← trace.findSome? fun | .write payload => some payload | _ => none
  return { host, port, payload, limit := trace.findSome? fun | .timer ms => some ms | _ => none }

/-- What has happened on the network so far, and the instant of the last event. -/
structure Diary where
  events : List Client.Event
  writtenAt : Nat

def Diary.note (diary : IO.Ref Diary) (e : Client.Event) : IO Unit := do
  let now ← IO.monoMsNow
  diary.modify fun d => ⟨d.events ++ [.advance (now - d.writtenAt : Nat), e], now⟩

def failure (e : IO.Error) : Client.Event := .failed (.error ⟨"Error", e.toString, none, none⟩)

def socketAddress (port : UInt16) : Std.Net.IPAddr → Std.Net.SocketAddress
  | .v4 addr => .v4 ⟨addr, port⟩
  | .v6 addr => .v6 ⟨addr, port⟩

def Errand.talk (errand : Errand) (diary : IO.Ref Diary) : Async Unit := do
  let addresses ← Std.Async.DNS.getAddrInfo errand.host ""
  match addresses[0]? with
  | none => throw (IO.userError ("no address for " ++ errand.host))
  | some ip =>
    let socket ← Std.Async.TCP.Socket.Client.mk
    socket.connect (socketAddress errand.port.toUInt16 ip)
    Diary.note diary .connected
    socket.send ⟨errand.payload.toArray⟩
    match ← socket.recv? 65536 with
    | some chunk => Diary.note diary (.data chunk.toList)
    | none => Diary.note diary .ended

def Errand.script (errand : Errand) : Async Client.Script := do
  let diary ← IO.mkRef ⟨[], ← IO.monoMsNow⟩
  let talk : Async Unit := try errand.talk diary catch e => Diary.note diary (failure e)
  match errand.limit with
  | none => talk
  | some ms =>
    Async.race talk do
      Std.Async.sleep (.ofNat ms)
      diary.modify fun d => { d with events := d.events ++ [.advance ms] }
  return .events (← diary.get).events

/-! ## (3) The run -/

def print (call : Console.Call) : IO Unit :=
  match call.channel with
  | .warn | .error => IO.eprintln call.line
  | .debug | .info | .log => IO.println call.line

def runProgram (words : List String) : IO UInt32 := do
  let call ← readCall words
  let script ← match Errand.ofTrace? (Command.run call (.events [.connected])).trace with
    | some errand => errand.script.block
    | none => pure (.events [])
  let run := Command.run call script
  run.console.forM print
  match run.ending with
  | .crash f =>
    IO.eprintln ("CLI error: " ++ f.name ++ ": " ++ f.message)
    return 1
  | .exit (some code) => return code.toUInt32
  | .exit none | .pending => return 0

end CheckpointRelay

def main (words : List String) : IO UInt32 := CheckpointRelay.runProgram words
