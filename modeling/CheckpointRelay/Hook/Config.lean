/-
  CheckpointRelay.Hook.Config — the configuration of one container's hooks.

  It lies in the image directory, or else in a directory shared by all containers. The first
  of the two candidates that is a regular file is taken, and only a candidate that does not
  exist or is something else is passed over: any other trouble with it, and any fault in the
  file that was taken, is final.
-/

import CheckpointRelay.Client.Config
import CheckpointRelay.Files.Tree
import CheckpointRelay.Json.Reader

namespace CheckpointRelay.Hook

open Number (Binary64)
open Files (Tree)

structure Config where
  id : String
  dependencies : String
  address : String
  port : Binary64
  deriving DecidableEq

def configFile : String := "criu-coordinator.json"
def sharedConfigDir : String := "/etc/criu"

/-! ## (1) Fields -/

def checkId : Option Json → Checked String
  | none => .error [.missingId]
  | some (.str s) => if s = "" then .error [.missingId] else .ok s
  | some v => .error [.expected .string v.shape]

def checkDependencies : Option Json → Checked String
  | none => .ok ""
  | some (.str s) => .ok s
  | some v => .error [.expected .string v.shape]

def checkAddress : Option Json → Checked String
  | none => .ok Client.defaultHost
  | some (.str s) => if Text.allBlank s then .error [.emptyText] else .ok (Text.trim s)
  | some v => .error [.expected .string v.shape]

/-- The number that a text of digits denotes, padding aside. -/
def portOfText? (s : String) : Option Binary64 :=
  let cs := Text.trimChars s.toList
  if cs ≠ [] ∧ cs.all Number.Numeral.isDigit then
    some (.ofDecimal false (Number.Numeral.natOfDigits cs) 0)
  else none

def checkPort : Option Json → Checked Binary64
  | none => .ok (.ofNat Client.defaultPort)
  | some (.num .nan) => .error [.noAlternative]
  | some (.num x) => .ok x
  | some (.str s) =>
    match portOfText? s with
    | some x => .ok x
    | none => .error [.noAlternative]
  | some _ => .error [.noAlternative]

namespace Config

def ofMembers (ms : Keyed Json) : Except (List Issue) Config :=
  let id := checkId (Keyed.get? ms "id")
  let dependencies := checkDependencies (Keyed.get? ms "dependencies")
  let address := checkAddress (Keyed.get? ms "address")
  let port := checkPort (Keyed.get? ms "port")
  match id, dependencies, address, port with
  | .ok id, .ok dependencies, .ok address, .ok port => .ok { id, dependencies, address, port }
  | _, _, _, _ =>
    .error (id.issues "id" ++ dependencies.issues "dependencies" ++ address.issues "address"
      ++ port.issues "port")

def validate : Json → Except (List Issue) Config
  | .obj ms => ofMembers ms
  | v => .error [Issue.notObject v]

/-! ## (2) The file -/

/-- A path that does not exist is no file; other trouble is not ours to pass over. -/
def isFile (t : Tree) (path : String) : Except Fault Bool :=
  match t.stat path with
  | .ok e => .ok e.isFile
  | .error (.file .noEntry _ _) => .ok false
  | .error f => .error f

def firstFile (t : Tree) : List String → Except Fault (Option String)
  | [] => .ok none
  | path :: rest =>
    match isFile t path with
    | .error f => .error f
    | .ok true => .ok (some path)
    | .ok false => firstFile t rest

def notJson (path reason : String) : String := path ++ " is not valid JSON: " ++ reason

/-- The value in a JSON file. A file that cannot be read is reported like one that is no JSON. -/
def readJson (t : Tree) (path : String) : Except Fault Json :=
  match t.read path with
  | .error f => .error (.config [notJson path f.message])
  | .ok content =>
    match Json.read? (Text.Utf8.decode content) with
    | some v => .ok v
    | none => .error (.config [notJson path Json.readError])

/-- Where the file may be, best place first. -/
def candidates (imageDir sharedDir : String) : List String :=
  [Files.Path.join imageDir configFile, Files.Path.join sharedDir configFile]

def load (t : Tree) (imageDir sharedDir : String) : Except Fault Config :=
  match firstFile t (candidates imageDir sharedDir) with
  | .error f => .error f
  | .ok none =>
    .error (.config ["Could not find " ++ configFile ++ " in " ++ imageDir ++ " or " ++ sharedDir])
  | .ok (some path) =>
    match readJson t path with
    | .error f => .error f
    | .ok v => (validate v).mapError .ofIssues

end Config

end CheckpointRelay.Hook
