/-
  CheckpointRelay.Envelope.Request — the requests that the coordinator understands.

  A request is an envelope of an id, an action and the dependencies: a map for
  `add_dependencies`, names joined by colons for the hook actions. `ofMap` and `ofHook` build
  the two kinds.
-/

import CheckpointRelay.Envelope.Mesh
import CheckpointRelay.Text.Split

namespace CheckpointRelay.Envelope

inductive HookAction where
  | preDump | postDump | preRestore | postRestore | networkLock | networkUnlock | preStream | postStream
  deriving DecidableEq

namespace HookAction

def all : List HookAction :=
  [.preDump, .postDump, .preRestore, .postRestore, .networkLock, .networkUnlock, .preStream, .postStream]

def name : HookAction → String
  | .preDump => "pre-dump"
  | .postDump => "post-dump"
  | .preRestore => "pre-restore"
  | .postRestore => "post-restore"
  | .networkLock => "network-lock"
  | .networkUnlock => "network-unlock"
  | .preStream => "pre-stream"
  | .postStream => "post-stream"

def ofName? (s : String) : Option HookAction := all.find? (·.name == s)

def names : List String := all.map name

end HookAction

def addDependenciesAction : String := "add_dependencies"

/-- The client in whose name maps are registered. -/
def operatorId : String := "kubescr"

inductive Dependencies where
  | map (m : DependencyMap)
  | list (names : String)

def Dependencies.toJson : Dependencies → Json
  | .map m => m.toJson
  | .list names => .str names

structure Request where
  id : String
  action : String
  dependencies : Dependencies

namespace Request

def toJson (r : Request) : Json :=
  .obj [("id", .str r.id), ("action", .str r.action), ("dependencies", r.dependencies.toJson)]

/-- The registration of a map that comes from outside. -/
def ofMap (v : Json) : Except Fault Request :=
  (DependencyMap.load v).map fun m => ⟨operatorId, addDependenciesAction, .map m⟩

def ofMesh (components : List String) : Except Fault Request :=
  match mesh components with
  | .ok m => ofMap m.toJson
  | .error e => .error e.fault

inductive HookError where
  | blankId
  | colonInName
  deriving DecidableEq

def HookError.fault : HookError → Fault
  | .blankId => .validation "Client ID must not be empty" (some "id")
  | .colonInName => .validation "Dependency IDs must not contain ':'" (some "dependencies")

/-- The trimmed names of a list, blank ones left out. -/
def listedNames (dependencies : List String) : List String :=
  (dependencies.map Text.trim).filter (· ≠ "")

def ofHook (id action : String) (dependencies : List String) : Except HookError Request :=
  let names := listedNames dependencies
  if Text.allBlank id then .error .blankId
  else if names.any fun n => n.toList.contains ':' then .error .colonInName
  else .ok ⟨id, action, .list (Text.join ":" names)⟩

/-- The request that is sent when nothing else is asked for. -/
def smokeComponents : List String := ["c1", "c2", "c3"]

def smoke : Except Fault Request := ofMesh smokeComponents

end Request

end CheckpointRelay.Envelope
