/-
  CheckpointRelay.Envelope.Component — components and the maps of their dependencies.

  A map names, for each component, the components it is linked with. Outside data is accepted
  as a map exactly when `DependencyMap.issues` finds nothing: names are texts that are not
  blank, and they are kept as they are, padding included. `DependencyMap.ofMembers` is the
  normal form: no component is listed under itself, and the reserved key is dropped.
-/

import CheckpointRelay.Fault
import CheckpointRelay.Text.Blank

namespace CheckpointRelay.Envelope

abbrev DependencyMap := Keyed (List String)

namespace DependencyMap

/-- A key that no map keeps. -/
def reservedKey : String := "__proto__"

/-! ## (1) Issues -/

def nameIssues (path : List String) (name : String) : List Issue :=
  if Text.allBlank name then [⟨path, .blankComponent⟩] else []

def itemIssues (path : List String) : Json → List Issue
  | .str s => nameIssues path s
  | v => [⟨path, .expected .string v.shape⟩]

/-- The issues of a list of names, each at the index of its item. -/
def listIssues (key : String) : Json → List Issue
  | .arr items => items.zipIdx.flatMap fun p => itemIssues [key, toString p.2] p.1
  | v => [⟨[key], .expected .array v.shape⟩]

def memberIssues (m : String × Json) : List Issue := nameIssues [m.1] m.1 ++ listIssues m.1 m.2

def issues : Json → List Issue
  | .obj ms => ms.flatMap memberIssues
  | v => [Issue.notObject v]

/-! ## (2) The map -/

def names : Json → List String
  | .arr items => items.filterMap fun | .str s => some s | _ => none
  | _ => []

def ofMembers (ms : Keyed Json) : DependencyMap :=
  (ms.filter fun m => m.1 ≠ reservedKey).map fun m => (m.1, (names m.2).filter (· ≠ m.1))

def parse (v : Json) : Except (List Issue) DependencyMap :=
  match v, issues v with
  | .obj ms, [] => .ok (ofMembers ms)
  | _, found => .error found

def toJson (m : DependencyMap) : Json := .obj (m.map fun p => (p.1, .ofStrings p.2))

/-- What a refused map is reported as. -/
def refusal (found : List Issue) : Fault :=
  .validation ("Invalid dependencies map: " ++ Issue.summary found) (some "dependencies")

def load (v : Json) : Except Fault DependencyMap := (parse v).mapError refusal

end DependencyMap

end CheckpointRelay.Envelope
