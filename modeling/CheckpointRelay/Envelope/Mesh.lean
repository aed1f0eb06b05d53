/-
  CheckpointRelay.Envelope.Mesh — every component linked with every other one.

  The components are the distinct trimmed names in the order of their first occurrence. Each
  is linked with all others in that order; the map itself has the order of `Keyed.put`.
-/

import CheckpointRelay.Envelope.Component

namespace CheckpointRelay.Envelope

inductive MeshError where
  | blankName
  | tooFew
  deriving DecidableEq

def MeshError.message : MeshError → String
  | .blankName => "Component names must not be empty"
  | .tooFew => "At least two distinct components are needed to form a dependency"

def MeshError.fault (e : MeshError) : Fault := .validation e.message (some "components")

/-- Each item once, at the place of its first occurrence. -/
def distinct : List String → List String
  | [] => []
  | a :: as => a :: (distinct as).filter (· ≠ a)

def mesh (components : List String) : Except MeshError DependencyMap :=
  let unique := distinct (components.map Text.trim)
  if unique.contains "" then .error .blankName
  else if unique.length < 2 then .error .tooFew
  else .ok (Keyed.ofPairs (unique.map fun c => (c, unique.filter (· ≠ c))))

end CheckpointRelay.Envelope
