/-
  CheckpointRelay.Envelope.Wire — envelopes as they go over the wire.

  `serialize` accepts any value that has the fields of an envelope and writes that value
  itself, further members and all, as compact JSON in UTF-8. There is no length in front and
  no mark behind: the closing brace is the end.
-/

import CheckpointRelay.Envelope.Request
import CheckpointRelay.Json.Writer
import CheckpointRelay.Text.Utf8

namespace CheckpointRelay.Envelope

open Text.Utf8 (Bytes)

/-! ## (1) Fields -/

def actions : List String := HookAction.names ++ [addDependenciesAction]

def idComplaints : Option Json → List Complaint
  | none => [.required]
  | some (.str s) => if s = "" then [.emptyText] else []
  | some v => [.expected .string v.shape]

def actionComplaints : Option Json → List Complaint
  | some (.str s) => if actions.contains s then [] else [.noAlternative]
  | _ => [.noAlternative]

def dependencyComplaints : Option Json → List Complaint
  | some (.str _) => []
  | some v => if DependencyMap.issues v = [] then [] else [.noAlternative]
  | none => [.noAlternative]

def issues (v : Json) : List Issue :=
  match v with
  | .obj _ =>
    (idComplaints (v.field? "id")).map (⟨["id"], ·⟩)
      ++ (actionComplaints (v.field? "action")).map (⟨["action"], ·⟩)
      ++ (dependencyComplaints (v.field? "dependencies")).map (⟨["dependencies"], ·⟩)
  | v => [Issue.notObject v]

/-! ## (2) Bytes -/

def refusal (found : List Issue) : Fault :=
  .validation ("Invalid request envelope: " ++ Issue.summary found) none

def serialize (v : Json) : Except Fault Bytes :=
  match issues v with
  | [] => .ok (Text.Utf8.encode v.text)
  | found => .error (refusal found)

end CheckpointRelay.Envelope
