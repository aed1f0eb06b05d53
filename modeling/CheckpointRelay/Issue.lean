/-
  CheckpointRelay.Issue — what is wrong with a value, and where.

  A check of outside data gives the list of its issues in the order of the fields. An issue
  is a place (`path`, from the outside in) and a `Complaint`; `Issue.text` is its one wording.
-/

import CheckpointRelay.Json.Basic
import CheckpointRelay.Text.Split

namespace CheckpointRelay

inductive Complaint where
  | required
  | expected (want got : Json.Shape)
  | notInteger
  | emptyText
  | noAlternative
  | unknownLevel (received : String)
  | blankComponent
  | missingId
  | blankHost
  | portOutOfRange
  | negativeTimeout
  | timeoutTooLong
  | noResponseBytes
  deriving DecidableEq

def Complaint.text : Complaint → String
  | .required => "Required"
  | .expected want got => "Expected " ++ want.name ++ ", received " ++ got.name
  | .notInteger => "Expected integer, received float"
  | .emptyText => "String must contain at least 1 character(s)"
  | .noAlternative => "Invalid input"
  | .unknownLevel received =>
    "Invalid enum value. Expected 'debug' | 'info' | 'warn' | 'error', received '" ++ received ++ "'"
  | .blankComponent => "Component names must not be empty"
  | .missingId => "ID missing in config file"
  | .blankHost => "Host must not be empty"
  | .portOutOfRange => "Port must be between 1 and 65535"
  | .negativeTimeout => "Timeout must not be negative"
  | .timeoutTooLong => "Timeout must not exceed 2147483647ms"
  | .noResponseBytes => "Max response bytes must be at least 1"

structure Issue where
  path : List String
  complaint : Complaint
  deriving DecidableEq

namespace Issue

def text (i : Issue) : String :=
  if i.path = [] then i.complaint.text else Text.join "." i.path ++ ": " ++ i.complaint.text

/-- All issues as one text. -/
def summary (is : List Issue) : String := Text.join "; " (is.map text)

/-- A value that is not an object where one has to be. -/
def notObject (v : Json) : Issue := ⟨[], .expected .object v.shape⟩

end Issue

/-- The outcome of the check of one field: its value, or what is wrong with it. -/
abbrev Checked (α : Type) := Except (List Complaint) α

/-- The issues of a field that is called `name`. -/
def Checked.issues {α : Type} (name : String) : Checked α → List Issue
  | .ok _ => []
  | .error cs => cs.map fun c => ⟨[name], c⟩

end CheckpointRelay
