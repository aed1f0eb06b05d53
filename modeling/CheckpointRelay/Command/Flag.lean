/-
  CheckpointRelay.Command.Flag — the flags of the program and of its two commands.
-/

import CheckpointRelay.Envelope.Request

namespace CheckpointRelay.Command

inductive Flag.Kind where
  /-- Prints the version. -/
  | version
  | text (placeholder : String)
  | integer (placeholder : String)
  deriving DecidableEq

structure Flag where
  long : String
  short : Option String := none
  kind : Flag.Kind
  about : String
  required : Bool := false

namespace Flag

def placeholder? (f : Flag) : Option String :=
  match f.kind with
  | .version => none
  | .text p => some p
  | .integer p => some p

/-- The flag as messages and help show it. -/
def form (f : Flag) : String :=
  (match f.short with | some s => s ++ ", " | none => "") ++ f.long
    ++ (match f.placeholder? with | some p => " " ++ p | none => "")

def answersTo (f : Flag) (word : String) : Bool := f.long == word || f.short == some word

end Flag

def versionText : String := "0.1.0"
def programName : String := "coordinator-probe"

def programFlags : List Flag := [
  { long := "--version", short := some "-V", kind := .version, about := "output the version number" },
  { long := "--host", kind := .text "<host>", about := "Coordinator address (default: 127.0.0.1)" },
  { long := "--port", kind := .integer "<port>", about := "Coordinator port (default: 8080)" },
  { long := "--timeout", kind := .integer "<ms>",
    about := "Give up after this many milliseconds (default: no timeout)" },
  { long := "--max-bytes", kind := .integer "<n>", about := "Largest reply to read (default: 1024)" }]

inductive Subcommand where
  | addDependencies
  | hook
  deriving DecidableEq

namespace Subcommand

def all : List Subcommand := [.addDependencies, .hook]

def name : Subcommand → String
  | .addDependencies => "add-dependencies"
  | .hook => "hook"

def ofName? (s : String) : Option Subcommand := all.find? (·.name == s)

def about : Subcommand → String
  | .addDependencies => "Register a dependencies map (the c1/c2/c3 mesh unless told otherwise)"
  | .hook => "Send a checkpoint/restore hook action for one container"

def flags : Subcommand → List Flag
  | .addDependencies => [
    { long := "--deps-file", kind := .text "<path>",
      about := "JSON file mapping each component to its dependencies" },
    { long := "--components", kind := .text "<list>",
      about := "Comma-separated components to link with each other" }]
  | .hook => [
    { long := "--id", kind := .text "<id>", about := "Client ID", required := true },
    { long := "--action", kind := .text "<action>",
      about := "One of: " ++ Text.join ", " Envelope.HookAction.names, required := true },
    { long := "--deps", kind := .text "<list>",
      about := "Colon-separated dependency IDs (default: \"\")" }]

end Subcommand

end CheckpointRelay.Command
