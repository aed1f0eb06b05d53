/-
  CheckpointRelay.Log.Level — the four levels of the log and their order.
-/

import CheckpointRelay.Console
import CheckpointRelay.Issue
import CheckpointRelay.Text.Blank
import CheckpointRelay.Text.Case

namespace CheckpointRelay.Log

inductive Level where
  | debug | info | warn | error
  deriving DecidableEq

namespace Level

def all : List Level := [.debug, .info, .warn, .error]

def name : Level → String
  | .debug => "debug"
  | .info => "info"
  | .warn => "warn"
  | .error => "error"

def rank : Level → Nat
  | .debug => 0
  | .info => 1
  | .warn => 2
  | .error => 3

def channel : Level → Console.Channel
  | .debug => .debug
  | .info => .info
  | .warn => .warn
  | .error => .error

def ofName? (s : String) : Option Level := all.find? (·.name == s)

/-- A level as users write it: padding and case do not matter. -/
def ofText? (s : String) : Option Level := ofName? (Text.toLower (Text.trim s))

/-- The check of a level that comes from outside. -/
def check : Option Json → Checked Level
  | none => .error [.required]
  | some (.str s) =>
    match ofText? s with
    | some l => .ok l
    | none => .error [.unknownLevel (Text.toLower (Text.trim s))]
  | some v => .error [.expected .string v.shape]

end Level

end CheckpointRelay.Log
