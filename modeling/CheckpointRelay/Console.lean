/-
  CheckpointRelay.Console — what a run writes for its user, line by line.
-/

namespace CheckpointRelay.Console

/-- Where a line goes: one of the four levels of the log, or plain output. -/
inductive Channel where
  | debug | info | warn | error | log
  deriving DecidableEq

def Channel.name : Channel → String
  | .debug => "debug"
  | .info => "info"
  | .warn => "warn"
  | .error => "error"
  | .log => "log"

structure Call where
  channel : Channel
  line : String
  deriving DecidableEq

end CheckpointRelay.Console
