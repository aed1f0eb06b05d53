/-
  CheckpointRelay.Reply — what the coordinator answers.

  A reply is recognised by its text after trimming. The five messages of the coordinator and
  the empty text have kinds of their own; every other reply is `unknown` and is still a reply.
-/

import CheckpointRelay.Text.Blank
import CheckpointRelay.Text.Utf8

namespace CheckpointRelay

open Text.Utf8 (Bytes)

namespace Reply

inductive Kind where
  | ack | timeout | notConnected | checkpointExists | alreadyConnected | empty | unknown
  deriving DecidableEq

def Kind.name : Kind → String
  | .ack => "ack"
  | .timeout => "timeout"
  | .notConnected => "not-connected"
  | .checkpointExists => "checkpoint-exists"
  | .alreadyConnected => "already-connected"
  | .empty => "empty"
  | .unknown => "unknown"

def messages : List (String × Kind) :=
  [("ACK", .ack), ("timeout", .timeout), ("not connected", .notConnected),
   ("checkpoint is already created", .checkpointExists), ("client already connected", .alreadyConnected)]

def kindOf (text : String) : Kind :=
  if text = "" then .empty else (messages.lookup text).getD .unknown

end Reply

structure Reply where
  kind : Reply.Kind
  text : String
  deriving DecidableEq

def Reply.classify (raw : Bytes) : Reply :=
  let text := Text.trim (Text.Utf8.decode raw)
  ⟨kindOf text, text⟩

end CheckpointRelay
