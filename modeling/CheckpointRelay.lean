import CheckpointRelay.Client.Config
import CheckpointRelay.Client.Exchange
import CheckpointRelay.Client.Session
import CheckpointRelay.Clock
import CheckpointRelay.Command.Flag
import CheckpointRelay.Command.Help
import CheckpointRelay.Command.Line
import CheckpointRelay.Command.Run
import CheckpointRelay.Command.Suggestion
import CheckpointRelay.Console
import CheckpointRelay.Envelope.Component
import CheckpointRelay.Envelope.Mesh
import CheckpointRelay.Envelope.Request
import CheckpointRelay.Envelope.Wire
import CheckpointRelay.Environment
import CheckpointRelay.Fault
import CheckpointRelay.Files.Errno
import CheckpointRelay.Files.Path
import CheckpointRelay.Files.Tree
import CheckpointRelay.Hook.Config
import CheckpointRelay.Hook.Run
import CheckpointRelay.Issue
import CheckpointRelay.Json.Basic
import CheckpointRelay.Json.Keyed
import CheckpointRelay.Json.Plain
import CheckpointRelay.Json.Reader
import CheckpointRelay.Json.Writer
import CheckpointRelay.Log.Entry
import CheckpointRelay.Log.Level
import CheckpointRelay.Log.Logger
import CheckpointRelay.Log.Metadata
import CheckpointRelay.Log.Timer
import CheckpointRelay.Main
import CheckpointRelay.Number.Binary64
import CheckpointRelay.Number.Decimal
import CheckpointRelay.Number.Numeral
import CheckpointRelay.Reply
import CheckpointRelay.Text.Blank
import CheckpointRelay.Text.ByteLiteral
import CheckpointRelay.Text.Case
import CheckpointRelay.Text.CaseTable
import CheckpointRelay.Text.Hex
import CheckpointRelay.Text.Quoted
import CheckpointRelay.Text.Split
import CheckpointRelay.Text.Units
import CheckpointRelay.Text.Utf8
import CheckpointRelay.Proofs.Client.Settling
import CheckpointRelay.Proofs.Client.Releases
import CheckpointRelay.Proofs.Client.Overlap
import CheckpointRelay.Proofs.Client.Calls
import CheckpointRelay.Proofs.Envelope.Requests
import CheckpointRelay.Proofs.Command.Writes
import CheckpointRelay.Proofs.Text.Decoding
import CheckpointRelay.Proofs.Client.Results
import CheckpointRelay.Proofs.Command.Endings
import CheckpointRelay.Proofs.Text.Literals
import CheckpointRelay.Proofs.Client.Fields
import CheckpointRelay.Proofs.Envelope.Links
import CheckpointRelay.Proofs.Client.Bounds
import CheckpointRelay.Proofs.Command.Bounds
import CheckpointRelay.Proofs.Client.Thresholds
import CheckpointRelay.Proofs.Command.Settings
import CheckpointRelay.Proofs.Command.Scripts
import CheckpointRelay.Proofs.Envelope.Defects
import CheckpointRelay.Proofs.Envelope.NormalForm
import CheckpointRelay.Proofs.Json.KeyOrder
import CheckpointRelay.Proofs.Envelope.Graph
import CheckpointRelay.Proofs.Envelope.ColonLists
import CheckpointRelay.Proofs.Reply
import CheckpointRelay.Proofs.Envelope.Framing
import CheckpointRelay.Proofs.Hook.Lookup
import CheckpointRelay.Proofs.Hook.Fields
import CheckpointRelay.Proofs.Client.FixedPoint
import CheckpointRelay.Proofs.Number.WholeText
import CheckpointRelay.Proofs.Log.Timers
import CheckpointRelay.Proofs.Log.Tails
