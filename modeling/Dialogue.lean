import Dialogue.Action
import Dialogue.Action.Codec
import Dialogue.Arguments
import Dialogue.Command
import Dialogue.Compile
import Dialogue.Condition
import Dialogue.Config
import Dialogue.Event
import Dialogue.Failure
import Dialogue.FileTree
import Dialogue.Flag
import Dialogue.Golden.Case
import Dialogue.Golden.Run
import Dialogue.GroupRun
import Dialogue.Json.Decoder
import Dialogue.Json.Fault
import Dialogue.Json.Printer
import Dialogue.Json.Reader
import Dialogue.Json.Value
import Dialogue.Labels
import Dialogue.Machine
import Dialogue.Main
import Dialogue.Manifest
import Dialogue.Number.Binary64
import Dialogue.Number.Power
import Dialogue.Number.Shortest
import Dialogue.Project
import Dialogue.ProjectCopy
import Dialogue.Proofs.Accepted
import Dialogue.Proofs.Answers
import Dialogue.Proofs.Closed
import Dialogue.Proofs.FirstFault
import Dialogue.Proofs.Footprint
import Dialogue.Proofs.Loading
import Dialogue.Proofs.Meaning
import Dialogue.Proofs.Occurrence
import Dialogue.Proofs.Paths
import Dialogue.Proofs.Perform
import Dialogue.Proofs.Process
import Dialogue.Proofs.Segments
import Dialogue.Proofs.Sequence
import Dialogue.Proofs.Walks
import Dialogue.Recorder
import Dialogue.Report
import Dialogue.Request
import Dialogue.Script.Builtin
import Dialogue.Script.Eval
import Dialogue.Script.Execution
import Dialogue.Script.Fault
import Dialogue.Script.Lexer
import Dialogue.Script.Operators
import Dialogue.Script.Parser
import Dialogue.Script.Place
import Dialogue.Script.Simplified
import Dialogue.Script.State
import Dialogue.Script.Syntax
import Dialogue.Script.Token
import Dialogue.Script.Value
import Dialogue.Script.Word
import Dialogue.SourceUnit
import Dialogue.Text.Blank
import Dialogue.Text.Capital
import Dialogue.Text.Path
import Dialogue.Text.Quoted
import Dialogue.Text.Unprintable
import Dialogue.Vocabulary
import Dialogue.Proofs.Json.Reading
import Dialogue.Proofs.Json.Numbers
import Dialogue.Proofs.Json.Strings
import Dialogue.Proofs.Json.Numerals
import Dialogue.Proofs.Json.Values
import Dialogue.Proofs.Json.Decoding
import Dialogue.Proofs.RoundTrip
import Dialogue.Proofs.Artifacts
import Dialogue.Proofs.Previews
import Dialogue.Proofs.ReadBack
import Dialogue.Proofs.Rooted
import Dialogue.Proofs.Prediction
import Dialogue.Proofs.Ways
import Dialogue.Proofs.Keeping
import Dialogue.Proofs.Frame
import Dialogue.Proofs.History
import Dialogue.Proofs.Repetition
import Dialogue.Proofs.Procedure
import Dialogue.Proofs.Confined
import Dialogue.Proofs.Script.Runs
import Dialogue.Proofs.Script.Recording
import Dialogue.Proofs.Failures
import Dialogue.Proofs.Json.Compact
import Dialogue.Proofs.Protocol
import Dialogue.Proofs.Discretion
import Dialogue.Proofs.Folders
import Dialogue.Proofs.Copying
import Dialogue.Proofs.Observation
import Dialogue.Proofs.Pieces
import Dialogue.Proofs.Joining
import Dialogue.Proofs.Exits
import Dialogue.Proofs.Builder
import Dialogue.Proofs.Pruning
import Dialogue.Proofs.Renaming
import Dialogue.Proofs.Atomicity
import Dialogue.Proofs.Calls
import Dialogue.Proofs.Manifests
import Dialogue.Proofs.Json.Integers
import Dialogue.Proofs.Reencoding
import Dialogue.Proofs.Comparison
import Dialogue.Proofs.Script.Limits
import Dialogue.Proofs.Budget
import Dialogue.Proofs.Options
import Dialogue.Proofs.Mirror
import Dialogue.Proofs.Tour
