import Dataflow.AccessPath.Diagnostic
import Dataflow.Codec
import Dataflow.Text.Digit
import Dataflow.Text.Lowercase
import Dataflow.Json
import Dataflow.Json.Reader
import Dataflow.Json.Record
import Dataflow.Consistency
import Dataflow.Display
import Dataflow.Session
import Dataflow.Suggestion.Completion
import Dataflow.Wire.Endpoint
import Dataflow.Wire.Model
import Dataflow.Wire.Report
import Dataflow.Wire.Row
import Dataflow.Wire.Suggestion
import Dataflow.Toml
import Dataflow.Toml.Reader
import Dataflow.CommandLine.Arguments
import Dataflow.Failure
import Dataflow.FileTree
import Dataflow.Wire.Settings
import Dataflow.CommandLine.Answer
import Dataflow.Main
import Dataflow.Proofs.AccessPath.Cut
import Dataflow.Proofs.AccessPath.Prefix
import Dataflow.Proofs.AccessPath.Joining
import Dataflow.Proofs.MemberChain.Chain
import Dataflow.Proofs.Row
import Dataflow.Proofs.MemberChain.RoundTrip
import Dataflow.Proofs.MemberChain.MethodOnly
import Dataflow.Proofs.MemberChain.Parsing
import Dataflow.Proofs.Suggestion.DisplayOrder
import Dataflow.Proofs.Suggestion.Forest
import Dataflow.Proofs.Suggestion.Rooted
import Dataflow.Proofs.Suggestion.Matching
import Dataflow.Proofs.Text.Lowercase
import Dataflow.Proofs.Suggestion.Typing
import Dataflow.Proofs.Text.FinalSigma
import Dataflow.Proofs.Suggestion.Narrowing
import Dataflow.Proofs.Suggestion.Dotted
import Dataflow.Proofs.Suggestion.Arrival
import Dataflow.Proofs.Text.Digit
import Dataflow.Proofs.Suggestion.LabelOrder
import Dataflow.Proofs.Suggestion.Keyword
import Dataflow.Proofs.AccessPath.Grammar
import Dataflow.Proofs.MethodToken.Path
import Dataflow.Proofs.MethodToken.RoundTrip
import Dataflow.Proofs.Flat.RoundTrip
import Dataflow.Proofs.Keyed
import Dataflow.Proofs.Codec.Batch
import Dataflow.Proofs.Codec.Signature
import Dataflow.Proofs.Codec.SameRow
import Dataflow.Proofs.Codec.Rejection
import Dataflow.Proofs.Display.Layout
import Dataflow.Proofs.Display.Arrival
import Dataflow.Proofs.Display.Closed
import Dataflow.Proofs.Display.MethodOrder
import Dataflow.Proofs.Display.GroupOrder
import Dataflow.Proofs.AccessPath.Tiling
import Dataflow.Proofs.Validation.Findings
import Dataflow.Proofs.Validation.Heeded
import Dataflow.Proofs.Consistency.Reconciled
import Dataflow.Proofs.Argument.Offered
import Dataflow.Proofs.Wire.RoundTrip
