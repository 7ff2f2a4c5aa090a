import Latency.Main
import Latency.Proofs.Pipeline.Interleaving
import Latency.Proofs.Session.Incoming
import Latency.Proofs.Session.Response
import Latency.Proofs.Session.Diagnostics
import Latency.Proofs.Server.Teardown
import Latency.Proofs.Session.Stable
import Latency.Proofs.Bench.Containment
import Latency.Proofs.Session.Transport
import Latency.Proofs.Json.RoundTrip
import Latency.Proofs.Frame.Pieces
import Latency.Proofs.Text.Ascii
import Latency.Proofs.Frame.RoundTrip
import Latency.Proofs.Pipeline.Transparency
import Latency.Proofs.Session.Exchange
import Latency.Proofs.Session.Plan
import Latency.Proofs.Bench.Plan
import Latency.Proofs.Bench.Rounds
import Latency.Proofs.Bench.Protocol
import Latency.Proofs.Bench.Answers
import Latency.Proofs.Bench.Rows
import Latency.Proofs.Bench.Edits
import Latency.Proofs.Bench.Triggers
import Latency.Proofs.Order.Related
import Latency.Proofs.Bench.Limits
import Latency.Proofs.Bench.Fresh
import Latency.Proofs.Bench.Lines
import Latency.Proofs.Session.Shift
import Latency.Proofs.Bench.Isolation
import Latency.Proofs.Results
import Latency.Proofs.Json.Members
import Latency.Proofs.Files.Places
import Latency.Proofs.Run.Records
import Latency.Proofs.Bench.Samples
import Latency.Proofs.Bench.Verdicts
import Latency.Proofs.Decimal.Parts
import Latency.Proofs.Number.Sign
import Latency.Proofs.Number.Range
import Latency.Proofs.Settings.Bounds
import Latency.Proofs.Settings.Refusals
import Latency.Proofs.Run.Shape
import Latency.Proofs.Run.Deadlines
import Latency.Proofs.Run.Verification
import Latency.Proofs.Frame.Extent
import Latency.Proofs.Bench.Statistics
import Latency.Proofs.Run.Versions
import Latency.Proofs.Bench.Logs
import Latency.Proofs.Settings.Names
import Latency.Proofs.Settings.Overrides
import Latency.Proofs.Settings.Selection
import Latency.Proofs.Bench.Expectations
import Latency.Proofs.Run.Servers
import Latency.Proofs.Order.Stable
import Latency.Proofs.Number.Value
import Latency.Proofs.Bench.Ranking
