import HealthCheck.Main
import HealthCheck.Proofs.Observation
import HealthCheck.Proofs.Abort
import HealthCheck.Proofs.Suite.Run
import HealthCheck.Proofs.Context.Paths
import HealthCheck.Proofs.Suite.DataFlow
import HealthCheck.Proofs.Number.Numerals
import HealthCheck.Proofs.Number.Writing
import HealthCheck.Proofs.Number.Reading
import HealthCheck.Proofs.Equality
import HealthCheck.Proofs.Suite.Fidelity
import HealthCheck.Proofs.Condition.Split
import HealthCheck.Proofs.Json.RoundTrip
import HealthCheck.Proofs.Text.Encoding
import HealthCheck.Proofs.Json.Reach
import HealthCheck.Proofs.Condition.Sight
import HealthCheck.Proofs.Condition.Needs
import HealthCheck.Proofs.Condition.Overflow
import HealthCheck.Proofs.Condition.Evaluation
import HealthCheck.Proofs.Endpoint.Evaluation
import HealthCheck.Proofs.Manifest.Validation
import HealthCheck.Proofs.Condition.Equations
import HealthCheck.Proofs.Endpoint.Redaction
import HealthCheck.Proofs.Suite.Capture
import HealthCheck.Proofs.Suite.Redaction
import HealthCheck.Proofs.Suite.UiSettings
import HealthCheck.Proofs.Context.Overwriting
import HealthCheck.Proofs.Text.Words
import HealthCheck.Proofs.Number.Ordering
import HealthCheck.Proofs.Condition.Operators
import HealthCheck.Proofs.Command.ExitCode
import HealthCheck.Proofs.Report.Console
import HealthCheck.Proofs.Json.Joining
import HealthCheck.Proofs.Suite.Storing
import HealthCheck.Proofs.Suite.Refusal
import HealthCheck.Proofs.Record.Timestamp
import HealthCheck.Proofs.Record.RoundTrip
import HealthCheck.Proofs.Condition.Grammar
import HealthCheck.Proofs.Json.Width
import HealthCheck.Proofs.Json.Location
import HealthCheck.Proofs.Condition.Diagnostics
import HealthCheck.Proofs.Duration.Literal
import HealthCheck.Proofs.Duration.Total
import HealthCheck.Proofs.Duration.Precision
import HealthCheck.Proofs.Duration.Range
import HealthCheck.Proofs.Condition.Durations
import HealthCheck.Proofs.Duration.Reading
import HealthCheck.Proofs.Duration.Writing
import HealthCheck.Proofs.Json.Tokens
import HealthCheck.Proofs.Json.Margins
import HealthCheck.Proofs.Operand.Body
import HealthCheck.Proofs.Number.IntegerLiterals
import HealthCheck.Proofs.Number.Saturation
import HealthCheck.Proofs.Condition.DecimalOrder
import HealthCheck.Proofs.Wildcard
import HealthCheck.Proofs.Context.Writing
import HealthCheck.Proofs.Manifest.WellFormed
import HealthCheck.Proofs.Manifest.Faults
import HealthCheck.Proofs.Probe.Growth
