import HealthCheck.Record.Manifest
import HealthCheck.Yaml.Lexer
import HealthCheck.Yaml.Shape

/-!
# Manifests as YAML

The shapes of records in YAML, and the way from the bytes of a manifest to a manifest that has been
checked. JSON is read as YAML too.
-/

namespace HealthCheck

open Yaml (Shape)

/-- The shape of a record with parts of the given shapes. -/
def Record.shape (parts : List (String × Shape)) : Shape :=
  .record (parts.map fun (key, shape) => (key.toList, shape))

/-- The shape of display and redaction settings. -/
def UiSettings.shape : Shape :=
  Record.shape [("hide-conditions", .flag), ("hide-hostname", .flag), ("hide-errors", .flag),
    ("dont-resolve-failed-conditions", .flag), ("resolve-successful-conditions", .flag)]

/-- The shape of the outcome of a condition. -/
def ConditionOutcome.shape : Shape := Record.shape [("condition", .text), ("success", .flag)]

/-- The shape of a probe result. -/
def Probe.shape : Shape :=
  Record.shape [("name", .text), ("status", .natural), ("hostname", .text), ("ip", .text),
    ("dns-rcode", .text), ("connected", .flag), ("duration", .natural),
    ("certificate-expiration", .natural), ("domain-expiration", .natural), ("body", .text),
    ("errors", .list .text), ("condition-results", .list ConditionOutcome.shape),
    ("success", .flag), ("timestamp", .optionalText)]

/-- The shape of an endpoint. -/
def Endpoint.shape : Shape :=
  Record.shape [("name", .text), ("conditions", .list .text), ("ui", UiSettings.shape),
    ("store", .mapping .text), ("always-run", .flag), ("result", Probe.shape)]

/-- The shape of a suite. -/
def Suite.shape : Shape :=
  Record.shape [("name", .text), ("context", .mapping .any), ("endpoints", .list Endpoint.shape)]

namespace Manifest

/-- The shape of a manifest. -/
def shape : Shape :=
  Record.shape [("endpoints", .list Endpoint.shape), ("suites", .list Suite.shape)]

/-- Reads a manifest from a text, without checking it. -/
def ofText? (t : Text) : Option Manifest := do
  let tokens ← Yaml.Token.ofText? t
  let document ← Yaml.Document.ofTokens? tokens
  ofJson? (← document.value? shape)

/-- Reads a manifest and checks it. -/
def load (bytes : Bytes) : Except Abort (Except Error Manifest) := do
  match Utf8.decode? bytes with
  | none => return .error (.unreadable "stream did not contain valid UTF-8".toList)
  | some t =>
    match ofText? t with
    | none => return .error .malformedManifest
    | some m => return (← m.validate).map fun _ => m

end Manifest

end HealthCheck
