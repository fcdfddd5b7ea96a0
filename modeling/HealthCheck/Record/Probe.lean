import HealthCheck.Probe
import HealthCheck.Record.Basic

/-!
# Probe results as JSON

The parts of a probe result, in order. Empty texts and lists are left out when a result is written,
and so is a timestamp that is not set; a body is written as its lossily decoded text and read as the
bytes of a text.
-/

namespace HealthCheck

open Record

namespace ConditionOutcome

/-- The keys of the parts, in order. -/
def keys : List Text := ["condition", "success"].map String.toList

/-- Reads an outcome; both parts have to be there. -/
def ofJson? (v : Json) : Option ConditionOutcome := do
  let fields ← fields? keys v
  let condition ← required fields "condition".toList text?
  let success ← required fields "success".toList flag?
  return ⟨condition, success⟩

/-- Writes an outcome. -/
def toJson (o : ConditionOutcome) : Json :=
  .object [("condition".toList, .string o.condition), ("success".toList, .bool o.success)]

end ConditionOutcome

namespace Timestamp

/-- Reads a point in time or, from null, none. -/
def optionOfJson? : Json → Option (Option Timestamp)
  | .null => some none
  | .string t => (read? t).map some
  | _ => none

/-- A part for a point in time that may be set. -/
def part (t : Option Timestamp) : Fields Json :=
  match t with
  | some t => [("timestamp".toList, .string t.write)]
  | none => []

end Timestamp

namespace Probe

/-- The keys of the parts, in order. -/
def keys : List Text :=
  ["name", "status", "hostname", "ip", "dns-rcode", "connected", "duration",
    "certificate-expiration", "domain-expiration", "body", "errors", "condition-results", "success",
    "timestamp"].map String.toList

/-- A number of milliseconds. -/
def millis? (v : Json) : Option UInt64 := (natural? UInt64.size v).map UInt64.ofNat

/-- Reads a probe result. -/
def ofJson? (v : Json) : Option Probe := do
  let fields ← fields? keys v
  let name ← part fields "name".toList text? []
  let status ← part fields "status".toList (natural? UInt16.size) 0
  let hostname ← part fields "hostname".toList text? []
  let ip ← part fields "ip".toList text? []
  let dnsRcode ← part fields "dns-rcode".toList text? []
  let connected ← part fields "connected".toList flag? false
  let duration ← part fields "duration".toList millis? 0
  let certificateExpiration ← part fields "certificate-expiration".toList millis? 0
  let domainExpiration ← part fields "domain-expiration".toList millis? 0
  let body ← part fields "body".toList text? []
  let errors ← part fields "errors".toList (list? text?) []
  let conditionOutcomes ←
    part fields "condition-results".toList (list? ConditionOutcome.ofJson?) []
  let success ← part fields "success".toList flag? false
  let timestamp ← part fields "timestamp".toList Timestamp.optionOfJson? none
  return {
    name, hostname, ip, dnsRcode, connected, duration, certificateExpiration, domainExpiration,
    errors, conditionOutcomes, success, timestamp
    status := .ofNat status
    body := Utf8.encode body
  }

/-- Writes a probe result. -/
def toJson (p : Probe) : Json :=
  let optional (key : String) (t : Text) : Fields Json := unlessEmpty key.toList t (.string t)
  .object <|
    optional "name" p.name ++
    [("status".toList, natural p.status.toNat)] ++
    optional "hostname" p.hostname ++
    optional "ip" p.ip ++
    optional "dns-rcode" p.dnsRcode ++
    [("connected".toList, .bool p.connected),
      ("duration".toList, natural p.duration.toNat),
      ("certificate-expiration".toList, natural p.certificateExpiration.toNat),
      ("domain-expiration".toList, natural p.domainExpiration.toNat)] ++
    unlessEmpty "body".toList p.body (.string p.bodyText) ++
    unlessEmpty "errors".toList p.errors (.array (p.errors.map .string)) ++
    unlessEmpty "condition-results".toList p.conditionOutcomes
      (.array (p.conditionOutcomes.map ConditionOutcome.toJson)) ++
    [("success".toList, .bool p.success)] ++
    Timestamp.part p.timestamp

end Probe

end HealthCheck
