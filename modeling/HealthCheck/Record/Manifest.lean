import HealthCheck.Manifest
import HealthCheck.Record.Probe

/-!
# Manifests as JSON

The parts of endpoints, suites and manifests. Only names have to be there. Store mappings and the
context of a suite are left out when they are empty; every other part is always written.
-/

namespace HealthCheck

open Record

/-- Reads display and redaction settings. -/
def UiSettings.ofJson? (v : Json) : Option UiSettings := do
  let fields ← fields? (["hide-conditions", "hide-hostname", "hide-errors",
    "dont-resolve-failed-conditions", "resolve-successful-conditions"].map String.toList) v
  let hideConditions ← part fields "hide-conditions".toList flag? false
  let hideHostname ← part fields "hide-hostname".toList flag? false
  let hideErrors ← part fields "hide-errors".toList flag? false
  let dontResolveFailedConditions ←
    part fields "dont-resolve-failed-conditions".toList flag? false
  let resolveSuccessfulConditions ←
    part fields "resolve-successful-conditions".toList flag? false
  return {
    hideConditions, hideHostname, hideErrors, dontResolveFailedConditions,
    resolveSuccessfulConditions
  }

/-- Writes display and redaction settings. -/
def UiSettings.toJson (ui : UiSettings) : Json :=
  .object [
    ("hide-conditions".toList, .bool ui.hideConditions),
    ("hide-hostname".toList, .bool ui.hideHostname),
    ("hide-errors".toList, .bool ui.hideErrors),
    ("dont-resolve-failed-conditions".toList, .bool ui.dontResolveFailedConditions),
    ("resolve-successful-conditions".toList, .bool ui.resolveSuccessfulConditions)]

namespace StoreMappings

/-- Mappings from entries in order; of two with one key the first keeps its place and the last its
operand. -/
def ofEntries (entries : List (Text × Text)) : StoreMappings :=
  ⟨Fields.ofList entries, Fields.nodup_keys_ofList entries⟩

/-- Reads mappings: an object of texts. -/
def ofJson? (v : Json) : Option StoreMappings := do
  let fields ← object? v
  let entries ← fields.mapM fun (key, v) => (text? v).map (key, ·)
  return ofEntries entries

/-- Writes mappings. -/
def toJson (m : StoreMappings) : Json :=
  .object (m.entries.map fun (key, operand) => (key, .string operand))

end StoreMappings

namespace Endpoint

/-- The keys of the parts, in order. -/
def keys : List Text :=
  ["name", "conditions", "ui", "store", "always-run", "result"].map String.toList

/-- Reads an endpoint. -/
def ofJson? (v : Json) : Option Endpoint := do
  let fields ← fields? keys v
  let name ← required fields "name".toList text?
  let conditions ←
    part fields "conditions".toList (list? fun v => (text? v).map Condition.mk) []
  let ui ← part fields "ui".toList UiSettings.ofJson? {}
  let store ← part fields "store".toList StoreMappings.ofJson? {}
  let alwaysRun ← part fields "always-run".toList flag? false
  let result ← part fields "result".toList Probe.ofJson? {}
  return { name, conditions, ui, store, alwaysRun, result }

/-- Writes an endpoint. -/
def toJson (e : Endpoint) : Json :=
  .object <|
    [("name".toList, .string e.name),
      ("conditions".toList, .array (e.conditions.map fun c => .string c.text)),
      ("ui".toList, e.ui.toJson)] ++
    unlessEmpty "store".toList e.store.entries e.store.toJson ++
    [("always-run".toList, .bool e.alwaysRun), ("result".toList, e.result.toJson)]

end Endpoint

namespace Suite

/-- Reads a suite. -/
def ofJson? (v : Json) : Option Suite := do
  let fields ← fields? (["name", "context", "endpoints"].map String.toList) v
  let name ← required fields "name".toList text?
  let context ← part fields "context".toList object? []
  let endpoints ← part fields "endpoints".toList (list? Endpoint.ofJson?) []
  return { name, context, endpoints }

/-- Writes a suite. -/
def toJson (s : Suite) : Json :=
  .object <|
    [("name".toList, .string s.name)] ++
    unlessEmpty "context".toList s.context (.object s.context) ++
    [("endpoints".toList, .array (s.endpoints.map Endpoint.toJson))]

end Suite

/-- Writes the outcome of a suite. -/
def SuiteResult.toJson (r : SuiteResult) : Json :=
  .object <|
    [("name".toList, .string r.name), ("success".toList, .bool r.success)] ++
    Timestamp.part r.timestamp ++
    [("endpoint-results".toList, .array (r.endpointResults.map Probe.toJson))] ++
    unlessEmpty "context".toList r.context (.object r.context)

namespace Manifest

/-- Reads a manifest, without checking it. -/
def ofJson? (v : Json) : Option Manifest := do
  let fields ← fields? (["endpoints", "suites"].map String.toList) v
  let endpoints ← part fields "endpoints".toList (list? Endpoint.ofJson?) []
  let suites ← part fields "suites".toList (list? Suite.ofJson?) []
  return { endpoints, suites }

/-- Writes a manifest. -/
def toJson (m : Manifest) : Json :=
  .object [
    ("endpoints".toList, .array (m.endpoints.map Endpoint.toJson)),
    ("suites".toList, .array (m.suites.map Suite.toJson))]

end Manifest

end HealthCheck
