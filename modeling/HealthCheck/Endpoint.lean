import HealthCheck.Condition

/-!
# Endpoints

An endpoint has a name, conditions and the probe result that was recorded for it. It is healthy when
the probe recorded no errors and every condition holds. Redaction comes last, after the outcome has
been decided.
-/

namespace HealthCheck

/-- Display and redaction settings of an endpoint. -/
structure UiSettings where
  hideConditions : Bool := false
  hideHostname : Bool := false
  hideErrors : Bool := false
  dontResolveFailedConditions : Bool := false
  resolveSuccessfulConditions : Bool := false
deriving DecidableEq, Repr

/-- How the settings have condition outcomes shown. -/
def UiSettings.display (ui : UiSettings) : Display :=
  ⟨ui.dontResolveFailedConditions, ui.resolveSuccessfulConditions⟩

/-- Which operand is captured under which context key, in order. No key occurs twice. -/
structure StoreMappings where
  entries : Fields Text := []
  distinct : entries.keys.Nodup := by simp [Fields.keys]
deriving DecidableEq

/-- An endpoint, or a step of a suite. -/
structure Endpoint where
  name : Text
  conditions : List Condition := []
  ui : UiSettings := {}
  /-- Steps only: what is captured once the step has been evaluated. -/
  store : StoreMappings := {}
  /-- Steps only: the step runs even after a failure. -/
  alwaysRun : Bool := false
  /-- What the probe observed. -/
  result : Probe := {}
deriving DecidableEq

namespace Endpoint

/-! ## Validation -/

/-- The first problem of conditions. -/
def validateConditions : List Condition → Except Abort (Except Error Unit)
  | [] => return .ok ()
  | c :: cs => do
    match ← c.validate with
    | .error cause => return .error cause
    | .ok () => validateConditions cs

/-- The first problem of an endpoint: a blank name, no conditions, or an invalid condition. -/
def validate (e : Endpoint) : Except Abort (Except Error Unit) :=
  if Text.trim e.name = [] then return .error .namelessEndpoint
  else if e.conditions = [] then return .error (.noConditions e.name)
  else validateConditions e.conditions

/-! ## Evaluation -/

/-- Evaluates conditions in order. The probe result fails with the first that fails. -/
def evaluateConditions (d : Display) (context : Option Context) :
    List Condition → Probe → Except Abort Probe
  | [], p => return p
  | c :: cs, p => do
    let (p, holds) ← c.evaluate d context p
    evaluateConditions d context cs { p with success := p.success && holds }

/-- What a hidden hostname is replaced by in errors. -/
def redacted : Text := "<redacted>".toList

/-- Hides the hostname of a probe result, in its errors too. -/
def hideHostname (p : Probe) : Probe :=
  if p.hostname = [] then p
  else { p with errors := p.errors.map (Text.replace p.hostname redacted), hostname := [] }

/-- Hides what the settings hide. -/
def redact (ui : UiSettings) (p : Probe) : Probe :=
  let p := if ui.hideHostname then hideHostname p else p
  let p := if ui.hideErrors then { p with errors := [] } else p
  if ui.hideConditions then { p with conditionOutcomes := [] } else p

/-- The recorded probe result with every condition evaluated on it, before redaction. -/
def evaluateOpenly (e : Endpoint) (context : Option Context) : Except Abort Probe :=
  evaluateConditions e.ui.display context e.conditions
    { e.result with conditionOutcomes := [], success := e.result.errors.isEmpty }

/-- The outcome of an endpoint at a point in time. -/
def evaluateHealth (e : Endpoint) (now : Timestamp) (context : Option Context) :
    Except Abort Probe := do
  let p ← e.evaluateOpenly context
  return redact e.ui { p with timestamp := some now }

end Endpoint

end HealthCheck
