import HealthCheck.Endpoint

/-!
# Suites

The steps of a suite run in order and share a context. What a step's store mappings capture from its
result is visible to the conditions of every later step. Once a step fails, later steps are skipped
unless they always run; the mappings of a step apply whether it passed or not.
-/

namespace HealthCheck

/-- A suite. -/
structure Suite where
  name : Text
  /-- The values that the context starts with. -/
  context : Context := []
  endpoints : List Endpoint := []

/-- The outcome of a suite. -/
structure SuiteResult where
  name : Text
  success : Bool
  timestamp : Option Timestamp
  /-- The results of the steps that ran, in order. -/
  endpointResults : List Probe
  /-- The context after the last step. -/
  context : Context

/-! ## Capturing values -/

namespace Capture

/-- The texts that are captured as truth values. -/
def truth? (t : Text) : Option Bool :=
  if t.isOneOf ["t", "T", "true", "TRUE", "True"] then some true
  else if t.isOneOf ["f", "F", "false", "FALSE", "False"] then some false
  else none

/-- A text as a value: an integer, a number, a truth value, or else the text. -/
def typed (t : Text) : Json :=
  match Integer.decimal? t with
  | some n => .int n
  | none =>
    match Reading.finite? t with
    | some x => .number (.binary x)
    | none =>
      match truth? t with
      | some b => .bool b
      | none => .string t

/-- The value that an operand has on a probe result. A text that ends with the mark of a failed
lookup is refused. -/
def value? (operand : Text) (p : Probe) : Except Error Json :=
  let t := (Operand.resolve operand p none).text
  match Text.before? (' ' :: Resolution.mark) t with
  | some path => .error (.invalidStorePath path)
  | none => .ok (typed t)

/-- What becomes of mappings: the context after them, and the captured values in order or what went
wrong. -/
structure Captured where
  context : Context
  outcome : Except Error (Fields Json)

/-- Applies mappings in order. A value that cannot be captured is a failure and leaves the others
alone; an empty key ends the work at once. -/
def applyFrom (p : Probe) :
    List (Text × Text) → Context → Fields Json → List Error → Captured
  | [], context, stored, failures =>
    ⟨context, if failures = [] then .ok stored else .error (.several failures)⟩
  | (key, operand) :: rest, context, stored, failures =>
    match value? operand p with
    | .ok v =>
      match context.set key v with
      | .ok context => applyFrom p rest context (stored ++ [(key, v)]) failures
      | .error e => ⟨context, .error e⟩
    | .error e => applyFrom p rest context stored (failures ++ [.notCaptured key e])

/-- Captures the values of mappings into a context. -/
def apply (mappings : StoreMappings) (p : Probe) (context : Context) : Captured :=
  applyFrom p mappings.entries context [] []

end Capture

namespace Suite

/-! ## Validation -/

/-- The first problem of steps, given the names of the steps before them. -/
def validateSteps (suite : Text) :
    (seen : List Text) → List Endpoint → Except Abort (Except Error Unit)
  | _, [] => return .ok ()
  | seen, e :: es => do
    if e.name ∈ seen then return .error (.duplicateStep suite e.name)
    else
      match ← e.validate with
      | .error cause => return .error (.invalidStep suite e.name cause)
      | .ok () => validateSteps suite (e.name :: seen) es

/-- The first problem of a suite: a blank name, no steps, or a step that is invalid or has the name
of one before it. -/
def validate (s : Suite) : Except Abort (Except Error Unit) :=
  if Text.trim s.name = [] then return .error .namelessSuite
  else if s.endpoints.isEmpty then return .error (.noSteps s.name)
  else validateSteps s.name [] s.endpoints

/-! ## Running -/

/-- How far a run is. -/
structure Progress where
  /-- Some step has failed. -/
  failed : Bool
  context : Context
  /-- The results of the steps that ran, in order. -/
  results : List Probe

/-- The step runs at this point. -/
def Progress.runs (r : Progress) (e : Endpoint) : Bool := !r.failed || e.alwaysRun

/-- The result of a step in a context, and the context after its mappings. -/
def runStep (now : Timestamp) (context : Context) (e : Endpoint) :
    Except Abort (Probe × Context) := do
  let p ← e.evaluateHealth now (some context)
  let p := { p with name := e.name }
  let captured := Capture.apply e.store p context
  match captured.outcome with
  | .ok _ => return (p, captured.context)
  | .error cause =>
    return (p.addError ("failed to store values: ".toList ++ cause.message), captured.context)

/-- Runs a step, or skips it. -/
def Progress.advance (now : Timestamp) (r : Progress) (e : Endpoint) : Except Abort Progress := do
  if r.runs e then
    let (p, context) ← runStep now r.context e
    return ⟨r.failed || !p.success, context, r.results ++ [p]⟩
  else return r

/-- Runs all steps. -/
def progress (s : Suite) (now : Timestamp) : Except Abort Progress :=
  s.endpoints.foldlM (Progress.advance now) ⟨false, s.context, []⟩

/-- The outcome of a suite that starts at a point in time. -/
def execute (s : Suite) (now : Timestamp) : Except Abort SuiteResult := do
  let r ← s.progress now
  return ⟨s.name, !r.failed, some now, r.results, r.context⟩

end Suite

end HealthCheck
