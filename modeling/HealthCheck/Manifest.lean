import HealthCheck.Suite

/-!
# Manifests

Everything that one run evaluates: endpoints that stand alone and suites of several steps. A
manifest is checked as a whole, so that the problems of one endpoint or suite do not hide those of
another.
-/

namespace HealthCheck

/-- A manifest. -/
structure Manifest where
  endpoints : List Endpoint := []
  suites : List Suite := []

namespace Manifest

/-- The error of a check, if there is one. -/
def problem : Except Error Unit → List Error
  | .ok () => []
  | .error e => [e]

/-- The problems of endpoints, given the names before them: a repeated name, then the endpoint's own
first problem. -/
def endpointProblems : (seen : List Text) → List Endpoint → Except Abort (List Error)
  | _, [] => return []
  | seen, e :: es => do
    let own := problem (← e.validate)
    let others ← endpointProblems (e.name :: seen) es
    return (if e.name ∈ seen then [.duplicateEndpoint e.name] else []) ++ own ++ others

/-- The problems of suites, given the names before them: a repeated name, then the suite's own first
problem. -/
def suiteProblems : (seen : List Text) → List Suite → Except Abort (List Error)
  | _, [] => return []
  | seen, s :: ss => do
    let own := problem (← s.validate)
    let others ← suiteProblems (s.name :: seen) ss
    return (if s.name ∈ seen then [.duplicateSuite s.name] else []) ++ own ++ others

/-- The problems of the endpoints and the suites, in order. -/
def problems (m : Manifest) : Except Abort (List Error) := do
  return (← endpointProblems [] m.endpoints) ++ (← suiteProblems [] m.suites)

/-- What problems make of a check. A single problem stands for itself. -/
def verdict : List Error → Except Error Unit
  | [] => .ok ()
  | [e] => .error e
  | es => .error (.several es)

/-- Checks a manifest. -/
def validate (m : Manifest) : Except Abort (Except Error Unit) := do
  if m.endpoints.isEmpty && m.suites.isEmpty then return .error .emptyManifest
  else return verdict (← m.problems)

/-- The number of conditions of all endpoints and steps. -/
def conditionCount (m : Manifest) : Nat :=
  ((m.endpoints ++ m.suites.flatMap (·.endpoints)).flatMap (·.conditions)).length

end Manifest

end HealthCheck
