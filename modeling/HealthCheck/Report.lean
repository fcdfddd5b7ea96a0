import HealthCheck.Manifest

/-!
# Reports

The outcome of evaluating a whole manifest: a result for every endpoint, a result for every suite,
and whether all of them are good.
-/

namespace HealthCheck

/-- The outcome of a manifest. -/
structure Report where
  success : Bool
  /-- The results of the endpoints, each under its endpoint's name. -/
  endpoints : List Probe
  suites : List SuiteResult

/-- The result of an endpoint that stands alone. -/
def Endpoint.outcome (now : Timestamp) (e : Endpoint) : Except Abort Probe := do
  return { ← e.evaluateHealth now none with name := e.name }

/-- Evaluates a manifest at a point in time. -/
def Manifest.evaluate (m : Manifest) (now : Timestamp) : Except Abort Report := do
  let endpoints ← m.endpoints.mapM (Endpoint.outcome now)
  let suites ← m.suites.mapM (Suite.execute · now)
  return ⟨endpoints.all (·.success) && suites.all (·.success), endpoints, suites⟩

end HealthCheck
