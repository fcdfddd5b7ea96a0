import HealthCheck.Record.Manifest
import HealthCheck.Report

/-!
# Reports as JSON

A report as a record. Endpoints and suites are left out where there are none.
-/

namespace HealthCheck

open Record

/-- Writes a report. -/
def Report.toJson (r : Report) : Json :=
  .object <|
    [("success".toList, .bool r.success)] ++
    unlessEmpty "endpoints".toList r.endpoints (.array (r.endpoints.map Probe.toJson)) ++
    unlessEmpty "suites".toList r.suites (.array (r.suites.map SuiteResult.toJson))

end HealthCheck
