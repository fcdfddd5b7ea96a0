/-!
# Runs that stop midway

A sum that does not fit into its machine word has no value. The run stops there, without a result,
and nothing that was to come is done; this is neither a refusal nor an error that somebody reports.
`Except Abort` is the type of what may stop in this way.
-/

namespace HealthCheck

/-- Why a run stops midway. -/
inductive Abort where
  /-- A sum does not fit into the machine word that it is kept in. -/
  | overflow
deriving DecidableEq, Repr

end HealthCheck
