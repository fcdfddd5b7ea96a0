import HealthCheck.Text.Utf8
import HealthCheck.Timestamp

/-!
# Probe results

What a probe observed about an endpoint, together with the outcome of evaluating conditions on it.
Errors are kept without duplicates and condition outcomes in the order of evaluation; both lists
only grow while conditions are evaluated.
-/

namespace HealthCheck

/-- The outcome of one condition. Its text may show what the operands resolved to. -/
structure ConditionOutcome where
  condition : Text
  success : Bool
deriving DecidableEq, Repr

/-- A probe result. Durations are in milliseconds. -/
structure Probe where
  name : Text := []
  status : UInt16 := 0
  hostname : Text := []
  ip : Text := []
  dnsRcode : Text := []
  connected : Bool := false
  duration : UInt64 := 0
  certificateExpiration : UInt64 := 0
  domainExpiration : UInt64 := 0
  body : Bytes := []
  errors : List Text := []
  conditionOutcomes : List ConditionOutcome := []
  success : Bool := false
  timestamp : Option Timestamp := none
deriving DecidableEq

namespace Probe

/-- The text of the body; bytes that are no characters show as U+FFFD. -/
def bodyText (p : Probe) : Text := Utf8.decodeLossy p.body

/-- Records an error unless the same message is recorded already. -/
def addError (p : Probe) (message : Text) : Probe :=
  if message ∈ p.errors then p else { p with errors := p.errors ++ [message] }

/-- Appends the outcome of a condition. -/
def addOutcome (p : Probe) (outcome : ConditionOutcome) : Probe :=
  { p with conditionOutcomes := p.conditionOutcomes ++ [outcome] }

/-- Recording an error changes nothing but the errors. -/
theorem addError_eq (p : Probe) (message : Text) :
    p.addError message =
      { p with errors := if message ∈ p.errors then p.errors else p.errors ++ [message] } := by
  unfold addError
  split <;> rfl

end Probe

end HealthCheck
