import HealthCheck.Proofs.Endpoint.Redaction
import HealthCheck.Proofs.Suite.Run

/-!
# What the mappings of a step come to

Mappings read what the probe observed, which neither evaluation nor redaction changes, so what they
capture and whether they fail is settled by the recorded probe result. A failure does not depend on
the context either (`Capture.failure?`), and there is none exactly when every key is there and every
value can be captured. With this `Suite.stepResult_eq` describes a step as a whole.
-/

namespace HealthCheck

/-! ## Failures -/

namespace Capture

variable {p q : Probe}

/-- Mappings fail alike in every context. -/
theorem outcome_applyFrom (p : Probe) (mappings : List (Text × Text)) (c c' : Context)
    (stored : Fields Json) (failures : List Error) :
    (applyFrom p mappings c stored failures).outcome =
      (applyFrom p mappings c' stored failures).outcome := by
  induction mappings generalizing c c' stored failures with
  | nil => rfl
  | cons m rest ih =>
    simp only [applyFrom]
    cases value? m.2 p with
    | error e => exact ih c c' stored _
    | ok v =>
      by_cases hkey : m.1 = []
      · simp only [Context.set, if_pos hkey]
      · simp only [Context.set, if_neg hkey]
        exact ih _ _ _ failures

/-- What goes wrong with mappings, if anything. -/
def failure? (mappings : StoreMappings) (p : Probe) : Option Error :=
  match (apply mappings p []).outcome with
  | .ok _ => none
  | .error cause => some cause

/-- Whether mappings fail is a matter of what was observed. -/
theorem failure?_of_sameObservations (h : p.SameObservations q) (mappings : StoreMappings) :
    failure? mappings p = failure? mappings q := by
  rw [failure?, h.apply_eq, failure?]

/-- Whether something goes wrong can be seen in any context. -/
theorem failure?_eq (mappings : StoreMappings) (p : Probe) (c : Context) :
    failure? mappings p =
      match (apply mappings p c).outcome with
      | .ok _ => none
      | .error cause => some cause := by
  unfold failure? apply
  rw [outcome_applyFrom p mappings.entries [] c]

/-- A mapping is applied: it has a key and its value can be captured. -/
def Applies (p : Probe) (m : Text × Text) : Prop := m.1 ≠ [] ∧ ∃ v, value? m.2 p = .ok v

/-- Mappings succeed exactly if nothing has failed before and each of them applies. -/
theorem exists_ok_applyFrom_iff {mappings : List (Text × Text)} {c : Context}
    {stored : Fields Json} {failures : List Error} :
    (∃ fields, (applyFrom p mappings c stored failures).outcome = .ok fields) ↔
      failures = [] ∧ ∀ m ∈ mappings, Applies p m := by
  induction mappings generalizing c stored failures with
  | nil =>
    by_cases h : failures = [] <;> simp [applyFrom, h]
  | cons m rest ih =>
    simp only [applyFrom, List.forall_mem_cons, Applies]
    cases value? m.2 p with
    | error e => simp [ih]
    | ok v =>
      by_cases hkey : m.1 = []
      · simp [Context.set, hkey]
      · simp [Context.set, hkey, ih, Applies]

/-- Nothing goes wrong exactly when every mapping is applied. -/
theorem failure?_eq_none_iff {mappings : StoreMappings} :
    failure? mappings p = none ↔ ∀ m ∈ mappings.entries, Applies p m := by
  have hok : failure? mappings p = none ↔
      ∃ fields, (applyFrom p mappings.entries [] [] []).outcome = .ok fields := by
    unfold failure? apply
    cases (applyFrom p mappings.entries [] [] []).outcome <;> simp
  rw [hok, exists_ok_applyFrom_iff]
  simp

end Capture

/-! ## Steps -/

namespace Suite

/-- The error that a failure of its mappings leaves on a step. -/
def storeFailure (cause : Error) : Text := "failed to store values: ".toList ++ cause.message

/-- What the probe observed is what the mappings of a step see. -/
theorem sameObservations_stepProbe (now : Timestamp) (c : Context) (e : Endpoint) :
    (stepProbe now c e).SameObservations e.result := by
  intro ph
  have h := e.sameObservations_healthResult now (some c) ph
  cases ph <;> exact h

/-- **One step.** Its result is the redacted one, with one more error where its mappings fail, and
the context is what the mappings make of it. -/
theorem stepResult_eq (now : Timestamp) (c : Context) (e : Endpoint) :
    stepResult now c e =
      (match Capture.failure? e.store e.result with
        | none => stepProbe now c e
        | some cause => (stepProbe now c e).addError (storeFailure cause),
      (Capture.apply e.store e.result c).context) := by
  have hsame := sameObservations_stepProbe now c e
  unfold stepResult
  refine Prod.ext ?_ ?_
  · rw [← Capture.failure?_of_sameObservations hsame, Capture.failure?_eq _ _ c]
    dsimp only
    cases (Capture.apply e.store (stepProbe now c e) c).outcome <;> rfl
  · dsimp only
    rw [hsame.apply_eq]

/-- Beside its errors, the result of a step is what redaction left. -/
theorem exists_errors_stepResult (now : Timestamp) (c : Context) (e : Endpoint) :
    ∃ errors, (stepResult now c e).1 = { stepProbe now c e with errors := errors } := by
  rw [stepResult_eq]
  cases Capture.failure? e.store e.result with
  | none => exact ⟨_, rfl⟩
  | some cause => exact ⟨_, Probe.addError_eq _ _⟩

/-- The errors of a step are those of the redacted result and the failure of its mappings. -/
theorem mem_errors_stepResult {now : Timestamp} {c : Context} {e : Endpoint} {error : Text} :
    error ∈ (stepResult now c e).1.errors ↔
      error ∈ (stepProbe now c e).errors ∨
        ∃ cause, Capture.failure? e.store e.result = some cause ∧ error = storeFailure cause := by
  rw [stepResult_eq]
  cases Capture.failure? e.store e.result with
  | none => simp
  | some cause =>
    dsimp only
    rw [Probe.addError_eq]
    by_cases hmem : storeFailure cause ∈ (stepProbe now c e).errors
    · simp only [if_pos hmem, Option.some.injEq, exists_eq_left', iff_self_or]
      rintro rfl
      exact hmem
    · simp [if_neg hmem]

end Suite

end HealthCheck
