import HealthCheck.Proofs.Suite.Capture
import HealthCheck.Proofs.Suite.DataFlow

/-!
# Redaction in the results of a run

A step is redacted before its mappings are applied, and what goes wrong with them is recorded
afterwards. So the settings of a step hold of all that it records except for that one error:
hidden errors show it, and it may have a hidden hostname in it, which can stand in a key or an
operand of the mappings or in a captured text. The settings hold of the final result exactly when
the mappings have no such failure.
-/

namespace HealthCheck.Suite

variable {now : Timestamp} {c : Context} {e : Endpoint}

theorem errors_stepProbe_of_hideErrors (h : e.ui.hideErrors = true) :
    (stepProbe now c e).errors = [] :=
  Endpoint.errors_redact_of_hideErrors h _

/-- Where the host name is hidden, the result of a step has none. -/
theorem hostname_stepResult_of_hideHostname (h : e.ui.hideHostname = true) :
    (stepResult now c e).1.hostname = [] := by
  obtain ⟨errors, hstep⟩ := exists_errors_stepResult now c e
  rw [hstep]
  exact Endpoint.hostname_redact_of_hideHostname h _

/-- A hidden hostname is in none of the errors that were there before the mappings. -/
theorem not_infix_of_mem_errors_stepProbe (h : e.ui.hideHostname = true)
    (hhost : Endpoint.Scrubbable e.result.hostname) {error : Text}
    (herror : error ∈ (stepProbe now c e).errors) : ¬ e.result.hostname <:+: error :=
  Endpoint.not_infix_of_mem_errors_healthResult h hhost herror

/-- **Redaction in a run.** The result of a step that hides errors has none exactly when all its
mappings are applied. The result of a step that hides a hostname has no hostname, and none of its
errors has the hostname in it exactly when the failure of its mappings has not. -/
theorem redaction_holds_iff {s : Suite} {i : Nat} {p : Probe} (he : s.endpoints[i]? = some e)
    (hp : s.resultAt? now i = some p) :
    (p.name = e.name ∧ ∀ r, s.execute now = .ok r → p ∈ r.endpointResults) ∧
    (e.ui.hideErrors = true →
      (p.errors = [] ↔ ∀ m ∈ e.store.entries, Capture.Applies e.result m)) ∧
    (e.ui.hideHostname = true → Endpoint.Scrubbable e.result.hostname →
      p.hostname = [] ∧
        ((∀ error ∈ p.errors, ¬ e.result.hostname <:+: error) ↔
          ∀ cause, Capture.failure? e.store e.result = some cause →
            ¬ e.result.hostname <:+: storeFailure cause)) := by
  have hentry : ∀ r, s.execute now = .ok r → p ∈ r.endpointResults := by
    intro r hr
    obtain ⟨last, hlast, rfl⟩ := execute_eq_ok_iff.1 hr
    have hi : i < s.endpoints.length := (List.getElem?_eq_some_iff.1 he).1
    show p ∈ last.results
    rw [results_progressBefore hlast (Nat.le_refl _)]
    exact List.mem_filterMap.2 ⟨i, List.mem_range.2 hi, hp⟩
  obtain ⟨before, e', -, he', -, -, rfl⟩ := resultAt?_eq_some_iff.1 hp
  obtain rfl : e' = e := Option.some.inj (he'.symm.trans he)
  refine ⟨⟨name_stepResult now before.context e', hentry⟩, fun hhide => ?_,
    fun hhide hhost => ⟨?_, ?_⟩⟩
  · rw [← Capture.failure?_eq_none_iff, List.eq_nil_iff_forall_not_mem]
    simp only [mem_errors_stepResult, errors_stepProbe_of_hideErrors hhide, List.not_mem_nil,
      false_or]
    constructor
    · intro hnone
      cases hfailure : Capture.failure? e'.store e'.result with
      | none => rfl
      | some cause => exact absurd ⟨cause, hfailure, rfl⟩ (hnone (storeFailure cause))
    · rintro hnone error ⟨cause, hfailure, -⟩
      rw [hnone] at hfailure
      exact absurd hfailure (by simp)
  · exact hostname_stepResult_of_hideHostname hhide
  · constructor
    · intro hclean cause hfailure
      exact hclean _ (mem_errors_stepResult.2 (Or.inr ⟨cause, hfailure, rfl⟩))
    · intro hfailure error herror
      rcases mem_errors_stepResult.1 herror with hstep | ⟨cause, hcause, rfl⟩
      · exact not_infix_of_mem_errors_stepProbe hhide hhost hstep
      · exact hfailure cause hcause

/-- A step that hides its errors and its hostname, and captures under the hostname what its body
does not have. -/
def hidingStep : Endpoint where
  name := "token".toList
  conditions := [⟨"[STATUS] == 200".toList⟩]
  ui := { hideErrors := true, hideHostname := true }
  store := ⟨[("api.example.org".toList, "[BODY].token".toList)], by decide⟩
  result := { status := 200, hostname := "api.example.org".toList }

/-- A suite of one such step. -/
def hidingSuite : Suite where
  name := "hiding".toList
  endpoints := [hidingStep]

theorem scrubbable_hidingStep : Endpoint.Scrubbable hidingStep.result.hostname :=
  ⟨by decide, by decide, by decide, by decide⟩

/-- What the settings of the step come to is settled by the failure of its mapping. -/
theorem hidingStep_redaction :
    hidingSuite.endpoints[0]? = some hidingStep ∧ hidingStep.ui.hideErrors = true ∧
      hidingStep.ui.hideHostname = true ∧ Endpoint.Scrubbable hidingStep.result.hostname ∧
      ∃ p, hidingSuite.resultAt? sessionStart 0 = some p ∧
        (p.errors = [] ↔ ∀ m ∈ hidingStep.store.entries, Capture.Applies hidingStep.result m) ∧
        p.hostname = [] ∧
        ((∀ error ∈ p.errors, ¬ hidingStep.result.hostname <:+: error) ↔
          ∀ cause, Capture.failure? hidingStep.store hidingStep.result = some cause →
            ¬ hidingStep.result.hostname <:+: storeFailure cause) := by
  have hran : (hidingSuite.resultAt? sessionStart 0).isSome = true := by decide +kernel
  obtain ⟨p, hp⟩ := Option.isSome_iff_exists.1 hran
  obtain ⟨-, herrors, hhostname⟩ := redaction_holds_iff (e := hidingStep) rfl hp
  obtain ⟨hgone, hleft⟩ := hhostname rfl scrubbable_hidingStep
  exact ⟨rfl, rfl, rfl, scrubbable_hidingStep, p, hp, herrors rfl, hgone, hleft⟩

/-- The failure of a mapping is recorded past redaction: it shows although errors are hidden, and
so does the hidden hostname in it. -/
theorem store_failures_escape_redaction :
    hidingStep.ui.hideErrors = true ∧ hidingStep.ui.hideHostname = true ∧
      Endpoint.Scrubbable hidingStep.result.hostname ∧
      ∃ p r, hidingSuite.resultAt? sessionStart 0 = some p ∧
        hidingSuite.execute sessionStart = .ok r ∧ p ∈ r.endpointResults ∧ p.errors ≠ [] ∧
        ∃ error ∈ p.errors, hidingStep.result.hostname <:+: error := by
  refine ⟨rfl, rfl, scrubbable_hidingStep, _, _, rfl, rfl, List.mem_cons_self, by decide +kernel,
    "failed to store values: api.example.org: invalid path: [BODY].token".toList, ?_, ?_⟩
  · decide +kernel
  · decide +kernel

end HealthCheck.Suite
