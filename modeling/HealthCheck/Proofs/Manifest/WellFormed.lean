import HealthCheck.Proofs.Condition.Grammar
import HealthCheck.Proofs.Manifest.Validation

/-!
# Well-formed manifests

What a manifest has to be, said of its parts and without reference to how it is checked: names that
are not blank, names that tell apart what stands side by side, and nothing that would come to
nothing, be it an endpoint without conditions or a condition without an operator. Checking accepts
these manifests and no others, except that it stops at one with a condition that stops as it is
written (`Manifest.validate_accepts_wellFormed`).
-/

namespace HealthCheck

/-- The condition is cut at an operator. -/
def Condition.Splits (c : Condition) : Prop := ∃ o first second, c.split = some (o, first, second)

/-- What an endpoint or step has to be. -/
structure Endpoint.WellFormed (e : Endpoint) : Prop where
  named : ¬ Text.AllBlank e.name
  conditions : e.conditions ≠ []
  splits : ∀ c ∈ e.conditions, c.Splits

/-- What a suite has to be. -/
structure Suite.WellFormed (s : Suite) : Prop where
  named : ¬ Text.AllBlank s.name
  steps : s.endpoints ≠ []
  stepNames : (s.endpoints.map Endpoint.name).Nodup
  wellFormed : ∀ e ∈ s.endpoints, e.WellFormed

/-- What a manifest has to be. -/
structure Manifest.WellFormed (m : Manifest) : Prop where
  filled : m.endpoints ≠ [] ∨ m.suites ≠ []
  endpointNames : (m.endpoints.map Endpoint.name).Nodup
  suiteNames : (m.suites.map Suite.name).Nodup
  endpoints : ∀ e ∈ m.endpoints, e.WellFormed
  suites : ∀ s ∈ m.suites, s.WellFormed

namespace Condition

theorem isSome_split_iff {c : Condition} : c.split.isSome = true ↔ c.Splits := by
  rw [Option.isSome_iff_exists, Splits]
  simp only [Prod.exists]

/-- A condition is cut exactly where an operator stands between single spaces. -/
theorem splits_iff {c : Condition} : c.Splits ↔ ∃ o : Operator, o.separator <:+: c.text := by
  have hnone : c.split = none ↔ ∀ o : Operator, ¬ o.separator <:+: c.text := by
    rw [split_eq_none_iff]
    refine forall_congr' fun o => ?_
    rw [Text.mem_innerWords_iff o.space_notMem_symbol]
    rfl
  rw [← isSome_split_iff, Option.isSome_iff_ne_none, ne_eq, hnone, not_forall]
  simp only [not_not]

end Condition

/-- Endpoints without faults are those that are as they have to be. -/
theorem Endpoint.faults_eq_nil_iff_wellFormed {e : Endpoint} : e.faults = [] ↔ e.WellFormed := by
  rw [faults_eq_nil_iff]
  simp only [Condition.isSome_split_iff]
  constructor
  · rintro ⟨hname, hconditions, hsplits⟩
    exact ⟨hname, hconditions, hsplits⟩
  · intro h
    exact ⟨h.named, h.conditions, h.splits⟩

/-- Suites without faults are those that are as they have to be. -/
theorem Suite.faults_eq_nil_iff_wellFormed {s : Suite} : s.faults = [] ↔ s.WellFormed := by
  rw [faults_eq_nil_iff]
  simp only [Endpoint.faults_eq_nil_iff_wellFormed]
  constructor
  · rintro ⟨hname, hsteps, hnames, hwellFormed⟩
    exact ⟨hname, hsteps, hnames, hwellFormed⟩
  · intro h
    exact ⟨h.named, h.steps, h.stepNames, h.wellFormed⟩

namespace Manifest

/-- A manifest is as it has to be where there is something to be evaluated and nothing wrong. -/
theorem wellFormed_iff {m : Manifest} : m.WellFormed ↔ m.Filled ∧ m.firstFaults = [] := by
  rw [firstFaults_eq_nil_iff]
  simp only [Endpoint.faults_eq_nil_iff_wellFormed, Suite.faults_eq_nil_iff_wellFormed]
  constructor
  · intro h
    exact ⟨h.filled, ⟨h.endpointNames, h.endpoints⟩, h.suiteNames, h.suites⟩
  · rintro ⟨hfilled, ⟨hendpointNames, hendpoints⟩, hsuiteNames, hsuites⟩
    exact ⟨hfilled, hendpointNames, hsuiteNames, hendpoints, hsuites⟩

/-- **Valid manifests.** Checking accepts exactly the well-formed manifests of which no condition
stops as it is written, and has no result for the other well-formed ones. A condition meets what
well-formedness asks of it exactly when an operator stands in it between single spaces. -/
theorem validate_accepts_wellFormed (m : Manifest) :
    (m.validate = .ok (.ok ()) ↔
      m.WellFormed ∧ ∀ e, m.Contains e → ∀ c ∈ e.conditions, ¬ c.OverflowsAsWritten) ∧
    (m.WellFormed → (∃ e, m.Contains e ∧ ∃ c ∈ e.conditions, c.OverflowsAsWritten) →
      m.validate = .error .overflow) ∧
    ∀ c : Condition, c.Splits ↔ ∃ o : Operator, o.separator <:+: c.text := by
  refine ⟨?_, fun hm hover => ?_, fun c => Condition.splits_iff⟩
  · rw [validate_eq_ok_iff, wellFormed_iff, and_assoc, and_comm (a := ¬ m.CheckStops)]
    refine and_congr_right fun _ => and_congr_right fun hfaults => ?_
    rw [checkStops_iff hfaults]
    push Not
    rfl
  · obtain ⟨-, hfaults⟩ := wellFormed_iff.1 hm
    exact validate_eq_overflow_iff.2 ((checkStops_iff hfaults).2 hover)

/-- A manifest of one endpoint with a condition on a literal in which a component overflows. -/
def marginManifest : Manifest where
  endpoints := [{
    name := "margin".toList
    conditions := [⟨"1 < ".toList ++ Duration.widestMicros⟩]
    store := ⟨[], List.nodup_nil⟩ }]

theorem wellFormed_marginManifest : marginManifest.WellFormed := by
  rw [wellFormed_iff]
  exact ⟨Or.inl (List.cons_ne_nil _ _), by decide +kernel⟩

theorem marginManifest_overflows :
    ∃ e, marginManifest.Contains e ∧ ∃ c ∈ e.conditions, c.OverflowsAsWritten :=
  ⟨_, Or.inl List.mem_cons_self, _, List.mem_cons_self, by decide +kernel⟩

/-- One well-formed manifest is accepted, and the check of another one stops. -/
theorem tokenManifest_is_accepted :
    (tokenManifest.WellFormed ∧ tokenManifest.validate = .ok (.ok ())) ∧
      (marginManifest.WellFormed ∧
        (∃ e, marginManifest.Contains e ∧ ∃ c ∈ e.conditions, c.OverflowsAsWritten) ∧
        marginManifest.validate = .error .overflow) := by
  obtain ⟨haccepts, -⟩ := validate_accepts_wellFormed tokenManifest
  obtain ⟨-, hstops, -⟩ := validate_accepts_wellFormed marginManifest
  have hvalid : tokenManifest.validate = .ok (.ok ()) := rfl
  exact ⟨⟨(haccepts.1 hvalid).1, hvalid⟩, wellFormed_marginManifest, marginManifest_overflows,
    hstops wellFormed_marginManifest marginManifest_overflows⟩

/-- A well-formed manifest that is neither accepted nor rejected. -/
theorem wellFormed_manifest_stops :
    marginManifest.WellFormed ∧ ∀ r, marginManifest.validate ≠ .ok r := by
  obtain ⟨-, hfaults⟩ := wellFormed_iff.1 wellFormed_marginManifest
  refine ⟨wellFormed_marginManifest, fun r hr => ?_⟩
  rw [validate_eq_overflow_iff.2 ((checkStops_iff hfaults).2 marginManifest_overflows)] at hr
  cases hr

end Manifest

end HealthCheck
