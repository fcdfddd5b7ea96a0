import HealthCheck.Proofs.Suite.Capture
import HealthCheck.Proofs.Suite.DataFlow

/-!
# The settings of steps and the outcome of a run

Two suites that differ only in the settings of their steps run alike: the same steps run, with the
same verdicts, and the context is the same at every point, because neither conditions nor mappings
see what the settings change. Their results agree on all fields but the hostname, the errors and the
outcomes of conditions (`Probe.beyondUi`). Where two steps also hide the same, their errors agree
and their outcomes differ in wording only.
-/

namespace HealthCheck

/-! ## What the settings may change -/

/-- The result without the fields that settings or the point in time may change. -/
def Probe.beyondUi (p : Probe) : Probe :=
  { p with hostname := [], errors := [], conditionOutcomes := [], timestamp := none }

/-- The endpoint with default settings. -/
def Endpoint.withoutUi (e : Endpoint) : Endpoint := { e with ui := {} }

/-- Two settings hide the same. -/
structure UiSettings.HideAlike (ui ui' : UiSettings) : Prop where
  hostname : ui.hideHostname = ui'.hideHostname
  errors : ui.hideErrors = ui'.hideErrors
  conditions : ui.hideConditions = ui'.hideConditions

/-- Two suites differ only in the settings of their steps. -/
structure Suite.SameButUi (s s' : Suite) : Prop where
  name : s.name = s'.name
  context : s.context = s'.context
  endpoints : s.endpoints.map Endpoint.withoutUi = s'.endpoints.map Endpoint.withoutUi

namespace Suite

/-! ## One step -/

section Step

variable {e e' : Endpoint} (now now' : Timestamp) (c : Context)

/-- The fields that settings do not change, in terms of the endpoint without them. -/
theorem beyondUi_stepProbe (e : Endpoint) :
    (stepProbe now c e).beyondUi =
      { e.result.beyondUi with
        name := e.name
        success := e.result.errors.isEmpty && e.conditions.all (·.holds (some c) e.result) } := by
  unfold stepProbe
  rw [Endpoint.healthResult, Endpoint.redact_eq]
  rfl

/-- What is recorded as errors before the mappings, in terms of what the settings hide. -/
theorem errors_stepProbe (e : Endpoint) :
    (stepProbe now c e).errors =
      let errors := e.conditions.foldl Condition.recordRejection e.result.errors
      if e.ui.hideErrors then []
      else if e.ui.hideHostname then errors.map (Endpoint.scrub e.result.hostname)
      else errors := by
  unfold stepProbe
  rw [Endpoint.healthResult, Endpoint.redact_eq]
  rfl

/-- Which conditions hold is shown whatever the wording, unless the settings hide it. -/
theorem successes_stepProbe (e : Endpoint) :
    (stepProbe now c e).conditionOutcomes.map ConditionOutcome.success =
      if e.ui.hideConditions then []
      else e.conditions.filterMap fun condition =>
        (condition.exactOutcome {} (some c) e.result).map ConditionOutcome.success := by
  unfold stepProbe
  rw [Endpoint.healthResult, Endpoint.redact_eq, Endpoint.openResult]
  dsimp only
  cases e.ui.hideConditions with
  | true => rfl
  | false =>
    simp only [Bool.false_eq_true, if_false, List.map_filterMap]
    congr 1
    funext condition
    exact condition.success_exactOutcome e.ui.display {} (some c) e.result

/-- Mappings do not change what settings have no say in. -/
theorem beyondUi_stepResult (e : Endpoint) :
    (stepResult now c e).1.beyondUi = (stepProbe now c e).beyondUi := by
  obtain ⟨errors, hstep⟩ := exists_errors_stepResult now c e
  rw [hstep]
  rfl

theorem conditionOutcomes_stepResult (e : Endpoint) :
    (stepResult now c e).1.conditionOutcomes = (stepProbe now c e).conditionOutcomes := by
  obtain ⟨errors, hstep⟩ := exists_errors_stepResult now c e
  rw [hstep]

/-- Two steps that differ in their settings only stop alike. -/
theorem overflows_of_withoutUi (h : e.withoutUi = e'.withoutUi) :
    e.Overflows (some c) ↔ e'.Overflows (some c) := by
  obtain ⟨-, hconditions, -, -, -, hresult⟩ := Endpoint.mk.inj h
  rw [Endpoint.Overflows, Endpoint.Overflows, hconditions, hresult]

/-- Two steps that differ in their settings only leave the same context, and their results agree
beyond them. -/
theorem stepResult_of_withoutUi (h : e.withoutUi = e'.withoutUi) :
    (stepResult now c e).1.beyondUi = (stepResult now' c e').1.beyondUi ∧
      (stepResult now c e).2 = (stepResult now' c e').2 := by
  obtain ⟨hname, hconditions, -, hstore, -, hresult⟩ := Endpoint.mk.inj h
  constructor
  · rw [beyondUi_stepResult, beyondUi_stepResult, beyondUi_stepProbe, beyondUi_stepProbe, hname,
      hconditions, hresult]
  · rw [stepResult_eq, stepResult_eq, hstore, hresult]

/-- Where two such steps hide the same, their errors agree and their outcomes differ in wording
only. -/
theorem stepResult_of_hideAlike (h : e.withoutUi = e'.withoutUi) (hui : e.ui.HideAlike e'.ui) :
    (stepResult now c e).1.errors = (stepResult now' c e').1.errors ∧
      (stepResult now c e).1.conditionOutcomes.map ConditionOutcome.success =
        (stepResult now' c e').1.conditionOutcomes.map ConditionOutcome.success := by
  obtain ⟨-, hconditions, -, hstore, -, hresult⟩ := Endpoint.mk.inj h
  have herrors : (stepProbe now c e).errors = (stepProbe now' c e').errors := by
    rw [errors_stepProbe, errors_stepProbe, hconditions, hresult, hui.errors, hui.hostname]
  constructor
  · rw [stepResult_eq, stepResult_eq, hstore, hresult]
    cases Capture.failure? e'.store e'.result with
    | none => exact herrors
    | some cause =>
      dsimp only
      rw [Probe.addError_eq, Probe.addError_eq, herrors]
  · rw [conditionOutcomes_stepResult, conditionOutcomes_stepResult, successes_stepProbe,
      successes_stepProbe, hconditions, hresult, hui.conditions]

end Step

/-! ## Runs -/

section Runs

variable {s s' : Suite} {now : Timestamp} {i : Nat}

/-- The steps of two such suites correspond by their positions. -/
theorem SameButUi.exists_getElem? (h : s.SameButUi s') {e : Endpoint}
    (he : s.endpoints[i]? = some e) :
    ∃ e', s'.endpoints[i]? = some e' ∧ e.withoutUi = e'.withoutUi := by
  have hposition : s'.endpoints[i]?.map Endpoint.withoutUi = some e.withoutUi := by
    rw [← List.getElem?_map, ← h.endpoints, List.getElem?_map, he]
    rfl
  obtain ⟨e', he', hsame⟩ := Option.map_eq_some_iff.1 hposition
  exact ⟨e', he', hsame.symm⟩

theorem SameButUi.length (h : s.SameButUi s') : s.endpoints.length = s'.endpoints.length := by
  simpa using congrArg List.length h.endpoints

theorem SameButUi.symm (h : s.SameButUi s') : s'.SameButUi s :=
  ⟨h.name.symm, h.context.symm, h.endpoints.symm⟩

/-- Every step keeps the two runs equally far beyond the settings. -/
theorem SameButUi.exists_progressBefore (h : s.SameButUi s') (now' : Timestamp) {r : Progress}
    (hr : s.progressBefore now i = .ok r) (hi : i ≤ s.endpoints.length) :
    ∃ r', s'.progressBefore now' i = .ok r' ∧ r.Alike Probe.beyondUi r' := by
  induction i generalizing r with
  | zero =>
    cases hr
    exact ⟨_, rfl, rfl, h.context, rfl⟩
  | succ i ih =>
    have he := List.getElem?_eq_getElem hi
    obtain ⟨e', he', hsame⟩ := h.exists_getElem? he
    obtain ⟨before, hbefore, hstep⟩ := exists_advances he hr
    obtain ⟨before', hbefore', halike⟩ := ih hbefore (by omega)
    obtain ⟨-, -, -, -, halways, -⟩ := Endpoint.mk.inj hsame
    have hover := overflows_of_withoutUi before.context hsame
    obtain ⟨hresult, hcontext⟩ := stepResult_of_withoutUi now now' before.context hsame
    have hsuccess := congrArg Probe.success hresult
    rw [progressBefore_succ he', hbefore']
    exact halike.exists_advance halways hover hresult hsuccess hcontext
      (Progress.advance_eq_ok_iff.2 ⟨_, hstep⟩)

/-- Two steps at one position run at the same time in their suites, in the same context. -/
theorem SameButUi.exists_stepResult (h : s.SameButUi s') (now' : Timestamp) {p : Probe}
    (hp : s.resultAt? now i = some p) :
    ∃ e e' c, s.endpoints[i]? = some e ∧ s'.endpoints[i]? = some e' ∧
      e.withoutUi = e'.withoutUi ∧ (stepResult now c e).1 = p ∧
      s'.resultAt? now' i = some (stepResult now' c e').1 := by
  obtain ⟨r, e, hr, he, hruns, hover, hresult⟩ := resultAt?_eq_some_iff.1 hp
  have hi : i < s.endpoints.length := (List.getElem?_eq_some_iff.1 he).1
  obtain ⟨r', hr', halike⟩ := h.exists_progressBefore now' hr (Nat.le_of_lt hi)
  obtain ⟨e', he', hsame⟩ := h.exists_getElem? he
  obtain ⟨-, -, -, -, halways, -⟩ := Endpoint.mk.inj hsame
  refine ⟨e, e', r.context, he, he', hsame, hresult, ?_⟩
  refine resultAt?_eq_some_iff.2 ⟨r', e', hr', he', ?_, ?_, by rw [halike.context]⟩
  · rw [Progress.runs, ← halike.failed, ← halways]
    exact hruns
  · rw [← halike.context, ← overflows_of_withoutUi r.context hsame]
    exact hover

/-- **Settings do not matter.** Two suites that differ only in the settings of their steps run the
same steps, stop alike, and come to the same verdict and the same context. The results of their
steps agree beyond the settings; and where two steps hide the same, their errors agree too, and as
many conditions are shown to hold or to fail in the same places. -/
theorem execute_of_sameButUi (h : s.SameButUi s') (now now' : Timestamp) :
    (∀ i, s.Ran now i ↔ s'.Ran now' i) ∧
    (s.execute now = .error .overflow ↔ s'.execute now' = .error .overflow) ∧
    (∀ r r', s.execute now = .ok r → s'.execute now' = .ok r' →
      r.success = r'.success ∧ r.context = r'.context ∧
      r.endpointResults.map Probe.beyondUi = r'.endpointResults.map Probe.beyondUi) ∧
    ∀ i p p', s.resultAt? now i = some p → s'.resultAt? now' i = some p' →
      p.success = p'.success ∧ p.beyondUi = p'.beyondUi ∧
      ∀ e e', s.endpoints[i]? = some e → s'.endpoints[i]? = some e' → e.ui.HideAlike e'.ui →
        p.errors = p'.errors ∧
          p.conditionOutcomes.map ConditionOutcome.success =
            p'.conditionOutcomes.map ConditionOutcome.success := by
  -- A run that comes to its end has a counterpart that does.
  have hfinishes : ∀ {s s' : Suite} (now now' : Timestamp), s.SameButUi s' →
      ∀ r, s.execute now = .ok r → ∃ r', s'.execute now' = .ok r' ∧
        r.success = r'.success ∧ r.context = r'.context ∧
        r.endpointResults.map Probe.beyondUi = r'.endpointResults.map Probe.beyondUi := by
    intro s s' now now' h r hr
    obtain ⟨last, hlast, rfl⟩ := execute_eq_ok_iff.1 hr
    obtain ⟨last', hlast', halike⟩ := h.exists_progressBefore now' hlast (Nat.le_refl _)
    rw [h.length] at hlast'
    refine ⟨_, execute_eq_ok_iff.2 ⟨last', hlast', rfl⟩, ?_, halike.context, halike.results⟩
    show (!last.failed) = (!last'.failed)
    rw [halike.failed]
  refine ⟨fun i => ⟨fun hran => ?_, fun hran => ?_⟩, ?_, fun r r' hr hr' => ?_, ?_⟩
  · obtain ⟨p, hp⟩ := Option.isSome_iff_exists.1 hran
    obtain ⟨_, _, _, -, -, -, -, hresult⟩ := h.exists_stepResult now' hp
    exact Option.isSome_iff_exists.2 ⟨_, hresult⟩
  · obtain ⟨p, hp⟩ := Option.isSome_iff_exists.1 hran
    obtain ⟨_, _, _, -, -, -, -, hresult⟩ := h.symm.exists_stepResult now hp
    exact Option.isSome_iff_exists.2 ⟨_, hresult⟩
  · rw [Abort.eq_error_iff, Abort.eq_error_iff, not_iff_not]
    constructor
    · rintro ⟨r, hr⟩
      obtain ⟨r', hr', -⟩ := hfinishes now now' h r hr
      exact ⟨r', hr'⟩
    · rintro ⟨r', hr'⟩
      obtain ⟨r, hr, -⟩ := hfinishes now' now h.symm r' hr'
      exact ⟨r, hr⟩
  · obtain ⟨r'', hr'', hagree⟩ := hfinishes now now' h r hr
    obtain rfl := Except.ok.inj (hr'.symm.trans hr'')
    exact hagree
  · intro i p p' hp hp'
    obtain ⟨e, e', c, he, he', hsame, rfl, hresult⟩ := h.exists_stepResult now' hp
    obtain rfl := Option.some.inj (hresult.symm.trans hp')
    have hbeyond := (stepResult_of_withoutUi now now' c hsame).1
    have hsuccess := congrArg Probe.success hbeyond
    refine ⟨hsuccess, hbeyond, ?_⟩
    intro f f' hf hf' hui
    obtain rfl := Option.some.inj (he.symm.trans hf)
    obtain rfl := Option.some.inj (he'.symm.trans hf')
    exact stepResult_of_hideAlike now now' c hsame hui

/-- `sessionSuite` with other settings: the first step, which fails, words its outcome in another
way, and the last one hides what it has found. -/
def discreetSession : Suite where
  name := sessionSuite.name
  endpoints :=
    [{ loginStep with ui := { dontResolveFailedConditions := true } }, auditStep,
      { logoutStep with ui := { hideConditions := true, hideErrors := true } }]

/-- The two sessions word the outcome of their first step differently and agree on the rest. -/
theorem discreetSession_agrees :
    sessionSuite.SameButUi discreetSession ∧
      (∃ r r', sessionSuite.execute sessionStart = .ok r ∧
        discreetSession.execute sessionStart = .ok r' ∧ r.context = r'.context) ∧
      ∃ p p', sessionSuite.resultAt? sessionStart 0 = some p ∧
        discreetSession.resultAt? sessionStart 0 = some p' ∧
        p.conditionOutcomes ≠ p'.conditionOutcomes ∧
        p.conditionOutcomes.map ConditionOutcome.success =
          p'.conditionOutcomes.map ConditionOutcome.success := by
  have hsame : sessionSuite.SameButUi discreetSession := ⟨rfl, rfl, rfl⟩
  have hhide : loginStep.ui.HideAlike { dontResolveFailedConditions := true } := ⟨rfl, rfl, rfl⟩
  obtain ⟨-, -, hruns, hsteps⟩ := execute_of_sameButUi hsame sessionStart sessionStart
  obtain ⟨-, hcontext, -⟩ := hruns _ _ rfl rfl
  obtain ⟨-, -, hwording⟩ := hsteps 0 _ _ rfl rfl
  exact ⟨hsame, ⟨_, _, rfl, rfl, hcontext⟩, _, _, rfl, rfl, by decide,
    (hwording _ _ rfl rfl hhide).2⟩

end Runs

end Suite

end HealthCheck
