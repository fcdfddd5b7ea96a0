import HealthCheck.Proofs.Endpoint.Redaction
import Mathlib.Data.List.Basic

/-!
# Runs of a suite

A run is told here by positions: `Suite.progressBefore` is how far it is before the step at a
position, unless it has stopped by then, and `Suite.resultAt?` is the result that the step adds to
it, or nothing where the step does not run. What one step does to the progress of a run is said
once, by `Progress.advance_eq_ok_iff`; all that holds of a whole run follows by induction on the
position.

The failed flag of a run is down before a position exactly when every step before it has passed,
which decides both which steps run and whether the suite succeeds. Skipped steps leave no trace:
without them the suite has the same results and the same final context, at any point in time. A run
stops in the middle of a step that runs and of which a condition stops.
-/

namespace HealthCheck

/-! ## Results apart from time -/

namespace Probe

/-- The result without its point in time. -/
def untimed (p : Probe) : Probe := { p with timestamp := none }

/-- Results that differ in time only have the same observations. -/
theorem sameObservations_of_untimed {p q : Probe} (h : p.untimed = q.untimed) :
    p.SameObservations q := by
  have hfields := Probe.mk.inj h
  intro ph
  cases ph <;> simp only [AgreesOn, hfields]

theorem untimed_addError (p : Probe) (message : Text) :
    (p.addError message).untimed = p.untimed.addError message := by
  rw [addError_eq, addError_eq]
  rfl

@[simp] theorem name_addError (p : Probe) (message : Text) :
    (p.addError message).name = p.name := by
  rw [addError_eq]

/-- An error that is recorded does not change what was observed. -/
theorem sameObservations_addError (p : Probe) (message : Text) :
    (p.addError message).SameObservations p := by
  rw [addError_eq]
  exact p.sameObservations_record _ p.conditionOutcomes p.success

end Probe

/-- Redaction neither reads nor changes the point in time. -/
theorem Endpoint.redact_timestamp (ui : UiSettings) (p : Probe) (t : Option Timestamp) :
    redact ui { p with timestamp := t } = { redact ui p with timestamp := t } := by
  unfold redact hideHostname
  dsimp only
  split_ifs <;> rfl

/-- The point in time does not show in anything else. -/
theorem Endpoint.untimed_healthResult (e : Endpoint) (now now' : Timestamp)
    (context : Option Context) :
    (e.healthResult now context).untimed = (e.healthResult now' context).untimed := by
  have h : ∀ t : Timestamp, (e.healthResult t context).untimed =
      (redact e.ui (e.openResult context)).untimed := fun t =>
    (congrArg Probe.untimed (redact_timestamp e.ui (e.openResult context) (some t))).trans rfl
  rw [h now, h now']

namespace Suite

/-! ## One step -/

/-- The result of a step that does not stop as its mappings see it, before their failure is
recorded. -/
def stepProbe (now : Timestamp) (c : Context) (e : Endpoint) : Probe :=
  { e.healthResult now (some c) with name := e.name }

/-- The result of a step that does not stop, and the context after its mappings. All that the
mappings may change in the result is one more error. -/
def stepResult (now : Timestamp) (c : Context) (e : Endpoint) : Probe × Context :=
  let captured := Capture.apply e.store (stepProbe now c e) c
  (match captured.outcome with
    | .ok _ => stepProbe now c e
    | .error cause =>
      (stepProbe now c e).addError ("failed to store values: ".toList ++ cause.message),
    captured.context)

/-- **Running a step.** It stops where a condition of the step does. -/
theorem runStep_eq (now : Timestamp) (c : Context) (e : Endpoint) :
    runStep now c e =
      if e.Overflows (some c) then .error .overflow else .ok (stepResult now c e) := by
  unfold runStep stepResult
  rw [Endpoint.evaluateHealth_eq]
  split_ifs with hover
  · rfl
  · rw [Abort.ok_bind]
    show (match (Capture.apply e.store (stepProbe now c e) c).outcome with
      | .ok _ => Except.ok (stepProbe now c e, _)
      | .error cause => Except.ok ((stepProbe now c e).addError _, _)) = _
    dsimp only
    cases (Capture.apply e.store (stepProbe now c e) c).outcome <;> rfl

/-- A step has a result where none of its conditions stops. -/
theorem runStep_eq_ok_iff {now : Timestamp} {c : Context} {e : Endpoint} {r : Probe × Context} :
    runStep now c e = .ok r ↔ ¬ e.Overflows (some c) ∧ r = stepResult now c e := by
  rw [runStep_eq, Abort.ite_eq_ok_iff]

/-- The result of a step has the name of the step. -/
theorem name_stepResult (now : Timestamp) (c : Context) (e : Endpoint) :
    (stepResult now c e).1.name = e.name := by
  unfold stepResult
  dsimp only
  split
  · rfl
  · exact Probe.name_addError _ _

/-- Recording a failure of the mappings does not change what was observed. -/
theorem sameObservations_stepResult (now : Timestamp) (c : Context) (e : Endpoint) :
    (stepResult now c e).1.SameObservations (stepProbe now c e) := by
  unfold stepResult
  dsimp only
  split
  · exact Probe.SameObservations.refl _
  · exact Probe.sameObservations_addError _ _

/-- Mappings change neither the outcomes of the conditions nor the verdict. -/
theorem evaluation_stepResult (now : Timestamp) (c : Context) (e : Endpoint) :
    (stepResult now c e).1.conditionOutcomes = (e.healthResult now (some c)).conditionOutcomes ∧
      (stepResult now c e).1.success = (e.healthResult now (some c)).success := by
  unfold stepResult
  dsimp only
  split
  · exact ⟨rfl, rfl⟩
  · rw [Probe.addError_eq]
    exact ⟨rfl, rfl⟩

theorem untimed_stepProbe (now now' : Timestamp) (c : Context) (e : Endpoint) :
    (stepProbe now c e).untimed = (stepProbe now' c e).untimed :=
  congrArg (fun p : Probe => { p with name := e.name }) (e.untimed_healthResult now now' (some c))

/-- The point in time of a step shows in the timestamp of its result only. -/
theorem stepResult_time (now now' : Timestamp) (c : Context) (e : Endpoint) :
    (stepResult now c e).1.untimed = (stepResult now' c e).1.untimed ∧
      (stepResult now c e).2 = (stepResult now' c e).2 := by
  have hprobe := untimed_stepProbe now now' c e
  have hcapture := (Probe.sameObservations_of_untimed hprobe).apply_eq e.store c
  unfold stepResult
  rw [hcapture]
  refine ⟨?_, rfl⟩
  dsimp only
  split
  · exact hprobe
  · rw [Probe.untimed_addError, Probe.untimed_addError, hprobe]

namespace Progress

/-- What a step makes of a run that it does not stop: the result that it adds, or nothing where it
is skipped, and how far the run is then. -/
inductive Advances (now : Timestamp) (r : Progress) (e : Endpoint) :
    Option Probe → Progress → Prop where
  | runs (hruns : r.runs e = true) (hover : ¬ e.Overflows (some r.context)) :
      Advances now r e (some (stepResult now r.context e).1)
        ⟨r.failed || !(stepResult now r.context e).1.success, (stepResult now r.context e).2,
          r.results ++ [(stepResult now r.context e).1]⟩
  | skips (hskips : r.runs e = false) : Advances now r e none r

/-- A step that runs stops the run or adds its result. -/
theorem advance_of_runs {r : Progress} {e : Endpoint} (h : r.runs e = true) (now : Timestamp) :
    r.advance now e =
      if e.Overflows (some r.context) then .error .overflow
      else .ok ⟨r.failed || !(stepResult now r.context e).1.success,
        (stepResult now r.context e).2, r.results ++ [(stepResult now r.context e).1]⟩ := by
  rw [advance, if_pos h, runStep_eq]
  split_ifs <;> rfl

theorem advance_of_skips {r : Progress} {e : Endpoint} (h : r.runs e = false)
    (now : Timestamp) : r.advance now e = .ok r := by
  rw [advance, if_neg (by rw [h]; exact Bool.false_ne_true)]
  rfl

/-- **One step of a run.** -/
theorem advance_eq_ok_iff {r r' : Progress} {now : Timestamp} {e : Endpoint} :
    r.advance now e = .ok r' ↔ ∃ result?, r.Advances now e result? r' := by
  cases hruns : r.runs e with
  | true =>
    rw [advance_of_runs hruns]
    split_ifs with hover
    · refine iff_of_false nofun ?_
      rintro ⟨_, hstep⟩
      cases hstep with
      | runs _ hok => exact hok hover
      | skips hskips => exact Bool.noConfusion (hruns.symm.trans hskips)
    · constructor
      · rintro h
        obtain rfl := Except.ok.inj h
        exact ⟨_, .runs hruns hover⟩
      · rintro ⟨_, hstep⟩
        cases hstep with
        | runs => rfl
        | skips hskips => exact Bool.noConfusion (hruns.symm.trans hskips)
  | false =>
    rw [advance_of_skips hruns]
    constructor
    · rintro h
      obtain rfl := Except.ok.inj h
      exact ⟨_, .skips hruns⟩
    · rintro ⟨_, hstep⟩
      cases hstep with
      | runs hruns' => exact Bool.noConfusion (hruns'.symm.trans hruns)
      | skips => rfl

/-- A run stops at a step that runs and of which a condition stops. -/
theorem advance_eq_overflow_iff {r : Progress} {now : Timestamp} {e : Endpoint} :
    r.advance now e = .error .overflow ↔ r.runs e = true ∧ e.Overflows (some r.context) := by
  cases hruns : r.runs e with
  | true =>
    rw [advance_of_runs hruns]
    split_ifs with hover
    · exact iff_of_true rfl ⟨rfl, hover⟩
    · exact iff_of_false nofun fun h => hover h.2
  | false =>
    rw [advance_of_skips hruns]
    exact iff_of_false nofun fun h => Bool.false_ne_true h.1

variable {now : Timestamp} {r r' : Progress} {e : Endpoint} {result? : Option Probe}

/-- A step adds at most one result, behind the others. -/
theorem Advances.results_eq (h : r.Advances now e result? r') :
    r'.results = r.results ++ result?.toList := by
  cases h with
  | runs => rfl
  | skips => exact (List.append_nil _).symm

/-- The flag stays down exactly when it was down and the step passes. A step that is skipped finds
it up already. -/
theorem Advances.failed_iff (h : r.Advances now e result? r') :
    r'.failed = false ↔ r.failed = false ∧ ∃ p, result? = some p ∧ p.success = true := by
  cases h with
  | runs => simp
  | skips hskips =>
    have hfailed : r.failed = true := by
      rw [Progress.runs, Bool.or_eq_false_iff, Bool.not_eq_false'] at hskips
      exact hskips.1
    simp [hfailed]

end Progress

/-! ## Positions -/

/-- How far a run is before its step at a position. -/
def progressBefore (s : Suite) (now : Timestamp) (i : Nat) : Except Abort Progress :=
  (s.endpoints.take i).foldlM (Progress.advance now) ⟨false, s.context, []⟩

/-- The run comes to the step at a position, whose conditions are evaluated in the context. -/
def Reaches (s : Suite) (now : Timestamp) (i : Nat) (c : Context) : Prop :=
  ∃ r, s.progressBefore now i = .ok r ∧ r.context = c

/-- The result that the step at a position adds to a run. There is none where the step is skipped
and where the run has stopped. -/
def resultAt? (s : Suite) (now : Timestamp) (i : Nat) : Option Probe :=
  match s.progressBefore now i, s.endpoints[i]? with
  | .ok r, some e =>
    if r.runs e then (runStep now r.context e).toOption.map Prod.fst else none
  | _, _ => none

/-- The step at a position runs. -/
def Ran (s : Suite) (now : Timestamp) (i : Nat) : Prop := (s.resultAt? now i).isSome = true

/-- The step at a position runs and succeeds: it recorded no errors, and all its conditions hold in
the context that the run has come to. -/
def Passed (s : Suite) (now : Timestamp) (i : Nat) : Prop :=
  s.Ran now i ∧
    ∃ e c, s.endpoints[i]? = some e ∧ s.Reaches now i c ∧ e.Healthy (some c)

/-- The run stops at the step at a position: it comes to the step, which is not skipped, and a
condition of the step stops in the context that the run has come to. -/
def StopsAt (s : Suite) (now : Timestamp) (i : Nat) : Prop :=
  ∃ e c, s.endpoints[i]? = some e ∧ s.Reaches now i c ∧
    (e.alwaysRun = true ∨ ∀ j < i, s.Passed now j) ∧ e.Overflows (some c)

/-- The steps before a position that run, in order. -/
def stepsRunBefore (s : Suite) (now : Timestamp) (i : Nat) : List Endpoint :=
  (List.range i).filterMap fun j =>
    if (s.resultAt? now j).isSome then s.endpoints[j]? else none

/-- The suite without the steps that a run skips. -/
def withoutSkipped (s : Suite) (now : Timestamp) : Suite :=
  { s with endpoints := s.stepsRunBefore now s.endpoints.length }

variable {s : Suite} {now : Timestamp} {i : Nat} {e : Endpoint}

/-- A run comes to the next position by its step. -/
theorem progressBefore_succ (h : s.endpoints[i]? = some e) :
    s.progressBefore now (i + 1) = s.progressBefore now i >>= fun r => r.advance now e := by
  unfold progressBefore
  rw [List.take_add_one, h, List.foldlM_append]
  refine congrArg _ (funext fun r => ?_)
  exact bind_pure _

theorem progressBefore_length (s : Suite) (now : Timestamp) :
    s.progressBefore now s.endpoints.length = s.progress now := by
  unfold progressBefore progress
  rw [List.take_length]

/-- Where a run comes to the position behind a step, the step has not stopped it. -/
theorem exists_advances (h : s.endpoints[i]? = some e) {r' : Progress}
    (hr' : s.progressBefore now (i + 1) = .ok r') :
    ∃ r, s.progressBefore now i = .ok r ∧ r.Advances now e (s.resultAt? now i) r' := by
  rw [progressBefore_succ h, Abort.bind_eq_ok_iff] at hr'
  obtain ⟨r, hr, hadvance⟩ := hr'
  obtain ⟨result?, hstep⟩ := Progress.advance_eq_ok_iff.1 hadvance
  have hresult : s.resultAt? now i = result? := by
    unfold resultAt?
    rw [hr, h]
    cases hstep with
    | runs hruns hover =>
      simp only [if_pos hruns, runStep_eq_ok_iff.2 ⟨hover, rfl⟩]
      rfl
    | skips hskips => simp [hskips]
  rw [hresult]
  exact ⟨r, hr, hstep⟩

/-- The result of a step is that of running it in the context that the run has come to. -/
theorem resultAt?_eq_some_iff {p : Probe} :
    s.resultAt? now i = some p ↔
      ∃ r e, s.progressBefore now i = .ok r ∧ s.endpoints[i]? = some e ∧ r.runs e = true ∧
        ¬ e.Overflows (some r.context) ∧ (stepResult now r.context e).1 = p := by
  unfold resultAt?
  cases s.progressBefore now i with
  | error a => simp
  | ok r =>
    cases s.endpoints[i]? with
    | none => simp
    | some e =>
      by_cases hruns : r.runs e = true
      · by_cases hover : e.Overflows (some r.context)
        · simp [hruns, runStep_eq, hover, Except.toOption]
        · simp [hruns, runStep_eq, hover, Except.toOption]
      · simp [hruns]

/-- A run that comes to a position came to all before it. -/
theorem exists_progressBefore_of_le {r : Progress} (h : s.progressBefore now i = .ok r) {j : Nat}
    (hj : j ≤ i) : ∃ r', s.progressBefore now j = .ok r' := by
  induction i generalizing r with
  | zero =>
    obtain rfl : j = 0 := Nat.le_zero.1 hj
    exact ⟨r, h⟩
  | succ i ih =>
    rcases Nat.le_succ_iff.1 hj with hj | rfl
    · cases he : s.endpoints[i]? with
      | some e =>
        obtain ⟨r', hr', -⟩ := exists_advances he h
        exact ih hr' hj
      | none =>
        have hlength : s.endpoints.length ≤ i := List.getElem?_eq_none_iff.1 he
        rw [progressBefore, List.take_of_length_le (by omega),
          ← List.take_of_length_le hlength] at h
        exact ih h hj
    · exact ⟨r, h⟩

/-- **Results of a run.** Before a position they are those of the steps that ran, in order. -/
theorem results_progressBefore {r : Progress} (hr : s.progressBefore now i = .ok r)
    (h : i ≤ s.endpoints.length) :
    r.results = (List.range i).filterMap (s.resultAt? now) := by
  induction i generalizing r with
  | zero =>
    cases hr
    rfl
  | succ i ih =>
    obtain ⟨r', hr', hstep⟩ := exists_advances (List.getElem?_eq_getElem h) hr
    rw [hstep.results_eq, ih hr' (by omega), List.range_succ, List.filterMap_append]
    cases hp : s.resultAt? now i with
    | none => simp [hp]
    | some p => simp [hp]

/-- Whether a step that ran succeeded is whether it passed. -/
theorem success_iff_passed {p : Probe} (hp : s.resultAt? now i = some p) :
    p.success = true ↔ s.Passed now i := by
  obtain ⟨r, e, hr, he, -, hover, rfl⟩ := resultAt?_eq_some_iff.1 hp
  rw [(evaluation_stepResult now r.context e).2, Endpoint.success_healthResult_iff hover]
  constructor
  · intro hhealthy
    exact ⟨by rw [Ran, hp]; rfl, e, r.context, he, ⟨r, hr, rfl⟩, hhealthy⟩
  · rintro ⟨-, e', c, he', ⟨r', hr', rfl⟩, hhealthy⟩
    obtain rfl := Option.some.inj (he.symm.trans he')
    obtain rfl := Except.ok.inj (hr.symm.trans hr')
    exact hhealthy

/-- A step passes exactly if it adds a result that tells success. -/
theorem passed_iff : s.Passed now i ↔ ∃ p, s.resultAt? now i = some p ∧ p.success = true := by
  constructor
  · intro h
    obtain ⟨p, hp⟩ := Option.isSome_iff_exists.1 h.1
    exact ⟨p, hp, (success_iff_passed hp).2 h⟩
  · rintro ⟨p, hp, hsuccess⟩
    exact (success_iff_passed hp).1 hsuccess

/-- **The failed flag.** It is down before a position exactly when all steps before have passed. -/
theorem failed_progressBefore {r : Progress} (hr : s.progressBefore now i = .ok r)
    (h : i ≤ s.endpoints.length) : r.failed = false ↔ ∀ j < i, s.Passed now j := by
  induction i generalizing r with
  | zero =>
    cases hr
    simp
  | succ i ih =>
    obtain ⟨r', hr', hstep⟩ := exists_advances (List.getElem?_eq_getElem h) hr
    rw [hstep.failed_iff, ih hr' (by omega), ← passed_iff]
    constructor
    · rintro ⟨hbefore, hlast⟩ j hj
      rcases Nat.lt_succ_iff_lt_or_eq.1 hj with hj | rfl
      · exact hbefore j hj
      · exact hlast
    · intro hall
      exact ⟨fun j hj => hall j (by omega), hall i (by omega)⟩

/-- A step runs where a run comes to it exactly if it always does or no step has failed. -/
theorem runs_iff {r : Progress} (hr : s.progressBefore now i = .ok r)
    (h : s.endpoints[i]? = some e) :
    r.runs e = true ↔ e.alwaysRun = true ∨ ∀ j < i, s.Passed now j := by
  have hi : i < s.endpoints.length := (List.getElem?_eq_some_iff.1 h).1
  rw [← failed_progressBefore hr (Nat.le_of_lt hi), Progress.runs]
  cases r.failed <;> cases e.alwaysRun <;> simp

/-- A step runs exactly if it always does or no step before it has failed, where the run comes past
it. -/
theorem ran_iff (h : s.endpoints[i]? = some e) {r' : Progress}
    (hr' : s.progressBefore now (i + 1) = .ok r') :
    s.Ran now i ↔ e.alwaysRun = true ∨ ∀ j < i, s.Passed now j := by
  obtain ⟨r, hr, hstep⟩ := exists_advances h hr'
  rw [← runs_iff hr h, Ran]
  generalize s.resultAt? now i = result? at hstep
  cases hstep with
  | runs hruns => exact iff_of_true rfl hruns
  | skips hskips => simp [hskips]

/-- A run stops at a step exactly if it comes to the step and not to the position behind it. -/
theorem stopsAt_iff (h : s.endpoints[i]? = some e) :
    s.StopsAt now i ↔
      ∃ r, s.progressBefore now i = .ok r ∧ r.advance now e = .error .overflow := by
  simp only [Progress.advance_eq_overflow_iff]
  constructor
  · rintro ⟨e', _, he', ⟨r, hr, rfl⟩, hruns, hover⟩
    obtain rfl := Option.some.inj (h.symm.trans he')
    exact ⟨r, hr, (runs_iff hr h).2 hruns, hover⟩
  · rintro ⟨r, hr, hruns, hover⟩
    exact ⟨e, r.context, h, ⟨r, hr, rfl⟩, (runs_iff hr h).1 hruns, hover⟩

/-- A run does not come to a position exactly if it stops at a step before it. -/
theorem progressBefore_eq_overflow_iff (h : i ≤ s.endpoints.length) :
    s.progressBefore now i = .error .overflow ↔ ∃ j < i, s.StopsAt now j := by
  induction i with
  | zero => exact iff_of_false nofun fun ⟨j, hj, _⟩ => Nat.not_lt_zero j hj
  | succ i ih =>
    have he := List.getElem?_eq_getElem h
    rw [progressBefore_succ he, Abort.bind_eq_error_iff, ih (by omega), ← stopsAt_iff he]
    constructor
    · rintro (⟨j, hj, hstops⟩ | hstops)
      · exact ⟨j, by omega, hstops⟩
      · exact ⟨i, by omega, hstops⟩
    · rintro ⟨j, hj, hstops⟩
      rcases Nat.lt_succ_iff_lt_or_eq.1 hj with hj | rfl
      · exact Or.inl ⟨j, hj, hstops⟩
      · exact Or.inr hstops

theorem name_resultAt? {p : Probe} (h : s.resultAt? now i = some p) :
    s.endpoints[i]?.map Endpoint.name = some p.name := by
  obtain ⟨r, e, -, he, -, -, rfl⟩ := resultAt?_eq_some_iff.1 h
  rw [he, Option.map_some, name_stepResult]

/-! ## Without the skipped steps -/

/-- Two runs are equally far, as far as their results are seen through a view. -/
structure Progress.Alike (view : Probe → Probe) (r r' : Progress) : Prop where
  failed : r.failed = r'.failed
  context : r.context = r'.context
  results : r.results.map view = r'.results.map view

/-- Two steps that run or are skipped alike and stop alike keep two runs equally far, if their
results look alike, pass alike and leave the same context. -/
theorem Progress.Alike.exists_advance {view : Probe → Probe} {r r' : Progress} {e e' : Endpoint}
    {now now' : Timestamp} (h : r.Alike view r') (halways : e.alwaysRun = e'.alwaysRun)
    (hover : e.Overflows (some r.context) ↔ e'.Overflows (some r.context))
    (hresult : view (stepResult now r.context e).1 = view (stepResult now' r.context e').1)
    (hsuccess : (stepResult now r.context e).1.success =
      (stepResult now' r.context e').1.success)
    (hcontext : (stepResult now r.context e).2 = (stepResult now' r.context e').2)
    {after : Progress} (hafter : r.advance now e = .ok after) :
    ∃ after', r'.advance now' e' = .ok after' ∧ after.Alike view after' := by
  have hruns : r'.runs e' = r.runs e := by rw [runs, runs, ← h.failed, halways]
  obtain ⟨_, hstep⟩ := advance_eq_ok_iff.1 hafter
  cases hstep with
  | skips hskips =>
    exact ⟨r', advance_of_skips (hruns.trans hskips) now', h⟩
  | runs hrun hnot =>
    rw [hover] at hnot
    refine ⟨_, (advance_of_runs (hruns.trans hrun) now').trans (if_neg (h.context ▸ hnot)), ?_⟩
    rw [← h.context]
    constructor
    · show (r.failed || _) = (r'.failed || _)
      rw [h.failed, hsuccess]
    · exact hcontext
    · show (r.results ++ _).map _ = (r'.results ++ _).map _
      rw [List.map_append, List.map_append, h.results, List.map_singleton, List.map_singleton,
        hresult]

/-- A step at two points in time keeps two runs equally far, apart from the points in time. -/
theorem Progress.Alike.exists_advance_untimed {r r' : Progress} (h : r.Alike Probe.untimed r')
    {e : Endpoint} {now : Timestamp} (now' : Timestamp) {after : Progress}
    (hafter : r.advance now e = .ok after) :
    ∃ after', r'.advance now' e = .ok after' ∧ after.Alike Probe.untimed after' := by
  obtain ⟨hresult, hcontext⟩ := stepResult_time now now' r.context e
  have hsuccess := congrArg Probe.success hresult
  exact h.exists_advance rfl Iff.rfl hresult hsuccess hcontext hafter

/-- Running only the steps that run gets equally far, whenever it starts. -/
theorem exists_alike_stepsRunBefore (now' : Timestamp) {r : Progress}
    (hr : s.progressBefore now i = .ok r) (h : i ≤ s.endpoints.length) :
    ∃ r', (s.stepsRunBefore now i).foldlM (Progress.advance now') ⟨false, s.context, []⟩ =
      Except.ok r' ∧ r.Alike Probe.untimed r' := by
  induction i generalizing r with
  | zero =>
    cases hr
    exact ⟨_, rfl, rfl, rfl, rfl⟩
  | succ i ih =>
    have he := List.getElem?_eq_getElem h
    obtain ⟨before, hbefore, hstep⟩ := exists_advances he hr
    obtain ⟨r', hr', halike⟩ := ih hbefore (by omega)
    have hsteps : s.stepsRunBefore now (i + 1) =
        s.stepsRunBefore now i ++ if (s.resultAt? now i).isSome then [s.endpoints[i]] else [] := by
      rw [stepsRunBefore, List.range_succ, List.filterMap_append, ← stepsRunBefore]
      cases hp : s.resultAt? now i <;> simp [hp, he]
    have hadvance : before.advance now s.endpoints[i] = .ok r :=
      Progress.advance_eq_ok_iff.2 ⟨_, hstep⟩
    rw [hsteps, List.foldlM_append, hr']
    generalize s.resultAt? now i = result? at hstep
    cases hstep with
    | skips => exact ⟨r', rfl, halike⟩
    | runs =>
      obtain ⟨after', hafter', hafter⟩ := halike.exists_advance_untimed now' hadvance
      refine ⟨after', ?_, hafter⟩
      show (r'.advance now' s.endpoints[i] >>= pure) = _
      rw [hafter']
      rfl

/-- A suite has an outcome where its run comes to the end, and tells how far it is then. -/
theorem execute_eq_ok_iff {r : SuiteResult} :
    s.execute now = .ok r ↔
      ∃ q, s.progressBefore now s.endpoints.length = .ok q ∧
        r = ⟨s.name, !q.failed, some now, q.results, q.context⟩ := by
  rw [progressBefore_length, execute, Abort.bind_eq_ok_iff]
  refine exists_congr fun q => and_congr_right fun _ => ?_
  exact ⟨fun h => (Except.ok.inj h).symm, fun h => congrArg Except.ok h.symm⟩

/-- A suite succeeds when every step of it runs and succeeds. -/
theorem success_iff_of_execute {r : SuiteResult} (h : s.execute now = .ok r) :
    r.success = true ↔ ∀ i < s.endpoints.length, s.Passed now i := by
  obtain ⟨last, hlast, rfl⟩ := execute_eq_ok_iff.1 h
  rw [← failed_progressBefore hlast (Nat.le_refl _)]
  exact Bool.not_eq_true' _ ▸ Iff.rfl

/-- A run of a suite has no result exactly if it stops at a step. -/
theorem execute_eq_overflow_iff :
    s.execute now = .error .overflow ↔ ∃ i < s.endpoints.length, s.StopsAt now i := by
  rw [← progressBefore_eq_overflow_iff (Nat.le_refl _), progressBefore_length, execute,
    Abort.bind_eq_error_iff]
  exact or_iff_left fun ⟨_, _, h⟩ => nomatch h

/-- **A run stops at its first failure, except for the steps that always run**, unless a sum
overflows in a condition that is evaluated: then it has no result. Otherwise its results are those
of the steps that ran, each under the name of its step; it succeeds when every step ran and
succeeded; and a run of the suite without the skipped steps, at any other time, has the same results
and the same context. -/
theorem execute_skips_after_failure (s : Suite) (now now' : Timestamp) :
    (s.execute now = .error .overflow ↔ ∃ i < s.endpoints.length, s.StopsAt now i) ∧
    ∀ r, s.execute now = .ok r →
      (∀ i e, s.endpoints[i]? = some e →
        (s.Ran now i ↔ e.alwaysRun = true ∨ ∀ j < i, s.Passed now j)) ∧
      r.endpointResults = (List.range s.endpoints.length).filterMap (s.resultAt? now) ∧
      (∀ i p, s.resultAt? now i = some p → s.endpoints[i]?.map Endpoint.name = some p.name) ∧
      (r.success = true ↔ ∀ i < s.endpoints.length, s.Passed now i) ∧
      ∃ r', (s.withoutSkipped now).execute now' = .ok r' ∧
        r'.endpointResults.map Probe.untimed = r.endpointResults.map Probe.untimed ∧
        r'.context = r.context := by
  refine ⟨execute_eq_overflow_iff, fun r hr => ?_⟩
  obtain ⟨last, hlast, rfl⟩ := execute_eq_ok_iff.1 hr
  obtain ⟨last', hlast', halike⟩ := exists_alike_stepsRunBefore now' hlast (Nat.le_refl _)
  refine ⟨fun i e he => ?_, results_progressBefore hlast (Nat.le_refl _),
    fun i p => name_resultAt?, success_iff_of_execute hr, ⟨s.name, !last'.failed, some now',
      last'.results, last'.context⟩, ?_, halike.results.symm, halike.context.symm⟩
  · have hi : i < s.endpoints.length := (List.getElem?_eq_some_iff.1 he).1
    obtain ⟨r', hr'⟩ := exists_progressBefore_of_le hlast (Nat.succ_le_of_lt hi)
    exact ran_iff he hr'
  · rw [execute_eq_ok_iff, progressBefore_length]
    exact ⟨last', hlast', rfl⟩

/-- A point in time at which suites run. -/
def sessionStart : Timestamp :=
  ⟨⟨2024, 2, 29⟩, 0, 0, 0, by decide, by decide, by decide, by decide⟩

/-- A step that fails. -/
def outageStep : Endpoint where
  name := "outage".toList
  conditions := [⟨"[STATUS] == 200".toList⟩]
  store := ⟨[], List.nodup_nil⟩
  result := { status := 503 }

/-- A step that would succeed. -/
def pageStep : Endpoint where
  name := "page".toList
  conditions := [⟨"[STATUS] == 200".toList⟩]
  store := ⟨[], List.nodup_nil⟩
  result := { status := 200 }

/-- A step that is to run in any case. -/
def cleanupStep : Endpoint where
  name := "cleanup".toList
  conditions := [⟨"[STATUS] == 200".toList⟩]
  store := ⟨[], List.nodup_nil⟩
  alwaysRun := true
  result := { status := 200 }

/-- A failure, a step that is skipped for it, and a step that runs nevertheless. -/
def outageSuite : Suite where
  name := "outage".toList
  endpoints := [outageStep, pageStep, cleanupStep]

/-- The second step is skipped and the third one runs, with the same results as without the
second. -/
theorem outageSuite_skips_page :
    ∃ r, outageSuite.execute sessionStart = .ok r ∧
      ¬ outageSuite.Ran sessionStart 1 ∧ outageSuite.Ran sessionStart 2 ∧
      r.endpointResults.map Probe.name = ["outage".toList, "cleanup".toList] ∧ r.success = false ∧
      ∃ r', (outageSuite.withoutSkipped sessionStart).execute sessionStart = .ok r' ∧
        r'.endpointResults.map Probe.untimed = r.endpointResults.map Probe.untimed := by
  have hr : outageSuite.execute sessionStart = .ok _ := rfl
  obtain ⟨hran, hresults, -, hsuccess, r', hr', hsame, -⟩ :=
    (execute_skips_after_failure outageSuite sessionStart sessionStart).2 _ hr
  have hfirst : ¬ outageSuite.Passed sessionStart 0 := by
    rw [passed_iff]
    rintro ⟨p, hp, hsuccess⟩
    obtain rfl := Option.some.inj hp
    exact Bool.false_ne_true hsuccess
  refine ⟨_, hr, ?_, (hran 2 _ rfl).2 (Or.inl rfl), ?_, ?_, r', hr', hsame⟩
  · rw [hran 1 pageStep rfl]
    rintro (halways | hpassed)
    · exact Bool.false_ne_true halways
    · exact hfirst (hpassed 0 (by decide))
  · rw [hresults]
    rfl
  · rw [Bool.eq_false_iff, ne_eq, hsuccess]
    exact fun hall => hfirst (hall 0 (by decide))

/-- A step whose condition reads a body in which a component overflows. -/
def meterStep : Endpoint where
  name := "meter".toList
  conditions := [⟨"[BODY] > 0".toList⟩]
  store := ⟨[], List.nodup_nil⟩
  result := { body := Utf8.encode Duration.widestMicros }

/-- A suite that stops at its first step. -/
def meteredSuite : Suite where
  name := "metered".toList
  endpoints := [meterStep, cleanupStep]

/-- In exact numbers the condition of the first step is false. The run stops there, without a
result, and the step that always runs does not run. -/
theorem overflow_stops_the_run :
    (∀ outcome, (Condition.mk "[BODY] > 0".toList).exactOutcome {} none meterStep.result =
      some outcome → outcome.success = false) ∧
    ∀ now, meteredSuite.execute now = .error .overflow ∧
      (meteredSuite.endpoints[1]?.map Endpoint.alwaysRun = some true ∧
        ¬ meteredSuite.Ran now 1) := by
  have hexact : ((Condition.mk "[BODY] > 0".toList).exactOutcome {} none meterStep.result).map
      ConditionOutcome.success = some false := by decide +kernel
  have hover : meterStep.Overflows (some meteredSuite.context) := by decide +kernel
  refine ⟨fun outcome houtcome => ?_, fun now => ?_⟩
  · rw [houtcome] at hexact
    exact Option.some.inj hexact
  · have hfirst : Progress.advance now ⟨false, meteredSuite.context, []⟩ meterStep =
        .error .overflow := Progress.advance_eq_overflow_iff.2 ⟨rfl, hover⟩
    have hstops : meteredSuite.progressBefore now 1 = .error .overflow := by
      show (Progress.advance now ⟨false, meteredSuite.context, []⟩ meterStep >>= pure) = _
      rw [hfirst]
      rfl
    refine ⟨execute_eq_overflow_iff.2 ?_, rfl, ?_⟩
    · obtain ⟨j, hj, hstep⟩ := (progressBefore_eq_overflow_iff (by decide)).1 hstops
      exact ⟨j, Nat.lt_of_lt_of_le hj (by decide), hstep⟩
    · rw [Ran, resultAt?, hstops]
      exact Bool.false_ne_true

end Suite

end HealthCheck
