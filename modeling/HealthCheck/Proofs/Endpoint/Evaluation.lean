import HealthCheck.Endpoint
import HealthCheck.Proofs.Condition.Evaluation

/-!
# What evaluating an endpoint does

The conditions of an endpoint are evaluated one after the other on a probe result that carries what
the earlier ones left there. `Endpoint.evaluateConditions_eq` says that they do not get in each
other's way: what each of them adds is what it would add to the recorded probe result alone, because
no condition changes what was observed. The evaluation stops where one of the conditions stops on
the recorded result.

An endpoint with valid conditions records no error of its own and has one outcome for each
condition, in order.
-/

namespace HealthCheck

namespace Endpoint

/-! ## Conditions in order -/

/-- **Conditions in order.** Each of them adds what it would add to the probe result alone, and
stops where it would stop on that. -/
theorem evaluateConditions_eq (d : Display) (context : Option Context) (cs : List Condition)
    (p : Probe) :
    evaluateConditions d context cs p =
      if ∃ c ∈ cs, c.Overflows context p then .error .overflow
      else .ok { p with
        errors := cs.foldl Condition.recordRejection p.errors
        conditionOutcomes := p.conditionOutcomes ++ cs.filterMap (·.exactOutcome d context p)
        success := p.success && cs.all (·.holds context p) } := by
  induction cs generalizing p with
  | nil => simp [evaluateConditions]; rfl
  | cons c cs ih =>
    rw [evaluateConditions, Condition.evaluate_eq]
    by_cases hover : c.Overflows context p
    · rw [if_pos hover, if_pos ⟨c, List.mem_cons_self, hover⟩]
      rfl
    · have hsame := p.sameObservations_record (Condition.recordRejection p.errors c)
        (p.conditionOutcomes ++ (c.exactOutcome d context p).toList)
        (p.success && c.holds context p)
      have houtcomes : ∀ c : Condition, c.exactOutcome d context _ = c.exactOutcome d context p :=
        fun c => Condition.exactOutcome_of_sameObservations hsame
      have hholds : ∀ c : Condition, c.holds context _ = c.holds context p :=
        fun c => Condition.holds_of_sameObservations hsame
      have hoverflows : ∀ c : Condition, c.Overflows context _ ↔ c.Overflows context p :=
        fun c => Condition.overflows_of_sameObservations hsame
      have hcons : (c :: cs).filterMap (·.exactOutcome d context p) =
          (c.exactOutcome d context p).toList ++ cs.filterMap (·.exactOutcome d context p) := by
        cases h : c.exactOutcome d context p <;> simp [h]
      have hlater : (∃ c' ∈ c :: cs, c'.Overflows context p) ↔
          ∃ c' ∈ cs, c'.Overflows context p := by
        simp [hover]
      rw [if_neg hover, Abort.ok_bind]
      dsimp only [Condition.appendTo]
      rw [ih]
      simp only [houtcomes, hholds, hoverflows, hcons, hlater, List.foldl_cons, List.all_cons,
        Bool.and_assoc, List.append_assoc]

/-- A condition of the endpoint stops on the recorded result. -/
def Overflows (e : Endpoint) (context : Option Context) : Prop :=
  ∃ c ∈ e.conditions, c.Overflows context e.result

instance (e : Endpoint) (context : Option Context) : Decidable (e.Overflows context) :=
  inferInstanceAs (Decidable (∃ c ∈ e.conditions, c.Overflows context e.result))

/-- The result of an endpoint before redaction, where no condition stops: the recorded one, with the
rejections of invalid conditions among the errors and the outcomes of the others in order. -/
def openResult (e : Endpoint) (context : Option Context) : Probe :=
  { e.result with
    errors := e.conditions.foldl Condition.recordRejection e.result.errors
    conditionOutcomes := e.conditions.filterMap (·.exactOutcome e.ui.display context e.result)
    success := e.result.errors.isEmpty && e.conditions.all (·.holds context e.result) }

/-- **Evaluating an endpoint**, before redaction. -/
theorem evaluateOpenly_eq (e : Endpoint) (context : Option Context) :
    e.evaluateOpenly context =
      if e.Overflows context then .error .overflow else .ok (e.openResult context) := by
  have hsame := e.result.sameObservations_record e.result.errors [] e.result.errors.isEmpty
  have houtcomes : ∀ c : Condition, c.exactOutcome e.ui.display context _ =
      c.exactOutcome e.ui.display context e.result :=
    fun c => Condition.exactOutcome_of_sameObservations hsame
  have hholds : ∀ c : Condition, c.holds context _ = c.holds context e.result :=
    fun c => Condition.holds_of_sameObservations hsame
  have hoverflows : ∀ c : Condition, c.Overflows context _ ↔ c.Overflows context e.result :=
    fun c => Condition.overflows_of_sameObservations hsame
  unfold evaluateOpenly Overflows openResult
  rw [evaluateConditions_eq]
  simp only [houtcomes, hholds, hoverflows, List.nil_append]
  exact if_congr Iff.rfl rfl rfl

theorem evaluateOpenly_eq_ok_iff {e : Endpoint} {context : Option Context} {p : Probe} :
    e.evaluateOpenly context = .ok p ↔ ¬ e.Overflows context ∧ p = e.openResult context := by
  rw [evaluateOpenly_eq, Abort.ite_eq_ok_iff]

/-- The result of an endpoint, where no condition stops: the one before redaction, with the point in
time and without what the settings hide. -/
def healthResult (e : Endpoint) (now : Timestamp) (context : Option Context) : Probe :=
  redact e.ui { e.openResult context with timestamp := some now }

/-- **Evaluating an endpoint.** It stops where one of the conditions does. -/
theorem evaluateHealth_eq (e : Endpoint) (now : Timestamp) (context : Option Context) :
    e.evaluateHealth now context =
      if e.Overflows context then .error .overflow else .ok (e.healthResult now context) := by
  unfold evaluateHealth
  rw [evaluateOpenly_eq]
  split_ifs <;> rfl

theorem evaluateHealth_eq_ok_iff {e : Endpoint} {now : Timestamp} {context : Option Context}
    {p : Probe} :
    e.evaluateHealth now context = .ok p ↔
      ¬ e.Overflows context ∧ p = e.healthResult now context := by
  rw [evaluateHealth_eq, Abort.ite_eq_ok_iff]

/-- The endpoint recorded no errors, and all its conditions hold of what it recorded. -/
structure Healthy (e : Endpoint) (context : Option Context) : Prop where
  errors : e.result.errors = []
  conditions : ∀ c ∈ e.conditions, c.answer e.ui.display context e.result = .ok true

/-- The verdict before redaction is that the endpoint is healthy. -/
theorem success_openResult_iff {e : Endpoint} {context : Option Context}
    (h : ¬ e.Overflows context) : (e.openResult context).success = true ↔ e.Healthy context := by
  have hover : ∀ c ∈ e.conditions, ¬ c.Overflows context e.result :=
    fun c hc hc' => h ⟨c, hc, hc'⟩
  rw [openResult, Bool.and_eq_true, List.isEmpty_iff, List.all_eq_true]
  constructor
  · rintro ⟨herrors, hall⟩
    exact ⟨herrors, fun c hc => Condition.answer_eq_ok_iff.2 ⟨hover c hc, hall c hc⟩⟩
  · intro hhealthy
    exact ⟨hhealthy.errors, fun c hc => (Condition.answer_eq_ok_iff.1 (hhealthy.conditions c hc)).2⟩

/-- The errors before redaction are the recorded ones, as they stand, and behind them the rejections
of invalid conditions. -/
theorem errors_openResult (e : Endpoint) (context : Option Context) :
    e.result.errors <+: (e.openResult context).errors ∧
      ∀ error, error ∈ (e.openResult context).errors ↔
        error ∈ e.result.errors ∨
          ∃ c ∈ e.conditions, c.split = none ∧ error = c.rejection := by
  unfold openResult
  dsimp only
  generalize e.conditions = cs
  generalize e.result.errors = errors
  -- What one condition does to the errors, for one condition after the other.
  induction cs generalizing errors with
  | nil => simp
  | cons c cs ih =>
    obtain ⟨hbefore, hmem⟩ := ih (Condition.recordRejection errors c)
    rw [List.foldl_cons]
    refine ⟨(Condition.prefix_recordRejection errors c).trans hbefore, fun error => ?_⟩
    simp only [hmem, Condition.mem_recordRejection, List.mem_cons, exists_eq_or_imp, or_assoc]

/-! ## Valid conditions -/

variable {cs : List Condition}

/-- Valid conditions record nothing. -/
theorem foldl_recordRejection_of_valid (h : ∀ c ∈ cs, c.split.isSome = true) (errors : List Text) :
    cs.foldl Condition.recordRejection errors = errors := by
  induction cs generalizing errors with
  | nil => rfl
  | cons c cs ih =>
    have hrest : ∀ c' ∈ cs, c'.split.isSome = true :=
      fun c' hc' => h c' (List.mem_cons_of_mem c hc')
    rw [List.foldl_cons, Condition.recordRejection_of_valid (h c List.mem_cons_self), ih hrest]

/-- Valid conditions have one outcome each, in order. -/
theorem map_some_outcomes_of_valid (h : ∀ c ∈ cs, c.split.isSome = true) (d : Display)
    (context : Option Context) (p : Probe) :
    (cs.filterMap (·.exactOutcome d context p)).map some =
      cs.map (·.exactOutcome d context p) := by
  rw [List.map_filterMap_some_eq_filter_map_isSome, List.filter_eq_self]
  intro outcome houtcome
  obtain ⟨c, hc, rfl⟩ := List.mem_map.1 houtcome
  rw [Condition.isSome_exactOutcome]
  exact h c hc

end Endpoint

end HealthCheck
