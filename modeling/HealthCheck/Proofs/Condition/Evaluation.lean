import HealthCheck.Proofs.Condition.Overflow

/-!
# What evaluating a condition does

Unless it stops, a condition with an operator appends one outcome to a probe result, and a condition
without one records its rejection among the errors; `Condition.evaluate_eq` says that nothing else
changes.
Which of the two happens is a matter of the condition's text alone. What the outcome is depends on
the observations of the probe result and on the context, and the display settings only decide how
it is worded.
-/

namespace HealthCheck.Condition

variable {c : Condition} {d : Display} {context : Option Context} {p q : Probe}

/-! ## Rejection -/

/-- What is recorded of a condition without an operator. -/
def rejection (c : Condition) : Text := "invalid condition: ".toList ++ c.text

/-- Errors after a condition: those before, and its rejection where it has no operator. -/
def recordRejection (errors : List Text) (c : Condition) : List Text :=
  if c.split.isSome ∨ c.rejection ∈ errors then errors else errors ++ [c.rejection]

theorem recordRejection_of_split (h : c.split = none) (errors : List Text) :
    recordRejection errors c =
      if c.rejection ∈ errors then errors else errors ++ [c.rejection] := by
  simp only [recordRejection, h, Option.isSome_none, Bool.false_eq_true, false_or]

/-- A condition takes no error away and moves none. -/
theorem prefix_recordRejection (errors : List Text) (c : Condition) :
    errors <+: recordRejection errors c := by
  unfold recordRejection
  split
  · exact List.prefix_refl errors
  · exact List.prefix_append errors _

/-- The errors after a condition are those before, and its rejection where it has no operator. -/
theorem mem_recordRejection {errors : List Text} {error : Text} :
    error ∈ recordRejection errors c ↔
      error ∈ errors ∨ (c.split = none ∧ error = c.rejection) := by
  cases hsplit : c.split with
  | some cut => simp [recordRejection, hsplit]
  | none =>
    rw [recordRejection_of_split hsplit]
    by_cases hmem : c.rejection ∈ errors
    · rw [if_pos hmem]
      constructor
      · exact Or.inl
      · rintro (herror | ⟨-, rfl⟩)
        · exact herror
        · exact hmem
    · simp [hmem]

/-! ## Outcomes -/

/-- The outcome of a condition, as exact numbers make it. -/
def exactOutcome (c : Condition) (d : Display) (context : Option Context) (p : Probe) :
    Option ConditionOutcome :=
  c.outcomeBy Duration.exactValue? d context p

theorem isSome_exactOutcome (c : Condition) (d : Display) (context : Option Context) (p : Probe) :
    (c.exactOutcome d context p).isSome = c.split.isSome :=
  Option.isSome_map

theorem exactOutcome_of_sameObservations (h : p.SameObservations q) :
    c.exactOutcome d context p = c.exactOutcome d context q := by
  unfold exactOutcome outcomeBy orderingBy
  simp only [h.resolve_eq]

theorem overflows_of_sameObservations (h : p.SameObservations q) :
    c.Overflows context p ↔ c.Overflows context q := by
  unfold Overflows
  simp only [h.resolve_eq]

/-- The settings word an outcome and do not decide it. -/
theorem success_exactOutcome (c : Condition) (d d' : Display) (context : Option Context)
    (p : Probe) :
    (c.exactOutcome d context p).map ConditionOutcome.success =
      (c.exactOutcome d' context p).map ConditionOutcome.success := by
  unfold exactOutcome outcomeBy
  rw [Option.map_map, Option.map_map]
  congr 1
  funext cut
  obtain ⟨o, first, second⟩ := cut
  by_cases hordering : o.isOrdering = true
  · simp only [Function.comp_apply, if_pos hordering, orderingBy]
  · simp only [Function.comp_apply, if_neg hordering, compareTexts]

/-- The condition has an operator and holds. -/
def holds (c : Condition) (context : Option Context) (p : Probe) : Bool :=
  (c.exactOutcome {} context p).any ConditionOutcome.success

/-- The display settings do not change whether a condition holds. -/
theorem any_success_exactOutcome (c : Condition) (d : Display) (context : Option Context)
    (p : Probe) :
    (c.exactOutcome d context p).any ConditionOutcome.success = c.holds context p := by
  have hsuccess := success_exactOutcome c d {} context p
  unfold holds
  cases h : c.exactOutcome d context p with
  | none =>
    rw [h] at hsuccess
    rw [Option.map_eq_none_iff.1 hsuccess.symm]
  | some outcome =>
    rw [h] at hsuccess
    obtain ⟨outcome', h', heq⟩ := Option.map_eq_some_iff.1 hsuccess.symm
    rw [h', Option.any_some, Option.any_some, heq]

theorem holds_of_sameObservations (h : p.SameObservations q) :
    c.holds context p = c.holds context q := by
  rw [holds, exactOutcome_of_sameObservations h, holds]

/-! ## Evaluation -/

/-- The probe result after a condition that does not stop. -/
def appendTo (c : Condition) (d : Display) (context : Option Context) (p : Probe) : Probe :=
  { p with
    errors := recordRejection p.errors c
    conditionOutcomes := p.conditionOutcomes ++ (c.exactOutcome d context p).toList }

/-- **One condition.** Unless it stops, evaluating it appends the outcome, if there is one, or else
records the rejection, and leaves the rest of the probe result as it was. -/
theorem evaluate_eq (c : Condition) (d : Display) (context : Option Context) (p : Probe) :
    c.evaluate d context p =
      if c.Overflows context p then .error .overflow
      else .ok (c.appendTo d context p, c.holds context p) := by
  have hsome := isSome_exactOutcome c d context p
  unfold evaluate
  rw [outcome_eq, ← any_success_exactOutcome c d, appendTo]
  split_ifs with hover
  · rfl
  · rw [Abort.ok_bind, ← exactOutcome]
    cases h : c.exactOutcome d context p with
    | none =>
      have hsplit : c.split = none := by
        rw [h] at hsome
        simpa using hsome.symm
      rw [recordRejection_of_split hsplit, Probe.addError_eq]
      simp only [Option.toList_none, List.append_nil, Option.any_none]
      rfl
    | some outcome =>
      have hvalid : c.split.isSome = true := by
        rw [← hsome, h]
        rfl
      rw [recordRejection, if_pos (Or.inl hvalid)]
      rfl

/-- A condition that does not stop appends what it has to and answers whether it holds. -/
theorem evaluate_of_not_overflows (h : ¬ c.Overflows context p) (d : Display) :
    c.evaluate d context p = .ok (c.appendTo d context p, c.holds context p) := by
  rw [evaluate_eq, if_neg h]

/-- Evaluating a condition has no result exactly where a component overflows in what it reads. -/
theorem evaluate_eq_overflow_iff :
    c.evaluate d context p = .error .overflow ↔ c.Overflows context p := by
  rw [evaluate_eq, Abort.ite_eq_overflow_iff]

/-- The answer of an evaluation, if there is one, is whether the condition holds. -/
theorem answer_eq (c : Condition) (d : Display) (context : Option Context) (p : Probe) :
    c.answer d context p =
      if c.Overflows context p then .error .overflow else .ok (c.holds context p) := by
  rw [answer, evaluate_eq]
  split_ifs <;> rfl

theorem answer_eq_ok_iff {holds : Bool} :
    c.answer d context p = .ok holds ↔ ¬ c.Overflows context p ∧ c.holds context p = holds := by
  rw [answer_eq, Abort.ite_eq_ok_iff, eq_comm]

/-- A condition without an operator never stops. -/
theorem not_overflows_of_split (h : c.split = none) : ¬ c.Overflows context p := by
  rintro ⟨o, first, second, hsplit, -⟩
  rw [h] at hsplit
  cases hsplit

/-! ## Validity -/

instance (c : Condition) : Decidable c.OverflowsAsWritten :=
  decidable_of_iff _ overflows_empty_iff

/-- A condition is valid exactly when it has an operator: on an empty probe result too, nothing but
a rejection is recorded as an error. Checking stops where an operand overflows as it is written. -/
theorem validate_eq (c : Condition) :
    c.validate =
      if c.OverflowsAsWritten then .error .overflow
      else .ok (if c.split.isSome then .ok () else .error (.invalidCondition c.text)) := by
  unfold validate
  rw [evaluate_eq, ← if_congr overflows_empty_iff.symm rfl rfl]
  split_ifs with hover hsplit
  · rfl
  · have hnone : recordRejection [] c = [] := if_pos (Or.inl hsplit)
    show Except.ok (if (recordRejection [] c).isEmpty then _ else _) = _
    rw [hnone]
    rfl
  · have hcut : c.split = none := by simpa using hsplit
    have hone : recordRejection [] c = [c.rejection] := recordRejection_of_split hcut []
    show Except.ok (if (recordRejection [] c).isEmpty then _ else _) = _
    rw [hone]
    rfl

/-- Only a condition without an operator is rejected. -/
theorem split_eq_none_of_validate {cause : Error} (h : c.validate = .ok (.error cause)) :
    c.split = none := by
  cases hsplit : c.split with
  | none => rfl
  | some cut =>
    rw [validate_eq, hsplit, Option.isSome_some, if_pos rfl] at h
    split_ifs at h
    cases h

/-- A condition with an operator records nothing. -/
theorem recordRejection_of_valid (h : c.split.isSome = true) (errors : List Text) :
    recordRejection errors c = errors :=
  if_pos (Or.inl h)

end HealthCheck.Condition
