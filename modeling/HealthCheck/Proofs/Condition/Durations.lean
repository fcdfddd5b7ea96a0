import HealthCheck.Proofs.Condition.Evaluation

/-!
# Durations in conditions

An ordering condition reads at most four texts as durations: what its operands resolved to, for
their numbers, and the operands as written, to show them. Unless a component overflows in one of
them, the condition is evaluated as exact numbers have it, and else evaluating it stops;
`Duration.readings_inRange_iff` says this together with the range of the values that reading
computes.
-/

namespace HealthCheck

namespace Condition

variable (read : Text → Option Int) (c : Condition) (d : Display) (context : Option Context)
  (p : Probe)

/-- The texts that evaluating a condition reads as durations. -/
def durationTexts : List Text :=
  match c.split with
  | some (o, first, second) =>
    if o.isOrdering then
      [(Operand.resolve first p context).text, (Operand.resolve second p context).text, first,
        second]
    else []
  | none => []

/-- A condition stops where a component overflows in one of the texts that it reads. An operand in
which one overflows as written resolves to itself, so the operands as written add nothing. -/
theorem overflows_iff_durationTexts :
    c.Overflows context p ↔ ∃ t ∈ c.durationTexts context p, Duration.Overflows t := by
  unfold durationTexts
  cases hsplit : c.split with
  | none =>
    refine iff_of_false (not_overflows_of_split hsplit) ?_
    rintro ⟨t, ht, -⟩
    exact List.not_mem_nil ht
  | some cut =>
    obtain ⟨o, first, second⟩ := cut
    rw [overflows_iff_of_split hsplit]
    by_cases hordering : o.isOrdering = true
    · obtain ⟨htrimFirst, htrimSecond⟩ := trim_of_split hsplit
      have hfirst : Duration.Overflows first →
          Duration.Overflows (Operand.resolve first p context).text := by
        intro hover
        rw [Operand.resolve_of_overflows htrimFirst hover]
        exact hover
      have hsecond : Duration.Overflows second →
          Duration.Overflows (Operand.resolve second p context).text := by
        intro hover
        rw [Operand.resolve_of_overflows htrimSecond hover]
        exact hover
      simp only [if_pos hordering, and_iff_right hordering, List.mem_cons, List.not_mem_nil,
        or_false, exists_eq_or_imp, exists_eq_left]
      constructor
      · exact fun h => h.elim Or.inl fun h => Or.inr (Or.inl h)
      · rintro (h | h | h | h)
        · exact Or.inl h
        · exact Or.inr h
        · exact Or.inl (hfirst h)
        · exact Or.inr (hsecond h)
    · simp only [if_neg hordering]
      exact iff_of_false (fun h => hordering h.1) fun ⟨_, ht, _⟩ => List.not_mem_nil ht

/-- Evaluates a condition where durations are read by `read`. -/
def evaluateBy : Probe × Bool :=
  match c.outcomeBy read d context p with
  | some outcome => (p.addOutcome outcome, outcome.success)
  | none => (p.addError (Error.invalidCondition c.text).message, false)

/-- Conditions are evaluated as in exact numbers where no value leaves its word. -/
theorem evaluate_eq_evaluateBy (h : ¬ c.Overflows context p) :
    c.evaluate d context p = .ok (c.evaluateBy Duration.exactValue? d context p) := by
  unfold evaluate evaluateBy
  rw [outcome_of_not_overflows d h, Abort.ok_bind]
  cases c.outcomeBy Duration.exactValue? d context p <;> rfl

end Condition

namespace Duration

/-- **The range of durations.** The values that reading a text as a duration computes fit into their
words exactly where no component overflows. The text is then read as in exact numbers, and else
reading it stops, although exact numbers make it a text that is no duration. What is read fits into
its word, and so do its milliseconds. A condition stops, when it is evaluated and when it is
checked, exactly where a component overflows in one of the texts that it reads; else it is evaluated
as in exact numbers. -/
theorem readings_inRange_iff (t : Text) (c : Condition) (d : Display) (context : Option Context)
    (p : Probe) :
    (((∀ n ∈ computed t, InWord 128 n) ↔ ¬ Overflows t) ∧
      (¬ Overflows t → millis? t = exactMillis? t) ∧
      (Overflows t → millis? t = .error .overflow ∧ exactMillis? t = .ok none) ∧
      (∀ n, nanos? t = .ok (some n) → InWord 128 n ∧ InWord 64 (n.tdiv 1000000))) ∧
    ((∃ s ∈ c.durationTexts context p, Overflows s) →
      c.evaluate d context p = .error .overflow) ∧
    ((∀ s ∈ c.durationTexts context p, ¬ Overflows s) →
      c.evaluate d context p = .ok (c.evaluateBy exactValue? d context p)) ∧
    (c.validate = .error .overflow ↔ ∃ s ∈ c.durationTexts none {}, Overflows s) := by
  refine ⟨⟨computed_inWord_iff t, millis?_eq_exactMillis?,
    fun h => ⟨millis?_eq_overflow_iff.2 h, exactMillis?_of_overflows h⟩,
    fun n => inWord_of_nanos?⟩, fun h => ?_, fun h => ?_, ?_⟩
  · exact Condition.evaluate_eq_overflow_iff.2 ((c.overflows_iff_durationTexts context p).2 h)
  · refine c.evaluate_eq_evaluateBy d context p fun hover => ?_
    obtain ⟨s, hs, hstops⟩ := (c.overflows_iff_durationTexts context p).1 hover
    exact h s hs hstops
  · rw [← Condition.overflows_iff_durationTexts, Condition.overflows_empty_iff, c.validate_eq,
      Abort.ite_eq_overflow_iff]

/-- A condition on a response time. -/
def slowResponse : Condition := ⟨"[RESPONSE_TIME] < 1.5s".toList⟩

/-- A condition on half a second meets no component that overflows, and is evaluated exactly. -/
theorem slowResponse_inRange :
    (∀ t ∈ slowResponse.durationTexts none { duration := 500 }, ¬ Overflows t) ∧
    slowResponse.evaluate {} none { duration := 500 } =
      .ok (slowResponse.evaluateBy exactValue? {} none { duration := 500 }) ∧
    (slowResponse.evaluateBy exactValue? {} none { duration := 500 }).2 = true := by
  have hrange : ∀ t ∈ slowResponse.durationTexts none { duration := 500 }, ¬ Overflows t := by
    decide +kernel
  exact ⟨hrange, (readings_inRange_iff [] slowResponse {} none { duration := 500 }).2.2.1 hrange,
    by decide +kernel⟩

/-- A condition on these microseconds. -/
def widestMicrosPositive : Condition := ⟨widestMicros ++ " > 0".toList⟩

/-- The fraction takes the component out of the word, and reading the text stops where exact numbers
find that it is no duration. A condition on it can neither be checked nor evaluated, although it is
false in exact numbers. -/
theorem fraction_overflows :
    (170141183460469231731687303715884105900 ∈ computed widestMicros ∧
      ¬ InWord 128 170141183460469231731687303715884105900) ∧
    (nanos? widestMicros = .error .overflow ∧ millis? widestMicros = .error .overflow) ∧
    exactMillis? widestMicros = .ok none ∧
    widestMicrosPositive.validate = .error .overflow ∧
    widestMicrosPositive.evaluate {} none {} = .error .overflow ∧
    (widestMicrosPositive.evaluateBy exactValue? {} none {}).2 = false := by
  have hover : widestMicrosPositive.Overflows none {} := by decide +kernel
  refine ⟨?_, ⟨(nanos?_spec _).1 overflows_widestMicros,
    millis?_eq_overflow_iff.2 overflows_widestMicros⟩,
    exactMillis?_of_overflows overflows_widestMicros, ?_,
    Condition.evaluate_eq_overflow_iff.2 hover, ?_⟩
  · decide +kernel
  · rw [Condition.validate_eq, if_pos (Condition.overflows_empty_iff.1 hover)]
  · decide +kernel

end Duration

end HealthCheck
