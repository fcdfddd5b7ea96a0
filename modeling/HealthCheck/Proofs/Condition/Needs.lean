import HealthCheck.Proofs.Condition.Evaluation
import HealthCheck.Proofs.Condition.Sight

/-!
# What a condition needs

A condition is independent of a field of the probe result exactly when neither of its operands sees
it or it stops as it is written (`Condition.independentOf_iff`). Where an operand does see it, two
values of the field show differently in the outcome: what the operand came to stands in parentheses
behind it, as one and two or as the two truth values, and nothing of that is cut off. If the
condition should stop at one of these values, an empty field tells the difference.

The answers of `needsBody`, `needsIp` and `needsDomainExpiration` look for a placeholder in capitals
only, whereas operands are resolved in any case of letters. `Condition.needs_sound_iff` says for
which conditions the answers can be relied on.
-/

namespace HealthCheck

/-! ## Showing what was seen -/

namespace Display

/-- What of an operand with a text is shown under an operator. -/
def shown (o : Operator) (operand t : Text) : Text :=
  if o.isOrdering then showNumberBy Duration.exactValue? operand t.exactNumber else t

theorem shown_of_isOrdering {o : Operator} (h : o.isOrdering = true) (operand t : Text) :
    shown o operand t = showNumberBy Duration.exactValue? operand t.exactNumber := if_pos h

theorem shown_of_not_isOrdering {o : Operator} (h : o.isOrdering = false) (operand t : Text) :
    shown o operand t = t := if_neg (by simp [h])

/-- What is shown depends on what the operator takes of the text. -/
theorem shown_congr {o : Operator} {s t : Text} (hs : o.isOrdering = true → ¬ Duration.Overflows s)
    (ht : o.isOrdering = true → ¬ Duration.Overflows t) (h : o.view s = o.view t) (operand : Text) :
    shown o operand s = shown o operand t := by
  unfold Operator.view at h
  cases hordering : o.isOrdering with
  | true =>
    rw [if_pos hordering, if_pos hordering, Text.toNumber_of_not_overflows (hs hordering),
      Text.toNumber_of_not_overflows (ht hordering)] at h
    rw [shown_of_isOrdering hordering, shown_of_isOrdering hordering,
      Except.ok.inj (Sum.inr.inj h)]
  | false =>
    rw [if_neg (by simp [hordering]), if_neg (by simp [hordering])] at h
    rw [Sum.inl.inj h]

/-- A number is shown as a duration or in decimal. -/
theorem showNumberBy_eq (read : Text → Option Int) (operand : Text) (n : Int) :
    showNumberBy read operand n = Duration.write n ∨
      showNumberBy read operand n = Text.ofInt n := by
  unfold showNumberBy
  split
  · exact Or.inl rfl
  · exact Or.inl rfl
  · split_ifs
    · exact Or.inl rfl
    · exact Or.inr rfl

/-- One and two are shown in at most three characters, of which the first tells them apart. -/
theorem shown_one_two (o : Operator) (operand : Text) :
    (∃ r, shown o operand "1".toList = '1' :: r ∧ r.length ≤ 2) ∧
      ∃ r, shown o operand "2".toList = '2' :: r ∧ r.length ≤ 2 := by
  cases hordering : o.isOrdering with
  | false =>
    rw [shown_of_not_isOrdering hordering, shown_of_not_isOrdering hordering]
    exact ⟨⟨[], rfl, by decide⟩, ⟨[], rfl, by decide⟩⟩
  | true =>
    have hone : Text.exactNumber "1".toList = 1 := by decide +kernel
    have htwo : Text.exactNumber "2".toList = 2 := by decide +kernel
    rw [shown_of_isOrdering hordering, shown_of_isOrdering hordering, hone, htwo]
    constructor
    · rcases showNumberBy_eq Duration.exactValue? operand 1 with h | h
      · exact ⟨"ms".toList, h, by decide⟩
      · exact ⟨[], h, by decide⟩
    · rcases showNumberBy_eq Duration.exactValue? operand 2 with h | h
      · exact ⟨"ms".toList, h, by decide⟩
      · exact ⟨[], h, by decide⟩

/-- A text shorter than its operand stands in parentheses behind it. -/
theorem showOperand_of_shorter {operand t : Text} (h : t.length < operand.length) :
    showOperand operand t = operand ++ " (".toList ++ t ++ ")".toList := by
  have hfailure : isFailure operand t = false := by
    rw [isFailure, beq_eq_false_iff_ne]
    intro heq
    rw [heq, Resolution.text, List.length_append] at h
    omega
  have hne : operand ≠ t := by
    intro heq
    rw [heq] at h
    exact Nat.lt_irrefl _ h
  rw [showOperand, hfailure, if_neg Bool.false_ne_true, if_pos hne]

theorem besideOperand_of_short {t : Text} (h : t.length ≤ widthBesidePattern) (other : Text) :
    besideOperand other t = t := by
  rw [besideOperand, abbreviate, if_neg (Nat.not_lt.2 h), ite_self]

/-- Two texts that tell two values of an operand apart wherever they are shown: they begin
differently, are shorter than the operand and are never cut. -/
structure Telling (operand s t : Text) : Prop where
  heads : ∃ c d, s.head? = some c ∧ t.head? = some d ∧ c ≠ d
  first_shorter : s.length < operand.length
  second_shorter : t.length < operand.length
  first_whole : s.length ≤ widthBesidePattern
  second_whole : t.length ≤ widthBesidePattern

/-- Shown beside the same other operand, such texts differ, whatever follows. -/
theorem Telling.showOperand_ne {operand s t : Text} (h : Telling operand s t)
    (other after after' : Text) :
    showOperand operand (besideOperand other s) ++ after ≠
      showOperand operand (besideOperand other t) ++ after' := by
  obtain ⟨c, d, hs, ht, hne⟩ := h.heads
  obtain ⟨s', hs'⟩ := List.head?_eq_some_iff.1 hs
  obtain ⟨t', ht'⟩ := List.head?_eq_some_iff.1 ht
  intro heq
  rw [besideOperand_of_short h.first_whole, besideOperand_of_short h.second_whole,
    showOperand_of_shorter h.first_shorter, showOperand_of_shorter h.second_shorter,
    hs', ht'] at heq
  simp only [List.append_assoc, List.append_cancel_left_eq, List.cons_append,
    List.cons.injEq] at heq
  exact hne heq.1

end Display

namespace Operand

/-- An operand that reaches such a field is at least as long as the shortest placeholder. -/
theorem length_core_of_reaches {operand : Text} {ph : Placeholder} (hph : ph.Deferrable)
    (h : Reaches operand ph) : 4 ≤ (core operand).length := by
  rcases h with htoken | ⟨-, path, ss, hpath, -, -⟩
  · rw [Placeholder.length_of_ofToken? htoken]
    rcases hph with rfl | rfl | rfl <;> decide
  · have hlength := length_of_bodyPath? hpath
    omega

/-- Where an operand sees a field, what it shows tells two values of the field apart. -/
theorem exists_telling {o : Operator} {operand : Text} {ph : Placeholder} (hph : ph.Deferrable)
    (h : Sees o operand ph) :
    ∃ p q : Probe, p.DifferOnlyIn {} ph ∧ q.DifferOnlyIn {} ph ∧
      Display.Telling (Text.trim operand) (Display.shown o operand (resolve operand p none).text)
        (Display.shown o operand (resolve operand q none).text) := by
  have hcore := length_core_of_reaches hph h.1
  have hlength := length_core operand
  by_cases hw : wrapper operand = .presence
  · obtain ⟨hordering, hne⟩ := h.2 hw
    obtain ⟨p, q, hpEmpty, hqEmpty, hp, hq⟩ := exists_false_true hph h.1 hw hne
    rw [hw, if_neg (by decide)] at hlength
    refine ⟨p, q, hpEmpty, hqEmpty, ?_⟩
    rw [hp, hq, Display.shown_of_not_isOrdering hordering,
      Display.shown_of_not_isOrdering hordering]
    have hfalse : "false".toList.length < (Text.trim operand).length := by
      show 5 < _
      omega
    have htrue : "true".toList.length < (Text.trim operand).length := by
      show 4 < _
      omega
    exact ⟨⟨'f', 't', rfl, rfl, by decide⟩, hfalse, htrue, by decide, by decide⟩
  · obtain ⟨p, q, hpEmpty, hqEmpty, hp, hq⟩ := exists_one_two hph h.1 hw
    obtain ⟨⟨r₁, hone, hr₁⟩, ⟨r₂, htwo, hr₂⟩⟩ := Display.shown_one_two o operand
    refine ⟨p, q, hpEmpty, hqEmpty, ?_⟩
    rw [hp, hq]
    show Display.Telling _ (Display.shown o operand "1".toList) (Display.shown o operand "2".toList)
    rw [hone, htwo]
    have hwidth : 3 ≤ Display.widthBesidePattern := by decide
    constructor
    · exact ⟨'1', '2', rfl, rfl, by decide⟩
    all_goals
      rw [List.length_cons]
      omega

end Operand

/-! ## Independence -/

namespace Condition

/-- What evaluating a condition gives and leaves in the probe result, unless it stops: its answer,
the outcomes and the errors. -/
def evaluation (c : Condition) (d : Display) (context : Option Context) (p : Probe) :
    Except Abort (Bool × List ConditionOutcome × List Text) :=
  (c.evaluate d context p).map fun (q, holds) => (holds, q.conditionOutcomes, q.errors)

/-- Evaluating the condition gives the same answer and leaves the same outcomes and errors on any
two probe results that differ only in what a placeholder stands for, or stops on both. -/
def IndependentOf (c : Condition) (ph : Placeholder) : Prop :=
  ∀ (d : Display) (context : Option Context) (p q : Probe), p.DifferOnlyIn q ph →
    c.evaluation d context p = c.evaluation d context q

/-- An operand of the condition sees what a placeholder stands for, and the condition does not stop
as it is written. -/
def Observes (c : Condition) (ph : Placeholder) : Prop :=
  ¬ c.OverflowsAsWritten ∧ ∃ o first second, c.split = some (o, first, second) ∧
    (Operand.Sees o first ph ∨ Operand.Sees o second ph)

/-- An outcome is made of what the operator takes of its operands. -/
theorem outcome_congr {c : Condition} {context : Option Context} {p q : Probe}
    (h : ∀ o first second, c.split = some (o, first, second) →
      o.view (Operand.resolve first p context).text =
          o.view (Operand.resolve first q context).text ∧
        o.view (Operand.resolve second p context).text =
          o.view (Operand.resolve second q context).text)
    (d : Display) : c.outcome d context p = c.outcome d context q := by
  unfold outcome
  cases hsplit : c.split with
  | none => rfl
  | some cut =>
    obtain ⟨o, first, second⟩ := cut
    obtain ⟨hfirst, hsecond⟩ := h o first second hsplit
    unfold Operator.view at hfirst hsecond
    by_cases hordering : o.isOrdering = true
    · rw [if_pos hordering, if_pos hordering] at hfirst hsecond
      simp only [if_pos hordering, compareNumbers, Sum.inr.inj hfirst, Sum.inr.inj hsecond]
    · rw [if_neg hordering, if_neg hordering] at hfirst hsecond
      simp only [if_neg hordering, Sum.inl.inj hfirst, Sum.inl.inj hsecond]

theorem evaluation_of_overflows {c : Condition} {context : Option Context} {p : Probe}
    (h : c.Overflows context p) (d : Display) : c.evaluation d context p = .error .overflow := by
  rw [evaluation, evaluate_eq_overflow_iff.2 h]
  rfl

/-- All that an evaluation shows: its answer, the outcomes and the errors. -/
theorem evaluation_of_not_overflows {c : Condition} {context : Option Context} {p : Probe}
    (h : ¬ c.Overflows context p) (d : Display) :
    c.evaluation d context p =
      .ok (c.holds context p, p.conditionOutcomes ++ (c.exactOutcome d context p).toList,
        recordRejection p.errors c) := by
  rw [evaluation, evaluate_of_not_overflows h]
  rfl

/-- A condition that stops as it is written, or whose operands do not see a field, is independent of
the field. -/
theorem independentOf_of_not_observes {c : Condition} {ph : Placeholder} (h : ¬ c.Observes ph) :
    c.IndependentOf ph := by
  intro d context p q hpq
  by_cases hwritten : c.OverflowsAsWritten
  · rw [evaluation_of_overflows (hwritten.overflows context p),
      evaluation_of_overflows (hwritten.overflows context q)]
  have houtcome : c.outcome d context p = c.outcome d context q := by
    refine outcome_congr (fun o first second hsplit => ⟨?_, ?_⟩) d
    · exact Operand.view_eq_of_not_sees
        (fun hsees => h ⟨hwritten, o, first, second, hsplit, Or.inl hsees⟩) hpq context
    · exact Operand.view_eq_of_not_sees
        (fun hsees => h ⟨hwritten, o, first, second, hsplit, Or.inr hsees⟩) hpq context
  unfold evaluation evaluate
  rw [houtcome]
  match c.outcome d context q with
  | .error _ => rfl
  | .ok none =>
    show Except.ok (false, (p.addError _).conditionOutcomes, (p.addError _).errors) =
      Except.ok (false, (q.addError _).conditionOutcomes, (q.addError _).errors)
    rw [Probe.conditionOutcomes_addError, Probe.conditionOutcomes_addError, Probe.errors_addError,
      Probe.errors_addError, hpq.conditionOutcomes, hpq.errors]
  | .ok (some outcome) =>
    show Except.ok (_, p.conditionOutcomes ++ [outcome], p.errors) =
      Except.ok (_, q.conditionOutcomes ++ [outcome], q.errors)
    rw [hpq.conditionOutcomes, hpq.errors]

/-! ## Dependence -/

/-- The setting in which every outcome shows the values of its operands. -/
def showing : Display := ⟨false, true⟩

/-- With the settings that show the most, both operands are shown with their values. -/
theorem exactOutcome_showing {c : Condition} {o : Operator} {first second : Text}
    (h : c.split = some (o, first, second)) (context : Option Context) (p : Probe) :
    ∃ success, c.exactOutcome showing context p = some ⟨Display.showCondition o first second
      (Display.shown o first (Operand.resolve first p context).text)
      (Display.shown o second (Operand.resolve second p context).text), success⟩ := by
  have hresolves : ∀ success, showing.resolves success = true := by decide
  rw [exactOutcome, outcomeBy, h, Option.map_some]
  by_cases hordering : o.isOrdering = true
  · simp only [if_pos hordering, orderingBy, hresolves, Display.shown_of_isOrdering hordering]
    exact ⟨_, rfl⟩
  · rw [Bool.not_eq_true] at hordering
    simp only [hordering, Bool.false_eq_true, if_false, compareTexts, hresolves, if_true,
      Display.shown_of_not_isOrdering hordering]
    exact ⟨_, rfl⟩

/-- An independent condition that does not stop as it is written stops nowhere where only the field
is filled. -/
theorem IndependentOf.not_overflows {c : Condition} {ph : Placeholder} (h : c.IndependentOf ph)
    (hwritten : ¬ c.OverflowsAsWritten) {p : Probe} (hp : p.DifferOnlyIn {} ph) :
    ¬ c.Overflows none p := by
  intro hover
  have hempty : ¬ c.Overflows none {} := fun hstops => hwritten (overflows_empty_iff.1 hstops)
  have hsame := h {} none p {} hp
  rw [evaluation_of_overflows hover, evaluation_of_not_overflows hempty] at hsame
  cases hsame

/-- What an independent condition shows of its operands is the same on any two probe results on
which it does not stop. -/
theorem IndependentOf.showCondition_eq {c : Condition} {ph : Placeholder}
    (h : c.IndependentOf ph) {o : Operator} {first second : Text}
    (hsplit : c.split = some (o, first, second)) {p q : Probe} (hpq : p.DifferOnlyIn q ph)
    (hp : ¬ c.Overflows none p) (hq : ¬ c.Overflows none q) :
    Display.showCondition o first second
        (Display.shown o first (Operand.resolve first p none).text)
        (Display.shown o second (Operand.resolve second p none).text) =
      Display.showCondition o first second
        (Display.shown o first (Operand.resolve first q none).text)
        (Display.shown o second (Operand.resolve second q none).text) := by
  obtain ⟨sp, hshowp⟩ := exactOutcome_showing hsplit none p
  obtain ⟨sq, hshowq⟩ := exactOutcome_showing hsplit none q
  have hsame := h showing none p q hpq
  rw [evaluation_of_not_overflows hp, evaluation_of_not_overflows hq, hshowp, hshowq] at hsame
  have houtcomes : p.conditionOutcomes ++ [_] = q.conditionOutcomes ++ [_] :=
    (Prod.mk.inj (Prod.mk.inj (Except.ok.inj hsame)).2).1
  rw [hpq.conditionOutcomes] at houtcomes
  exact (ConditionOutcome.mk.inj (List.cons.inj (List.append_cancel_left houtcomes)).1).1

/-- A condition of which an operand sees a field is not independent of it. -/
theorem not_independentOf_of_observes {c : Condition} {ph : Placeholder}
    (hph : Placeholder.Deferrable ph) (h : c.Observes ph) : ¬ c.IndependentOf ph := by
  obtain ⟨hwritten, o, first, second, hsplit, hsees⟩ := h
  obtain ⟨htrimFirst, htrimSecond⟩ := trim_of_split hsplit
  intro hindependent
  -- The outcomes differ within the first operand that sees the field: what stands before it does
  -- not, and what follows may differ as it will.
  by_cases hseesFirst : Operand.Sees o first ph
  · obtain ⟨p, q, hp, hq, htelling⟩ := Operand.exists_telling hph hseesFirst
    have hshow := hindependent.showCondition_eq hsplit (hp.trans hq.symm)
      (hindependent.not_overflows hwritten hp) (hindependent.not_overflows hwritten hq)
    rw [htrimFirst] at htelling
    rw [Display.showCondition, Display.showCondition, List.append_assoc, List.append_assoc] at hshow
    exact htelling.showOperand_ne second _ _ hshow
  · have hseesSecond : Operand.Sees o second ph := hsees.resolve_left hseesFirst
    obtain ⟨p, q, hp, hq, htelling⟩ := Operand.exists_telling hph hseesSecond
    have hpq : p.DifferOnlyIn q ph := hp.trans hq.symm
    have hnotp := hindependent.not_overflows hwritten hp
    have hnotq := hindependent.not_overflows hwritten hq
    have hshow := hindependent.showCondition_eq hsplit hpq hnotp hnotq
    rw [overflows_iff_of_split hsplit] at hnotp hnotq
    have hblind : Display.shown o first (Operand.resolve first p none).text =
        Display.shown o first (Operand.resolve first q none).text :=
      Display.shown_congr (fun ho hover => hnotp ⟨ho, Or.inl hover⟩)
        (fun ho hover => hnotq ⟨ho, Or.inl hover⟩)
        (Operand.view_eq_of_not_sees hseesFirst hpq none) first
    rw [htrimSecond] at htelling
    rw [Display.showCondition, Display.showCondition, hblind] at hshow
    refine htelling.showOperand_ne first [] [] ?_
    rw [List.append_nil, List.append_nil]
    exact List.append_cancel_left hshow

/-- A condition is independent of such a field exactly when neither of its operands sees it or it
stops as it is written. -/
theorem independentOf_iff {c : Condition} {ph : Placeholder} (hph : Placeholder.Deferrable ph) :
    c.IndependentOf ph ↔ ¬ c.Observes ph := by
  constructor
  · exact fun hindependent hobserves => not_independentOf_of_observes hph hobserves hindependent
  · exact independentOf_of_not_observes

/-! ## The answers of the condition -/

theorem mentions_sound_iff (c : Condition) {ph : Placeholder} (hph : Placeholder.Deferrable ph) :
    (c.mentions ph = false → c.IndependentOf ph) ↔ (c.Observes ph → c.mentions ph = true) := by
  rw [independentOf_iff hph]
  cases c.mentions ph <;> simp

/-- **Soundness of the answers.** That a condition does not need a field tells that it is
independent of the field exactly for the conditions that have the placeholder in capitals wherever
an operand sees the field, apart from those that stop as they are written. -/
theorem needs_sound_iff (c : Condition) :
    ((c.needsBody = false → c.IndependentOf .body) ↔
        (c.Observes .body → c.needsBody = true)) ∧
      ((c.needsIp = false → c.IndependentOf .ip) ↔
        (c.Observes .ip → c.needsIp = true)) ∧
      ((c.needsDomainExpiration = false → c.IndependentOf .domainExpiration) ↔
        (c.Observes .domainExpiration → c.needsDomainExpiration = true)) :=
  ⟨c.mentions_sound_iff (Or.inl rfl), c.mentions_sound_iff (Or.inr (Or.inl rfl)),
    c.mentions_sound_iff (Or.inr (Or.inr rfl))⟩

/-- In small letters a placeholder is resolved like any other, but the answers miss it. -/
theorem small_letters_are_missed :
    ((⟨"[body] == x".toList⟩ : Condition).needsBody = false ∧
        ¬ (⟨"[body] == x".toList⟩ : Condition).IndependentOf .body) ∧
      ((⟨"[ip] == x".toList⟩ : Condition).needsIp = false ∧
        ¬ (⟨"[ip] == x".toList⟩ : Condition).IndependentOf .ip) ∧
      ((⟨"[domain_expiration] == 1".toList⟩ : Condition).needsDomainExpiration = false ∧
        ¬ (⟨"[domain_expiration] == 1".toList⟩ : Condition).IndependentOf .domainExpiration) := by
  refine ⟨⟨by decide, ?_⟩, ⟨by decide, ?_⟩, ⟨by decide, ?_⟩⟩
  · intro h
    have hsame := h {} none { body := [0x78] } {} rfl
    exact absurd hsame (by decide +kernel)
  · intro h
    have hsame := h {} none { ip := "x".toList } {} rfl
    exact absurd hsame (by decide +kernel)
  · intro h
    have hsame := h {} none { domainExpiration := 1 } {} rfl
    exact absurd hsame (by decide +kernel)

end Condition

end HealthCheck
