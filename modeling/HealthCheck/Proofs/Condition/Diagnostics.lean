import HealthCheck.Proofs.Condition.Evaluation
import HealthCheck.Proofs.Operand.Wrappers
import HealthCheck.Proofs.Suite.Refusal

/-!
# What an equation shows of its operands

Where the outcome of an equation shows values, each operand is to be stated (`Display.stated`):
alone where it stands for itself, with the mark behind it where its lookup failed, and else with its
value in parentheses, cut beside a pattern.

What is shown is worked out from the resolved text alone, after it has been cut, so it can be read
wrongly. A literal or a failed lookup that is cut shows as if it had come to something else, and a
text that was found shows as a failed lookup or as a literal where it, or what is left of it, reads
as one. `Display.Misshown` lists these cases with what is shown in them, and
`Condition.evaluate_states_operands_iff` says that there are no others.
-/

namespace HealthCheck

/-! ## Operands that stand for themselves -/

namespace Operand

/-- A failed lookup keeps the operand as it was written. -/
theorem eq_trim_of_resolve_failed {operand raw : Text} {p : Probe} {context : Option Context}
    (h : resolve operand p context = .failed raw) : raw = Text.trim operand := by
  rcases resolve_eq_none_or_lookup operand context with hobserved | ⟨c, path, -, -, hlookup⟩
  · rw [hobserved] at h
    exact (resolve_eq_failed_iff.1 h).2
  · rw [hlookup] at h
    exact (ofLookup_eq_failed_iff.1 h).2

end Operand

/-! ## Stating an operand -/

namespace Display

/-- The outcome of an equation with this verdict is to show values. -/
def ShowsValues (d : Display) (verdict : Bool) : Prop :=
  verdict = true ∧ d.showSuccesses = true ∨ verdict = false ∧ d.hideFailures = false

theorem resolves_eq_true_iff {d : Display} {verdict : Bool} :
    d.resolves verdict = true ↔ d.ShowsValues verdict := by
  cases verdict <;> simp [resolves, ShowsValues]

/-- The operand is written as a pattern. -/
def IsPattern (operand : Text) : Prop :=
  ∃ argument, operand = "pat(".toList ++ argument ++ ")".toList

theorem isSome_argument?_iff {operand : Text} :
    (Call.pattern.argument? operand).isSome = true ↔ IsPattern operand := by
  simp only [Option.isSome_iff_exists, Call.argument?_eq_some_iff]
  rfl

instance (operand : Text) : Decidable (IsPattern operand) :=
  decidable_of_iff _ isSome_argument?_iff

/-- The text is too long to be shown in full beside the other operand. -/
def IsCut (other t : Text) : Prop := IsPattern other ∧ 25 < t.length

instance (other t : Text) : Decidable (IsCut other t) :=
  inferInstanceAs (Decidable (_ ∧ _))

/-- What is left of a text that is cut. -/
def shortened (t : Text) : Text := t.take 25 ++ "...(truncated)".toList

/-- A value as it is shown beside the other operand. -/
def valueBeside (other v : Text) : Text := if IsCut other v then shortened v else v

/-- An operand with the mark of a failed lookup. -/
def marked (operand : Text) : Text := operand ++ " (INVALID)".toList

/-- An operand with a value in parentheses. -/
def withValue (operand v : Text) : Text := operand ++ " (".toList ++ v ++ ")".toList

/-- What is to be shown for an operand: itself alone where it stands for itself, the mark behind it
where its lookup failed, and else what was found. -/
def stated (other operand : Text) : Resolution → Text
  | .found v => if v = operand then operand else withValue operand (valueBeside other v)
  | .failed _ => marked operand

/-- The cases in which something else is shown for an operand, and what. -/
inductive Misshown (other operand : Text) : Resolution → Text → Prop
  /-- A literal is cut and no longer reads as itself. -/
  | literal (hcut : IsCut other operand) (hne : shortened operand ≠ operand) :
    Misshown other operand (.found operand) (withValue operand (shortened operand))
  /-- A failed lookup is cut, mark and all. -/
  | failure (hcut : IsCut other (marked operand)) (hne : shortened (marked operand) ≠ operand) :
    Misshown other operand (.failed operand) (withValue operand (shortened (marked operand)))
  /-- A failed lookup is cut, and what is left reads as the operand. -/
  | failureAsLiteral (hcut : IsCut other (marked operand))
    (heq : shortened (marked operand) = operand) :
    Misshown other operand (.failed operand) operand
  /-- A text that was found reads as a failed lookup. -/
  | valueAsFailure (hwhole : ¬ IsCut other (marked operand)) :
    Misshown other operand (.found (marked operand)) (marked operand)
  /-- A text that was found is cut, and what is left reads as the operand. -/
  | valueAsLiteral {v : Text} (hne : v ≠ operand) (hcut : IsCut other v)
    (heq : shortened v = operand) : Misshown other operand (.found v) operand

/-! ### What is shown -/

theorem length_marked (operand : Text) : (marked operand).length = operand.length + 10 :=
  List.length_append

theorem length_withValue (operand v : Text) :
    (withValue operand v).length = operand.length + v.length + 3 := by
  simp only [withValue, List.length_append]
  show operand.length + 2 + v.length + 1 = _
  omega

theorem marked_ne (operand : Text) : marked operand ≠ operand := by
  intro h
  have hlength := congrArg List.length h
  rw [length_marked] at hlength
  omega

theorem text_failed (operand : Text) : (Resolution.failed operand).text = marked operand := rfl

theorem length_shortened {t : Text} (h : 25 < t.length) : (shortened t).length = 39 := by
  rw [shortened, List.length_append, List.length_take_of_le (by omega)]
  rfl

/-- What is cut ends in another bracket than a mark. -/
theorem shortened_ne_marked (t operand : Text) : shortened t ≠ marked operand := by
  intro h
  have hends := congrArg (fun s : Text => s.reverse.take 2) h
  simp only [shortened, marked, List.reverse_append] at hends
  have hletter : some 'd' = some 'D' := congrArg (fun s : Text => s[1]?) hends
  exact absurd hletter (by decide)

theorem valueBeside_of_isCut {other v : Text} (h : IsCut other v) :
    valueBeside other v = shortened v := if_pos h

theorem valueBeside_of_not_isCut {other v : Text} (h : ¬ IsCut other v) :
    valueBeside other v = v := if_neg h

/-- The value beside another operand is cut exactly where it is to be. -/
theorem besideOperand_eq (other v : Text) : besideOperand other v = valueBeside other v := by
  unfold besideOperand abbreviate
  by_cases hpattern : IsPattern other
  · rw [if_pos (isSome_argument?_iff.2 hpattern)]
    by_cases hlong : 25 < v.length
    · rw [valueBeside_of_isCut ⟨hpattern, hlong⟩]
      exact if_pos hlong
    · rw [valueBeside_of_not_isCut fun h => hlong h.2]
      exact if_neg hlong
  · rw [if_neg fun h => hpattern (isSome_argument?_iff.1 h),
      valueBeside_of_not_isCut fun h => hpattern h.1]

theorem showOperand_marked (operand : Text) :
    showOperand operand (marked operand) = marked operand :=
  if_pos (beq_self_eq_true _)

theorem isFailure_eq_true_iff {operand shown : Text} :
    isFailure operand shown = true ↔ shown = marked operand := beq_iff_eq

/-- An operand that comes to itself is shown once. -/
theorem showOperand_self (operand : Text) : showOperand operand operand = operand := by
  have hfailure : ¬ isFailure operand operand = true :=
    fun h => marked_ne operand (isFailure_eq_true_iff.1 h).symm
  rw [showOperand, if_neg hfailure, if_neg (not_not_intro rfl)]

theorem showOperand_of_ne {operand shown : Text} (hmarked : shown ≠ marked operand)
    (hne : shown ≠ operand) : showOperand operand shown = withValue operand shown := by
  rw [showOperand, if_neg (fun h => hmarked (isFailure_eq_true_iff.1 h)), if_pos hne.symm]
  rfl

variable {other operand t : Text} {r : Resolution}

/-- What is shown in a case of `Misshown` is what is made of the resolved text. -/
theorem Misshown.eq_showOperand (h : Misshown other operand r t) :
    t = showOperand operand (valueBeside other r.text) := by
  cases h with
  | literal hcut hne =>
    rw [Resolution.text, valueBeside_of_isCut hcut,
      showOperand_of_ne (shortened_ne_marked _ _) hne]
  | failure hcut hne =>
    rw [text_failed, valueBeside_of_isCut hcut, showOperand_of_ne (shortened_ne_marked _ _) hne]
  | failureAsLiteral hcut heq =>
    rw [text_failed, valueBeside_of_isCut hcut, heq, showOperand_self]
  | valueAsFailure hwhole =>
    rw [Resolution.text, valueBeside_of_not_isCut hwhole, showOperand_marked]
  | valueAsLiteral hne hcut heq =>
    rw [Resolution.text, valueBeside_of_isCut hcut, heq, showOperand_self]

/-- Only a literal or a failed lookup beside a pattern shows too much, and only what is no literal
shows too little. -/
theorem Misshown.length (h : Misshown other operand r t) :
    IsPattern other ∧ (stated other operand r).length < t.length ∨
      r ≠ .found operand ∧ t.length < (stated other operand r).length := by
  cases h with
  | literal hcut hne =>
    refine Or.inl ⟨hcut.1, ?_⟩
    rw [stated, if_pos rfl, length_withValue]
    omega
  | failure hcut hne =>
    refine Or.inl ⟨hcut.1, ?_⟩
    rw [stated, length_withValue, length_shortened hcut.2, length_marked]
    omega
  | failureAsLiteral hcut heq =>
    refine Or.inr ⟨(by simp), ?_⟩
    rw [stated, length_marked]
    omega
  | valueAsFailure hwhole =>
    refine Or.inr ⟨fun h => marked_ne operand (Resolution.found.inj h), ?_⟩
    rw [stated, if_neg (marked_ne operand), valueBeside_of_not_isCut hwhole, length_withValue]
    omega
  | valueAsLiteral hne hcut heq =>
    refine Or.inr ⟨fun h => hne (Resolution.found.inj h), ?_⟩
    rw [stated, if_neg hne, length_withValue]
    omega

/-- Each way to miss what is to be stated does miss it. -/
theorem Misshown.ne_stated (h : Misshown other operand r t) : t ≠ stated other operand r := by
  rintro rfl
  rcases h.length with ⟨-, hlonger⟩ | ⟨-, hshorter⟩
  · exact absurd hlonger (Nat.lt_irrefl _)
  · exact absurd hshorter (Nat.lt_irrefl _)

/-- What is shown for a failed lookup. -/
theorem stated_or_misshown_of_failed (other operand : Text) :
    showOperand operand (valueBeside other (marked operand)) =
        stated other operand (.failed operand) ∨
      Misshown other operand (.failed operand)
        (showOperand operand (valueBeside other (marked operand))) := by
  by_cases hcut : IsCut other (marked operand)
  · rw [valueBeside_of_isCut hcut]
    by_cases heq : shortened (marked operand) = operand
    · rw [heq, showOperand_self]
      exact Or.inr (.failureAsLiteral hcut heq)
    · rw [showOperand_of_ne (shortened_ne_marked _ _) heq]
      exact Or.inr (.failure hcut heq)
  · rw [valueBeside_of_not_isCut hcut, showOperand_marked]
    exact Or.inl rfl

/-- What is shown for a text that was found. -/
theorem stated_or_misshown_of_found (other operand v : Text) :
    showOperand operand (valueBeside other v) = stated other operand (.found v) ∨
      Misshown other operand (.found v) (showOperand operand (valueBeside other v)) := by
  by_cases hv : v = operand
  · subst hv
    rw [stated, if_pos rfl]
    by_cases hcut : IsCut other v
    · rw [valueBeside_of_isCut hcut]
      by_cases heq : shortened v = v
      · rw [heq, showOperand_self]
        exact Or.inl rfl
      · rw [showOperand_of_ne (shortened_ne_marked _ _) heq]
        exact Or.inr (.literal hcut heq)
    · rw [valueBeside_of_not_isCut hcut, showOperand_self]
      exact Or.inl rfl
  · rw [stated, if_neg hv]
    by_cases hcut : IsCut other v
    · rw [valueBeside_of_isCut hcut]
      by_cases heq : shortened v = operand
      · rw [heq, showOperand_self]
        exact Or.inr (.valueAsLiteral hv hcut heq)
      · rw [showOperand_of_ne (shortened_ne_marked _ _) heq]
        exact Or.inl rfl
    · rw [valueBeside_of_not_isCut hcut]
      by_cases hmarked : v = marked operand
      · subst hmarked
        rw [showOperand_marked]
        exact Or.inr (.valueAsFailure hcut)
      · rw [showOperand_of_ne hmarked hv]
        exact Or.inl rfl

/-- What is shown for an operand: what is to be stated, or, in the cases of `Misshown`, what these
say. -/
def ShownFor (other operand : Text) (r : Resolution) (t : Text) : Prop :=
  t = stated other operand r ∧ (∀ u, ¬ Misshown other operand r u) ∨ Misshown other operand r t

/-- What is shown is what is to be stated exactly if none of the ways to miss it applies. -/
theorem ShownFor.eq_stated_iff (h : ShownFor other operand r t) :
    t = stated other operand r ↔ ∀ u, ¬ Misshown other operand r u := by
  rcases h with ⟨heq, hnone⟩ | hmisshown
  · exact iff_of_true heq hnone
  · exact iff_of_false hmisshown.ne_stated fun hnone => hnone _ hmisshown

/-- The code shows one of the forms that are told apart here. -/
theorem shownFor_showOperand (other : Text) (hr : ∀ raw, r = .failed raw → raw = operand) :
    ShownFor other operand r (showOperand operand (besideOperand other r.text)) := by
  rw [besideOperand_eq]
  have hcases : showOperand operand (valueBeside other r.text) = stated other operand r ∨
      Misshown other operand r (showOperand operand (valueBeside other r.text)) := by
    cases r with
    | found v => exact stated_or_misshown_of_found other operand v
    | failed raw =>
      obtain rfl := hr raw rfl
      exact stated_or_misshown_of_failed other raw
  rcases hcases with hstated | hmisshown
  · refine Or.inl ⟨hstated, fun u hu => hu.ne_stated ?_⟩
    rw [hu.eq_showOperand, hstated]
  · exact Or.inr hmisshown

/-- A pattern stands for itself. -/
theorem resolve_pattern (htrim : Text.trim operand = operand) (h : IsPattern operand) (p : Probe)
    (context : Option Context) : Operand.resolve operand p context = .found operand := by
  obtain ⟨argument, rfl⟩ := h
  exact Operand.resolve_literal htrim (by decide) (by decide) (by decide) p context

/-- A pattern stands for itself, so two operands cannot make up for each other. -/
theorem ShownFor.append_eq_iff {first second a b sep : Text} {r₁ r₂ : Resolution}
    (ha : ShownFor second first r₁ a) (hb : ShownFor first second r₂ b)
    (hfirst : IsPattern first → r₁ = .found first)
    (hsecond : IsPattern second → r₂ = .found second) :
    a ++ sep ++ b = stated second first r₁ ++ sep ++ stated first second r₂ ↔
      a = stated second first r₁ ∧ b = stated first second r₂ := by
  refine ⟨fun heq => ?_, fun ⟨hl, hr⟩ => by rw [hl, hr]⟩
  have hlength := congrArg List.length heq
  simp only [List.length_append] at hlength
  suffices hsame : a.length = (stated second first r₁).length by
    obtain ⟨hleft, hright⟩ := List.append_inj heq (by simp [hsame])
    exact ⟨List.append_inj_left hleft hsame, hright⟩
  rcases ha with ⟨rfl, -⟩ | ha
  · rfl
  · -- Where one side shows too much, the other is a pattern and cannot show too little.
    rcases hb with ⟨rfl, -⟩ | hb
    · omega
    · rcases ha.length with ⟨hpattern, hlonger⟩ | ⟨hliteral, hshorter⟩
      · rcases hb.length with ⟨-, hlonger'⟩ | ⟨hliteral, -⟩
        · omega
        · exact absurd (hsecond hpattern) hliteral
      · rcases hb.length with ⟨hpattern, -⟩ | ⟨-, hshorter'⟩
        · exact absurd (hfirst hpattern) hliteral
        · omega

end Display

/-! ## Equations -/

namespace Condition

open Display

/-- The outcome of an equation has the two operands with their values where it is to show these, and
else the condition as written. -/
theorem exists_outcome_of_equation {c : Condition} {o : Operator} {first second : Text}
    (hsplit : c.split = some (o, first, second)) (ho : o = .equal ∨ o = .notEqual) (d : Display)
    (context : Option Context) (p : Probe) :
    ∃ verdict, c.outcome d context p =
      .ok (some ⟨if d.resolves verdict then
          showCondition o first second (Operand.resolve first p context).text
            (Operand.resolve second p context).text
        else c.text, verdict⟩) := by
  have hordering : ¬ o.isOrdering = true := by
    rcases ho with rfl | rfl
    · exact Bool.false_ne_true
    · exact Bool.false_ne_true
  unfold outcome
  rw [hsplit]
  exact ⟨_, if_neg hordering⟩

/-- A condition that has an outcome appends it. -/
theorem evaluate_of_outcome {c : Condition} {d : Display} {context : Option Context} {p : Probe}
    {outcome : ConditionOutcome} (h : c.outcome d context p = .ok (some outcome)) :
    c.evaluate d context p = .ok (p.addOutcome outcome, outcome.success) := by
  unfold evaluate
  rw [h]
  rfl

/-- **What an equation shows.** Its outcome is appended with the condition as written, or, where it
is to show values, with the two operands and the operator between them. These are stated as they are
to be exactly where neither operand is one of the cases of `Misshown`. -/
theorem evaluate_states_operands_iff {c : Condition} {o : Operator} {first second : Text}
    (hsplit : c.split = some (o, first, second)) (ho : o = .equal ∨ o = .notEqual) (d : Display)
    (context : Option Context) (p : Probe) :
    ∃ shown verdict,
      c.evaluate d context p = .ok (p.addOutcome ⟨shown, verdict⟩, verdict) ∧
      (¬ d.ShowsValues verdict → shown = c.text) ∧
      (d.ShowsValues verdict →
        (∃ a b, shown = a ++ o.separator ++ b ∧
          ShownFor second first (Operand.resolve first p context) a ∧
          ShownFor first second (Operand.resolve second p context) b) ∧
        (shown = stated second first (Operand.resolve first p context) ++ o.separator ++
            stated first second (Operand.resolve second p context) ↔
          (∀ t, ¬ Misshown second first (Operand.resolve first p context) t) ∧
            ∀ t, ¬ Misshown first second (Operand.resolve second p context) t)) := by
  obtain ⟨hfirst, hsecond⟩ := trim_of_split hsplit
  have ha := shownFor_showOperand (r := Operand.resolve first p context) second
    fun raw h => (Operand.eq_trim_of_resolve_failed h).trans hfirst
  have hb := shownFor_showOperand (r := Operand.resolve second p context) first
    fun raw h => (Operand.eq_trim_of_resolve_failed h).trans hsecond
  obtain ⟨verdict, houtcome⟩ := exists_outcome_of_equation hsplit ho d context p
  refine ⟨_, verdict, evaluate_of_outcome houtcome, fun hhides => ?_, fun hshows => ?_⟩
  · rw [if_neg (mt resolves_eq_true_iff.1 hhides)]
  · rw [if_pos (resolves_eq_true_iff.2 hshows)]
    refine ⟨⟨_, _, rfl, ha, hb⟩, ?_⟩
    rw [← ha.eq_stated_iff, ← hb.eq_stated_iff]
    exact ha.append_eq_iff hb (fun h => resolve_pattern hfirst h p context)
      fun h => resolve_pattern hsecond h p context

/-- An equation of two patterns, of which the first is long. -/
def twoPatterns : Condition := ⟨"pat(abcdefghijklmnopqrstu) != pat(*)".toList⟩

/-- A long pattern beside another one is shown as if it had come to something else, when a success
is to show values. -/
theorem twoPatterns_misshown :
    (twoPatterns.split =
        some (.notEqual, "pat(abcdefghijklmnopqrstu)".toList, "pat(*)".toList) ∧
      (Operator.notEqual = .equal ∨ Operator.notEqual = .notEqual)) ∧
    ∃ shown, twoPatterns.evaluate { showSuccesses := true } none {} =
        .ok (({} : Probe).addOutcome ⟨shown, true⟩, true) ∧
      shown ≠ "pat(abcdefghijklmnopqrstu) != pat(*)".toList := by
  have hsplit : twoPatterns.split =
      some (.notEqual, "pat(abcdefghijklmnopqrstu)".toList, "pat(*)".toList) := by
    decide +kernel
  have hfirst : Operand.resolve "pat(abcdefghijklmnopqrstu)".toList {} none =
      .found "pat(abcdefghijklmnopqrstu)".toList :=
    resolve_pattern (by decide) ⟨"abcdefghijklmnopqrstu".toList, rfl⟩ {} none
  have hsecond : Operand.resolve "pat(*)".toList {} none = .found "pat(*)".toList :=
    resolve_pattern (by decide) ⟨"*".toList, rfl⟩ {} none
  have hholds : twoPatterns.answer { showSuccesses := true } none {} = .ok true := by
    decide +kernel
  obtain ⟨shown, verdict, hevaluate, -, hshows⟩ :=
    evaluate_states_operands_iff hsplit (Or.inr rfl) { showSuccesses := true } none {}
  obtain rfl : verdict = true := by
    rw [answer, hevaluate] at hholds
    exact Except.ok.inj hholds
  refine ⟨⟨hsplit, Or.inr rfl⟩, shown, hevaluate, fun hshown => ?_⟩
  have hiff := (hshows (Or.inl ⟨rfl, rfl⟩)).2
  rw [hfirst, hsecond] at hiff
  have hcut : IsCut "pat(*)".toList "pat(abcdefghijklmnopqrstu)".toList :=
    ⟨⟨"*".toList, rfl⟩, by decide⟩
  exact (hiff.1 (hshown.trans (by decide))).1 _ (.literal hcut (by decide))

/-- An equation of a path with a pattern. -/
def nameMatches : Condition := ⟨"[BODY].user.name == pat(a*)".toList⟩

/-- A body without anything in it. -/
def emptyObject : Probe := { body := Utf8.encode "\x7b\x7d".toList }

/-- A failed lookup beside a pattern is cut, mark and all, and then wrapped in parentheses. -/
theorem cut_failure_is_wrapped :
    nameMatches.split =
        some (.equal, "[BODY].user.name".toList, "pat(a*)".toList) ∧
      Operand.resolve "[BODY].user.name".toList emptyObject none =
        .failed "[BODY].user.name".toList ∧
      nameMatches.evaluate {} none emptyObject =
        .ok (emptyObject.addOutcome
          ⟨"[BODY].user.name ([BODY].user.name ".toList ++
            "(INVALID...(truncated)) == pat(a*)".toList, false⟩, false) ∧
      ¬ nameMatches.evaluate {} none emptyObject =
        .ok (emptyObject.addOutcome
          ⟨"[BODY].user.name (INVALID) == pat(a*)".toList, false⟩, false) := by
  have hsplit : nameMatches.split =
      some (.equal, "[BODY].user.name".toList, "pat(a*)".toList) := by decide +kernel
  have hfails : Operand.resolve "[BODY].user.name".toList emptyObject none =
      .failed "[BODY].user.name".toList := by decide +kernel
  have houtcome : nameMatches.outcome {} none emptyObject =
      .ok (some ⟨"[BODY].user.name ([BODY].user.name ".toList ++
        "(INVALID...(truncated)) == pat(a*)".toList, false⟩) := by decide +kernel
  refine ⟨hsplit, hfails, evaluate_of_outcome houtcome, fun hclaim => ?_⟩
  rw [evaluate_of_outcome houtcome] at hclaim
  have hlength := congrArg (fun r : Probe × Bool =>
    r.1.conditionOutcomes.map fun outcome => outcome.condition.length) (Except.ok.inj hclaim)
  exact absurd hlength (by decide)

end Condition

end HealthCheck
