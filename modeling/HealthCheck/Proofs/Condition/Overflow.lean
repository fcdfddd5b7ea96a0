import HealthCheck.Proofs.Condition.Equations
import HealthCheck.Proofs.Number.Ordering
import HealthCheck.Proofs.Operand.Wrappers

/-!
# Conditions that stop

Evaluating an ordering reads four texts as durations: what its operands resolved to, for their
numbers, and the operands as written, to show them. It stops where a component overflows in what an
operand resolved to (`Condition.Overflows`). An operand in which one overflows as it is written
begins like a number and so stands for itself, which leaves nothing for the showing to stop at.
Every other condition has the outcome that exact numbers give it: `Condition.outcome_eq`.

On an empty probe result an operand comes to a text in which a component overflows only if it is
written so (`Condition.overflows_empty_iff`), and then it does so on every probe result.
-/

namespace HealthCheck

/-! ## Texts in which a component overflows -/

namespace Duration

/-- What components are read from begins with a character of a number. -/
theorem isNumeric_head_of_leading {pieces : List Text} (h : leading pieces ≠ []) :
    ∃ c rest, pieces.flatten = c :: rest ∧ isNumeric c = true := by
  match pieces with
  | [] => exact absurd rfl h
  | [_] => exact absurd rfl h
  | number :: unit :: rest =>
    rw [leading_cons] at h
    cases hread : (if number.all isNumeric then component? number unit else none) with
    | none =>
      rw [hread] at h
      exact absurd rfl h
    | some c =>
      obtain ⟨hnumeric, hc⟩ := Option.ite_none_right_eq_some.1 hread
      obtain ⟨number', unit', heq, hne, -, hnumeric', -⟩ :=
        (spelled_of_component? (List.all_eq_true.1 hnumeric) hc).exists_component?
      obtain ⟨d, ds, rfl⟩ := List.exists_cons_of_ne_nil hne
      refine ⟨d, ds ++ unit' ++ rest.flatten, ?_, hnumeric' d List.mem_cons_self⟩
      rw [List.flatten_cons, List.flatten_cons, ← List.append_assoc, heq]
      rfl

/-- A text in which a component overflows begins with a sign or a character of a number. -/
theorem Overflows.exists_head {t : Text} (h : Overflows t) :
    ∃ c rest, t = c :: rest ∧ (c = '-' ∨ c = '+' ∨ isNumeric c = true) := by
  have hmet : met t ≠ [] := by
    intro hnil
    rw [Overflows, hnil] at h
    exact not_overflowsFrom_nil h
  obtain ⟨c, rest, hflatten, hc⟩ := isNumeric_head_of_leading hmet
  rw [Text.runs, List.flatten_splitBy] at hflatten
  obtain ⟨sign, ht, hsign⟩ := Text.exists_isSign t
  rw [hflatten] at ht
  generalize (Text.signed t).1 = negative at hsign
  cases hsign with
  | none => exact ⟨c, rest, ht, Or.inr (Or.inr hc)⟩
  | plus => exact ⟨_, _, ht, Or.inr (Or.inl rfl)⟩
  | minus => exact ⟨_, _, ht, Or.inl rfl⟩

/-- What such a text begins with begins neither a placeholder nor a wrapper. -/
theorem Overflows.head_spec {c : Char} (h : c = '-' ∨ c = '+' ∨ isNumeric c = true) :
    c.toLower ≠ '[' ∧ c ≠ 'l' ∧ c ≠ 'h' := by
  have hcases : c = '-' ∨ c = '+' ∨ c = '.' ∨ c.isDigit = true := by
    rcases h with h | h | h
    · exact Or.inl h
    · exact Or.inr (Or.inl h)
    · rw [isNumeric, Bool.or_eq_true, beq_iff_eq] at h
      exact Or.inr (Or.inr h.symm)
  rcases hcases with rfl | rfl | rfl | hdigit
  · decide
  · decide
  · decide
  · rw [Text.toLower_of_isDigit hdigit]
    refine ⟨?_, ?_, ?_⟩ <;> rintro rfl <;> exact absurd hdigit (by decide)

/-- No duration begins like a placeholder or a wrapper does. -/
theorem not_overflows_of_head {c : Char} {t : Text} (h : c.toLower = '[' ∨ c = 'l' ∨ c = 'h') :
    ¬ Overflows (c :: t) := by
  intro hover
  obtain ⟨c', rest, heq, hc⟩ := hover.exists_head
  obtain ⟨rfl, -⟩ := List.cons.inj heq
  obtain ⟨hbracket, hl, hh⟩ := Overflows.head_spec hc
  rcases h with h | h | h
  · exact hbracket h
  · exact hl h
  · exact hh h

theorem not_overflows_ofBool (b : Bool) : ¬ Overflows (Text.ofBool b) := by
  cases b <;> decide +kernel

end Duration

/-! ## Operands -/

namespace Operand

/-- An operand in which a component overflows as it is written stands for itself. -/
theorem resolve_of_overflows {t : Text} (htrim : Text.trim t = t) (h : Duration.Overflows t)
    (p : Probe) (context : Option Context) : resolve t p context = .found t := by
  obtain ⟨c, rest, rfl, hc⟩ := h.exists_head
  obtain ⟨hbracket, hl, hh⟩ := Duration.Overflows.head_spec hc
  exact resolve_literal htrim hbracket hl hh p context

/-- What stands for something fixed comes to a short text on an empty probe result. -/
theorem not_overflows_ofFixed_empty {w : Wrapper} {ph : Placeholder} {t : Text}
    (h : ofFixed w {} ph = some t) : ¬ Duration.Overflows t := by
  cases ph with
  | context => cases h
  | _ =>
    obtain rfl := Option.some.inj h
    cases w <;> decide +kernel

/-- Nothing is found in an empty body. -/
theorem lookupBody_empty (path : Text) : lookupBody path ({} : Probe).body = none := by
  rw [lookupBody]
  cases hsteps : JsonPath.steps (dropDot path) with
  | ok ss =>
    rw [JsonPath.eval_of_steps hsteps]
    rfl
  | error e =>
    rw [JsonPath.eval, hsteps]
    rfl

/-- A failed lookup shows the operand, which begins with a placeholder or a wrapper. -/
theorem not_overflows_failed {operand : Text}
    (h : wrapper operand = .length ∨ (bodyPath? (core operand)).isSome = true) :
    ¬ Duration.Overflows (Resolution.failed (Text.trim operand)).text := by
  rw [Resolution.text, ← wrap_core operand]
  cases hw : wrapper operand with
  | length => exact Duration.not_overflows_of_head (c := 'l') (Or.inr (Or.inl rfl))
  | presence => exact Duration.not_overflows_of_head (c := 'h') (Or.inr (Or.inr rfl))
  | none =>
    rw [hw] at h
    obtain ⟨path, hpath⟩ := Option.isSome_iff_exists.1 (h.resolve_left (by decide))
    obtain ⟨c, rest, hcore, hc⟩ :=
      exists_head_of_startsWith (startsWith_of_strip? (strip?_of_bodyPath? hpath).1)
    rw [hcore]
    exact Duration.not_overflows_of_head (Or.inl hc)

/-- On an empty probe result an operand comes to a text in which a component overflows only if it is
written so. -/
theorem overflows_resolve_empty_iff {t : Text} (htrim : Text.trim t = t) :
    Duration.Overflows (resolve t {} none).text ↔ Duration.Overflows t := by
  constructor
  · intro hover
    cases route t none with
    | context hcontext => cases hcontext
    | fixed _ heq =>
      obtain ⟨u, hfixed, hu⟩ := Option.map_eq_some_iff.1 (heq {})
      rw [← hu] at hover
      exact absurd hover (not_overflows_ofFixed_empty hfixed)
    | @body path hpath heq =>
      have hfailed := not_overflows_failed (Or.inr (by rw [hpath]; rfl) : wrapper t = .length ∨ _)
      rw [heq, lookupBody_empty] at hover
      cases hw : wrapper t with
      | presence =>
        rw [hw] at hover
        exact absurd hover (Duration.not_overflows_ofBool false)
      | _ =>
        rw [hw] at hover
        exact absurd hover hfailed
    | nothing heq =>
      rw [heq] at hover
      cases hw : wrapper t with
      | none =>
        rw [hw] at hover
        rwa [← htrim]
      | length =>
        rw [hw] at hover
        exact absurd hover (not_overflows_failed (Or.inl hw))
      | presence =>
        rw [hw] at hover
        exact absurd hover (Duration.not_overflows_ofBool false)
  · intro hover
    rw [resolve_of_overflows htrim hover]
    exact hover

end Operand

/-! ## Outcomes in terms of what durations are read as -/

/-- The integer as which exact numbers order a text. -/
def Text.exactNumber (t : Text) : Int := t.numberAs (Duration.exactValue? t)

/-- A text is ordered as exact numbers make it, unless a component overflows in it. -/
theorem Text.toNumber_of_not_overflows {t : Text} (h : ¬ Duration.Overflows t) :
    t.toNumber = .ok t.exactNumber := by
  rw [toNumber_eq, Duration.millis?_eq_exactValue? h]
  rfl

namespace Display

/-- How the integer of an operand is shown where durations are read by `read`. -/
def showNumberBy (read : Text → Option Int) (operand : Text) (n : Int) : Text :=
  match Placeholder.ofToken? operand with
  | some .certificateExpiration => Duration.write n
  | some .domainExpiration => Duration.write n
  | _ => if (read operand).isSome then Duration.write n else Text.ofInt n

/-- Showing stops at nothing but an operand that overflows as it is written. -/
theorem showNumber_of_not_overflows {operand : Text} (h : ¬ Duration.Overflows operand) (n : Int) :
    showNumber operand n = .ok (showNumberBy Duration.exactValue? operand n) := by
  unfold showNumber showNumberBy
  rw [Duration.millis?_eq_exactValue? h]
  cases Placeholder.ofToken? operand with
  | none => rfl
  | some ph => cases ph <;> rfl

end Display

namespace Condition

variable (read : Text → Option Int) (c : Condition) (d : Display) (context : Option Context)
  (p : Probe)

/-- The outcome of an ordering condition where durations are read by `read`. -/
def orderingBy (o : Operator) (first second : Text) : ConditionOutcome :=
  let textFirst := (Operand.resolve first p context).text
  let textSecond := (Operand.resolve second p context).text
  let m := textFirst.numberAs (read textFirst)
  let n := textSecond.numberAs (read textSecond)
  let success := o.holds m n
  let shown := Display.showCondition o first second
    (Display.showNumberBy read first m) (Display.showNumberBy read second n)
  ⟨if d.resolves success then shown else c.text, success⟩

/-- The outcome of a condition where durations are read by `read`. -/
def outcomeBy : Option ConditionOutcome :=
  c.split.map fun (o, first, second) =>
    if o.isOrdering then orderingBy read c d context p o first second
    else c.compareTexts d o first second (Operand.resolve first p context).text
      (Operand.resolve second p context).text

/-- The condition is an ordering, and in what one of its operands resolved to a component
overflows. -/
def Overflows : Prop :=
  ∃ o first second, c.split = some (o, first, second) ∧ o.isOrdering = true ∧
    (Duration.Overflows (Operand.resolve first p context).text ∨
      Duration.Overflows (Operand.resolve second p context).text)

variable {c context p}

/-- A condition whose cut is known stops exactly if it is an ordering and an operand comes to a text
that overflows. -/
theorem overflows_iff_of_split {o : Operator} {first second : Text}
    (h : c.split = some (o, first, second)) :
    c.Overflows context p ↔ o.isOrdering = true ∧
      (Duration.Overflows (Operand.resolve first p context).text ∨
        Duration.Overflows (Operand.resolve second p context).text) := by
  constructor
  · rintro ⟨o', first', second', h', hover⟩
    rw [h] at h'
    cases h'
    exact hover
  · exact fun hover => ⟨o, first, second, h, hover⟩

/-- An ordering whose operands came to texts in which nothing overflows has an outcome. -/
theorem compareNumbers_eq {o : Operator} {first second : Text}
    (htrimFirst : Text.trim first = first) (htrimSecond : Text.trim second = second)
    (hfirst : ¬ Duration.Overflows (Operand.resolve first p context).text)
    (hsecond : ¬ Duration.Overflows (Operand.resolve second p context).text) :
    c.compareNumbers d o first second (Operand.resolve first p context).text
        (Operand.resolve second p context).text =
      .ok (c.orderingBy Duration.exactValue? d context p o first second) := by
  -- An operand that overflowed as written would have come to itself.
  have hwritten : ∀ {t : Text}, Text.trim t = t →
      ¬ Duration.Overflows (Operand.resolve t p context).text → ¬ Duration.Overflows t := by
    intro t htrim ht hover
    rw [Operand.resolve_of_overflows htrim hover] at ht
    exact ht hover
  unfold compareNumbers orderingBy
  rw [Text.toNumber_of_not_overflows hfirst, Text.toNumber_of_not_overflows hsecond]
  simp only [Abort.ok_bind, Text.exactNumber,
    Display.showNumber_of_not_overflows (hwritten htrimFirst hfirst),
    Display.showNumber_of_not_overflows (hwritten htrimSecond hsecond)]
  split_ifs <;> rfl

/-- An ordering stops where one of its operands came to a text in which a component overflows. -/
theorem compareNumbers_eq_overflow {o : Operator} {first second s t : Text}
    (h : Duration.Overflows s ∨ Duration.Overflows t) :
    c.compareNumbers d o first second s t = .error .overflow := by
  unfold compareNumbers
  by_cases hs : Duration.Overflows s
  · rw [Text.toNumber_eq_overflow_iff.2 hs]
    rfl
  · rw [Text.toNumber_of_not_overflows hs, Abort.ok_bind,
      Text.toNumber_eq_overflow_iff.2 (h.resolve_left hs)]
    rfl

/-- A condition that stops has no outcome. -/
theorem outcome_of_overflows (h : c.Overflows context p) :
    c.outcome d context p = .error .overflow := by
  obtain ⟨o, first, second, hsplit, hordering, hover⟩ := h
  unfold outcome
  rw [hsplit]
  simp only [if_pos hordering, compareNumbers_eq_overflow d hover]
  rfl

/-- A condition that does not stop has the outcome that exact numbers give it. -/
theorem outcome_of_not_overflows (h : ¬ c.Overflows context p) :
    c.outcome d context p = .ok (c.outcomeBy Duration.exactValue? d context p) := by
  unfold outcome outcomeBy
  cases hsplit : c.split with
  | none => rfl
  | some cut =>
    obtain ⟨o, first, second⟩ := cut
    by_cases hordering : o.isOrdering = true
    · rw [overflows_iff_of_split hsplit, and_iff_right hordering, not_or] at h
      obtain ⟨htrimFirst, htrimSecond⟩ := trim_of_split hsplit
      simp only [if_pos hordering, compareNumbers_eq d htrimFirst htrimSecond h.1 h.2,
        Option.map_some]
      rfl
    · simp only [if_neg hordering, Option.map_some]
      rfl

theorem outcome_eq_overflow_iff :
    c.outcome d context p = .error .overflow ↔ c.Overflows context p := by
  constructor
  · intro hstops
    by_contra h
    rw [outcome_of_not_overflows d h] at hstops
    cases hstops
  · exact outcome_of_overflows d

instance : Decidable (c.Overflows context p) :=
  decidable_of_iff _ (outcome_eq_overflow_iff {})

/-- **What a condition comes to.** Nothing where a component overflows in what an operand of an
ordering resolved to, and else what exact numbers make of it. -/
theorem outcome_eq (c : Condition) (context : Option Context) (p : Probe) :
    c.outcome d context p =
      if c.Overflows context p then .error .overflow
      else .ok (c.outcomeBy Duration.exactValue? d context p) := by
  split_ifs with h
  · exact outcome_of_overflows d h
  · exact outcome_of_not_overflows d h

/-! ## Conditions on an empty probe result -/

/-- The condition is an ordering, and a component overflows in one of its operands as it is
written. -/
def OverflowsAsWritten (c : Condition) : Prop :=
  ∃ o first second, c.split = some (o, first, second) ∧ o.isOrdering = true ∧
    (Duration.Overflows first ∨ Duration.Overflows second)

/-- A condition stops on an empty probe result only if an operand overflows as it is written. -/
theorem overflows_empty_iff : c.Overflows none {} ↔ c.OverflowsAsWritten := by
  refine exists_congr fun o => exists_congr fun first => exists_congr fun second =>
    and_congr_right fun hsplit => ?_
  obtain ⟨htrimFirst, htrimSecond⟩ := trim_of_split hsplit
  rw [Operand.overflows_resolve_empty_iff htrimFirst,
    Operand.overflows_resolve_empty_iff htrimSecond]

/-- Where an operand overflows as it is written, the condition stops on every probe result. -/
theorem OverflowsAsWritten.overflows (h : c.OverflowsAsWritten) (context : Option Context)
    (p : Probe) : c.Overflows context p := by
  obtain ⟨o, first, second, hsplit, hordering, hover⟩ := h
  obtain ⟨htrimFirst, htrimSecond⟩ := trim_of_split hsplit
  refine ⟨o, first, second, hsplit, hordering, hover.imp (fun hfirst => ?_) fun hsecond => ?_⟩
  · rw [Operand.resolve_of_overflows htrimFirst hfirst]
    exact hfirst
  · rw [Operand.resolve_of_overflows htrimSecond hsecond]
    exact hsecond

end Condition

end HealthCheck
