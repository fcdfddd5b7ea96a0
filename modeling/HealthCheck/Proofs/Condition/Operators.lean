import HealthCheck.Proofs.Condition.Evaluation
import HealthCheck.Proofs.Equality
import HealthCheck.Proofs.Text.Words

/-!
# The six operators as one family

A condition that is put together from two operands and an operator is cut at that operator again, as
long as no operator is among the words of the operands (`Condition.split_ofOperands`). Unless it is
an ordering that stops, it then comes to what the operator makes of the two resolved operands
(`Operator.decides`), and the laws that hold between conditions are laws of that: each operator has
a negation, exchanging the operands exchanges the operator for its mirror image, and texts that are
equal as data are equal in the order.
-/

namespace HealthCheck

/-- Texts that are equal as data are ordered as the same number: they are the same text, or integer
literals of one value. -/
theorem exactNumber_eq_of_isEqual {s t : Text} (h : isEqual s t = true)
    (hs : ∀ call : Call, call.argument? s = none) (ht : ∀ call : Call, call.argument? t = none) :
    s.exactNumber = t.exactNumber := by
  have hliteral : ∀ {t : Text} {n : Int}, Integer.read? t = some n → t.exactNumber = n := by
    intro t n hn
    have hnumber := Text.toNumber_of_read? hn
    have hover : ¬ Duration.Overflows t := by
      rw [← Text.toNumber_eq_overflow_iff, hnumber]
      exact nofun
    rw [Text.toNumber_of_not_overflows hover] at hnumber
    exact Except.ok.inj hnumber
  rw [isEqual_eq_sameValue hs ht] at h
  rcases sameValue_iff.1 h with rfl | ⟨n, hn, hn'⟩
  · rfl
  · rw [hliteral hn, hliteral hn']

namespace Operator

/-! ## Symbols -/

theorem mem_priority (o : Operator) : o ∈ priority := by
  cases o <;> decide

theorem nodup_priority : priority.Nodup := by decide

theorem space_notMem_symbol (o : Operator) : ' ' ∉ o.symbol := by
  cases o <;> decide

theorem symbol_injective : Function.Injective symbol := by
  intro o o'
  cases o <;> cases o' <;> decide

/-! ## What operators make of texts -/

/-- What an operator makes of two resolved operands: an ordering compares their numbers, and the
others tell whether they are equal. -/
def decides (o : Operator) (s t : Text) : Bool :=
  if o.isOrdering then o.holds s.exactNumber t.exactNumber
  else if o = .equal then isEqual s t else !isEqual s t

variable (s t : Text)

theorem decides_notEqual : notEqual.decides s t = !equal.decides s t := rfl

/-- The negation of `<` is `>=`. -/
theorem decides_atLeast : atLeast.decides s t = !below.decides s t := by
  show decide (t.exactNumber ≤ s.exactNumber) = !decide (s.exactNumber < t.exactNumber)
  rw [← decide_not]
  exact decide_eq_decide.2 Int.not_lt.symm

/-- The negation of `>` is `<=`. -/
theorem decides_atMost : atMost.decides s t = !above.decides s t := by
  show decide (s.exactNumber ≤ t.exactNumber) = !decide (t.exactNumber < s.exactNumber)
  rw [← decide_not]
  exact decide_eq_decide.2 Int.not_lt.symm

theorem decides_equal_comm : equal.decides t s = equal.decides s t := isEqual_comm t s

theorem decides_below_swap : below.decides t s = above.decides s t := rfl

theorem decides_atMost_swap : atMost.decides t s = atLeast.decides s t := rfl

variable {s t}

/-- Of texts that are equal as data neither is above the other. -/
theorem decides_of_equal (h : equal.decides s t = true)
    (hs : ∀ call : Call, call.argument? s = none) (ht : ∀ call : Call, call.argument? t = none) :
    below.decides s t = false ∧ above.decides s t = false := by
  have hnumber : s.exactNumber = t.exactNumber := exactNumber_eq_of_isEqual h hs ht
  constructor
  · show decide (s.exactNumber < t.exactNumber) = false
    rw [hnumber]
    exact decide_eq_false (Int.lt_irrefl _)
  · show decide (t.exactNumber < s.exactNumber) = false
    rw [hnumber]
    exact decide_eq_false (Int.lt_irrefl _)

end Operator

namespace Condition

/-! ## Conditions put together -/

/-- The condition with an operator between two operands. -/
def ofOperands (first : Text) (o : Operator) (second : Text) : Condition :=
  ⟨first ++ o.separator ++ second⟩

/-- A text that can stand beside an operator: without blanks at its ends, and with no operator among
its words. -/
structure IsOperand (t : Text) : Prop where
  trimmed : Text.trim t = t
  plain : ∀ o : Operator, o.symbol ∉ Text.words t

variable {first second s t : Text}

/-- At its own operator a condition is cut into the two texts that it was put together from. -/
theorem splitAt?_of_plain (hs : ∀ o : Operator, o.symbol ∉ Text.words s)
    (ht : ∀ o : Operator, o.symbol ∉ Text.words t) (o : Operator) :
    splitAt? o (ofOperands s o t).text = some (Text.trim s, Text.trim t) := by
  have hcut : Text.breakOn? o.separator (s ++ o.separator ++ t) = some (s, t) :=
    Text.breakOn?_spaced o.space_notMem_symbol (hs o) (ht o)
  have hlast : Text.breakOn? o.separator t = none :=
    Text.breakOn?_spaced_eq_none o.space_notMem_symbol (ht o)
  rw [splitAt?, ofOperands, hcut]
  simp only [Option.map_some, hlast, Option.map_none, Option.getD_none]

/-- No other operator stands between spaces in it. -/
theorem splitAt?_of_plain_of_ne (hs : ∀ o : Operator, o.symbol ∉ Text.words s)
    (ht : ∀ o : Operator, o.symbol ∉ Text.words t) {o o' : Operator} (hne : o' ≠ o) :
    splitAt? o' (ofOperands s o t).text = none := by
  have hwords : Text.words (s ++ o.separator ++ t) =
      Text.words s ++ o.symbol :: Text.words t :=
    Text.words_append_spaced o.space_notMem_symbol s t
  have hword : o'.symbol ∉ Text.words (s ++ o.separator ++ t) := by
    rw [hwords, List.mem_append, List.mem_cons]
    rintro (hmem | heq | hmem)
    · exact hs o' hmem
    · exact hne (Operator.symbol_injective heq)
    · exact ht o' hmem
  have hcut : Text.breakOn? o'.separator (s ++ o.separator ++ t) = none :=
    Text.breakOn?_spaced_eq_none o'.space_notMem_symbol hword
  rw [splitAt?, ofOperands, hcut, Option.map_none]

/-- Texts without operators among their words are trimmed when they are taken apart again. -/
theorem split_of_plain (hs : ∀ o : Operator, o.symbol ∉ Text.words s)
    (ht : ∀ o : Operator, o.symbol ∉ Text.words t) (o : Operator) :
    (ofOperands s o t).split = some (o, Text.trim s, Text.trim t) := by
  -- The operators tried before `o` stand nowhere in the text, so `o` is the first to cut it.
  obtain ⟨higher, lower, hpriority⟩ := List.append_of_mem o.mem_priority
  rw [split, List.findSome?_eq_some_iff]
  refine ⟨higher, o, lower, hpriority, ?_, ?_⟩
  · rw [splitAt?_of_plain hs ht, Option.map_some]
  · intro o' ho'
    have hne : o' ≠ o := by
      have hnodup := Operator.nodup_priority
      rw [hpriority, List.nodup_append] at hnodup
      exact hnodup.2.2 o' ho' o List.mem_cons_self
    rw [splitAt?_of_plain_of_ne hs ht hne, Option.map_none]

/-- **Cutting undoes putting together.** -/
theorem split_ofOperands (hfirst : IsOperand first) (hsecond : IsOperand second) (o : Operator) :
    (ofOperands first o second).split = some (o, first, second) := by
  rw [split_of_plain hfirst.plain hsecond.plain, hfirst.trimmed, hsecond.trimmed]

/-- A condition comes to what its operator makes of its resolved operands, unless it is an ordering
and a component overflows in one of them. -/
theorem answer_of_split {c : Condition} {o : Operator} (h : c.split = some (o, first, second))
    (d : Display) (context : Option Context) (p : Probe) :
    c.answer d context p =
      if o.isOrdering = true ∧ (Duration.Overflows (Operand.resolve first p context).text ∨
          Duration.Overflows (Operand.resolve second p context).text) then .error .overflow
      else .ok (o.decides (Operand.resolve first p context).text
        (Operand.resolve second p context).text) := by
  have hholds : c.holds context p = o.decides (Operand.resolve first p context).text
      (Operand.resolve second p context).text := by
    rw [holds, exactOutcome, outcomeBy, h, Option.map_some, Option.any_some, Operator.decides]
    by_cases hordering : o.isOrdering = true
    · simp only [if_pos hordering]
      rfl
    · simp only [if_neg hordering]
      rfl
  rw [answer_eq, hholds]
  exact if_congr (overflows_iff_of_split h) rfl rfl

/-- What evaluating the condition with an operator between two operands returns, unless it stops. -/
def verdict (d : Display) (context : Option Context) (p : Probe) (first : Text) (o : Operator)
    (second : Text) : Except Abort Bool :=
  (ofOperands first o second).answer d context p

theorem verdict_eq (hfirst : IsOperand first) (hsecond : IsOperand second) (o : Operator)
    (d : Display) (context : Option Context) (p : Probe) :
    verdict d context p first o second =
      if o.isOrdering = true ∧ (Duration.Overflows (Operand.resolve first p context).text ∨
          Duration.Overflows (Operand.resolve second p context).text) then .error .overflow
      else .ok (o.decides (Operand.resolve first p context).text
        (Operand.resolve second p context).text) :=
  answer_of_split (split_ofOperands hfirst hsecond o) d context p

/-- **The operators are consistent.** `==` and `!=` always have an answer, and the orderings have
one unless a component overflows in what an operand resolves to. Between two operands, whatever they
resolve to, `!=`, `>=` and `<=` are the negations of `==`, `<` and `>`; the operands of `==` may be
exchanged, and those of `<` and `<=` if the operator becomes `>` or `>=`. Where `==` holds of
operands that resolve to no calls and the orderings have an answer, `<=` and `>=` hold too, and `<`
and `>` do not. -/
theorem operators_agree (hfirst : IsOperand first) (hsecond : IsOperand second) (d : Display)
    (context : Option Context) (p : Probe) :
    (∀ o, verdict d context p first o second = .error .overflow ↔
      (o = .atMost ∨ o = .atLeast ∨ o = .above ∨ o = .below) ∧
        (Duration.Overflows (Operand.resolve first p context).text ∨
          Duration.Overflows (Operand.resolve second p context).text)) ∧
    (verdict d context p first .notEqual second =
        (verdict d context p first .equal second).map not ∧
      verdict d context p first .atLeast second =
        (verdict d context p first .below second).map not ∧
      verdict d context p first .atMost second =
        (verdict d context p first .above second).map not) ∧
    (verdict d context p second .equal first = verdict d context p first .equal second ∧
      verdict d context p second .below first = verdict d context p first .above second ∧
      verdict d context p second .atMost first = verdict d context p first .atLeast second) ∧
    (verdict d context p first .equal second = .ok true →
      (∀ call : Call, call.argument? (Operand.resolve first p context).text = none ∧
        call.argument? (Operand.resolve second p context).text = none) →
      ¬ Duration.Overflows (Operand.resolve first p context).text →
      ¬ Duration.Overflows (Operand.resolve second p context).text →
        verdict d context p first .atMost second = .ok true ∧
        verdict d context p first .atLeast second = .ok true ∧
        verdict d context p first .below second = .ok false ∧
        verdict d context p first .above second = .ok false) := by
  simp only [verdict_eq hfirst hsecond, verdict_eq hsecond hfirst]
  generalize (Operand.resolve first p context).text = s
  generalize (Operand.resolve second p context).text = t
  refine ⟨fun o => ?_, ⟨?_, ?_, ?_⟩, ⟨?_, ?_, ?_⟩, ?_⟩
  · have hordering : o.isOrdering = true ↔
        o = .atMost ∨ o = .atLeast ∨ o = .above ∨ o = .below := by cases o <;> decide
    rw [← hordering, Abort.ite_eq_overflow_iff]
  · rw [Operator.decides_notEqual]
    rfl
  · rw [Operator.decides_atLeast, apply_ite (Except.map not)]
    rfl
  · rw [Operator.decides_atMost, apply_ite (Except.map not)]
    rfl
  · rw [Operator.decides_equal_comm]
    rfl
  · exact if_congr (and_congr Iff.rfl Or.comm) rfl
      (congrArg Except.ok (Operator.decides_below_swap s t))
  · exact if_congr (and_congr Iff.rfl Or.comm) rfl
      (congrArg Except.ok (Operator.decides_atMost_swap s t))
  · intro hequal hplain hs ht
    have hequal : Operator.equal.decides s t = true := Except.ok.inj hequal
    obtain ⟨hbelow, habove⟩ := Operator.decides_of_equal hequal (fun call => (hplain call).1)
      (fun call => (hplain call).2)
    have hover : ∀ o : Operator,
        ¬ (o.isOrdering = true ∧ (Duration.Overflows s ∨ Duration.Overflows t)) := by
      rintro o ⟨-, h | h⟩
      · exact hs h
      · exact ht h
    simp only [if_neg (hover _), Operator.decides_atMost, Operator.decides_atLeast, hbelow, habove,
      Bool.not_false, and_self]

/-- A probe result that took half a second. -/
def slowProbe : Probe := { duration := 500 }

/-- A number and a literal of it in another base are equal and neither below nor above each
other. -/
theorem slowProbe_operators_agree :
    (IsOperand "[RESPONSE_TIME]".toList ∧ IsOperand "0x1f4".toList) ∧
    verdict {} none slowProbe "[RESPONSE_TIME]".toList .equal "0x1f4".toList = .ok true ∧
    (∀ call : Call,
      call.argument? (Operand.resolve "[RESPONSE_TIME]".toList slowProbe none).text = none ∧
        call.argument? (Operand.resolve "0x1f4".toList slowProbe none).text = none) ∧
    (¬ Duration.Overflows (Operand.resolve "[RESPONSE_TIME]".toList slowProbe none).text ∧
      ¬ Duration.Overflows (Operand.resolve "0x1f4".toList slowProbe none).text) ∧
    verdict {} none slowProbe "[RESPONSE_TIME]".toList .notEqual "0x1f4".toList = .ok false ∧
    verdict {} none slowProbe "0x1f4".toList .equal "[RESPONSE_TIME]".toList = .ok true ∧
    verdict {} none slowProbe "0x1f4".toList .below "[RESPONSE_TIME]".toList = .ok false ∧
    verdict {} none slowProbe "[RESPONSE_TIME]".toList .atMost "0x1f4".toList = .ok true ∧
    verdict {} none slowProbe "[RESPONSE_TIME]".toList .atLeast "0x1f4".toList = .ok true := by
  have htime : IsOperand "[RESPONSE_TIME]".toList :=
    ⟨by decide, fun o => by cases o <;> decide⟩
  have hliteral : IsOperand "0x1f4".toList :=
    ⟨by decide, fun o => by cases o <;> decide⟩
  have hequal : verdict {} none slowProbe "[RESPONSE_TIME]".toList .equal "0x1f4".toList =
      .ok true := by
    decide +kernel
  have hplain : ∀ call : Call,
      call.argument? (Operand.resolve "[RESPONSE_TIME]".toList slowProbe none).text = none ∧
        call.argument? (Operand.resolve "0x1f4".toList slowProbe none).text = none := by
    intro call
    cases call <;> decide +kernel
  have hover : ¬ Duration.Overflows (Operand.resolve "[RESPONSE_TIME]".toList slowProbe none).text ∧
      ¬ Duration.Overflows (Operand.resolve "0x1f4".toList slowProbe none).text := by
    constructor <;> decide +kernel
  obtain ⟨-, ⟨hnot, -, -⟩, ⟨hswap, hbelowSwap, -⟩, hordered⟩ :=
    operators_agree htime hliteral {} none slowProbe
  obtain ⟨hatMost, hatLeast, -, habove⟩ := hordered hequal hplain hover.1 hover.2
  refine ⟨⟨htime, hliteral⟩, hequal, hplain, hover, ?_, ?_, ?_, hatMost, hatLeast⟩
  · rw [hnot, hequal]
    rfl
  · rw [hswap, hequal]
  · rw [hbelowSwap, habove]

/-- A literal in which a component overflows is equal to itself, and no ordering between it and
itself has an answer. -/
theorem overflowing_literal_is_unordered :
    IsOperand Duration.widestMicros ∧
    (∀ call : Call,
      call.argument? (Operand.resolve Duration.widestMicros {} none).text = none) ∧
    verdict {} none {} Duration.widestMicros .equal Duration.widestMicros = .ok true ∧
    verdict {} none {} Duration.widestMicros .atMost Duration.widestMicros = .error .overflow ∧
    verdict {} none {} Duration.widestMicros .atLeast Duration.widestMicros = .error .overflow ∧
    verdict {} none {} Duration.widestMicros .below Duration.widestMicros = .error .overflow ∧
    verdict {} none {} Duration.widestMicros .above Duration.widestMicros = .error .overflow := by
  have hliteral : IsOperand Duration.widestMicros :=
    ⟨by decide +kernel, fun o => by cases o <;> decide +kernel⟩
  have hresolve : (Operand.resolve Duration.widestMicros {} none).text = Duration.widestMicros := by
    rw [Operand.resolve_of_overflows hliteral.trimmed Duration.overflows_widestMicros]
    rfl
  have hstops : ∀ o : Operator, o.isOrdering = true →
      verdict {} none {} Duration.widestMicros o Duration.widestMicros = .error .overflow := by
    intro o ho
    rw [verdict_eq hliteral hliteral, hresolve]
    exact if_pos ⟨ho, Or.inl Duration.overflows_widestMicros⟩
  refine ⟨hliteral, fun call => ?_, by decide +kernel, hstops _ rfl, hstops _ rfl, hstops _ rfl,
    hstops _ rfl⟩
  rw [hresolve]
  cases call <;> decide +kernel

end Condition

end HealthCheck
