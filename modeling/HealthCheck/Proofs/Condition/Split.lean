import HealthCheck.Condition
import HealthCheck.Proofs.Observation
import HealthCheck.Proofs.Text.Cutting

/-!
# How conditions are cut

The operands of a condition are pieces of its text without the blanks at their ends, so trimming
them again, as resolving does, changes nothing.
-/

namespace HealthCheck

/-- Blanks around an operand do not matter. -/
theorem Operand.resolve_trim (operand : Text) (p : Probe) (context : Option Context) :
    resolve (Text.trim operand) p context = resolve operand p context := by
  rw [resolve, resolve, Text.trim_trim]

namespace Condition

/-- The operands of a condition are trimmed pieces of it on the two sides of its operator. -/
theorem exists_pieces_of_split {c : Condition} {o : Operator} {first second : Text}
    (h : c.split = some (o, first, second)) :
    ∃ before between after, c.text = before ++ o.separator ++ between ++ after ∧
      first = Text.trim before ∧ second = Text.trim between := by
  obtain ⟨o', -, hcut⟩ := List.exists_of_findSome?_eq_some h
  obtain ⟨operands, hat, heq⟩ := Option.map_eq_some_iff.1 hcut
  obtain ⟨rfl, rfl⟩ := Prod.mk.inj heq
  obtain ⟨⟨before, rest⟩, hbreak, hoperands⟩ := Option.map_eq_some_iff.1 hat
  obtain ⟨rfl, rfl⟩ := Prod.mk.inj hoperands
  have htext := Text.eq_append_of_breakOn? hbreak
  cases hrest : Text.breakOn? o'.separator rest with
  | none =>
    refine ⟨before, rest, [], by rw [htext, List.append_nil], rfl, ?_⟩
    simp
  | some cut =>
    have hcut := Text.eq_append_of_breakOn? (show _ = some (cut.1, cut.2) from hrest)
    refine ⟨before, cut.1, o'.separator ++ cut.2, ?_, rfl, ?_⟩
    · rw [htext, hcut]
      simp only [List.append_assoc]
    · simp

/-- The operands of a condition have no blanks at their ends. -/
theorem trim_of_split {c : Condition} {o : Operator} {first second : Text}
    (h : c.split = some (o, first, second)) :
    Text.trim first = first ∧ Text.trim second = second := by
  obtain ⟨before, between, -, -, rfl, rfl⟩ := exists_pieces_of_split h
  exact ⟨Text.trim_trim before, Text.trim_trim between⟩

/-- Whether a condition holds, where evaluating it does not stop. -/
def answer (c : Condition) (d : Display) (context : Option Context) (p : Probe) :
    Except Abort Bool :=
  (c.evaluate d context p).map Prod.snd

/-- A condition that compares texts always has an answer. -/
theorem answer_equal {c : Condition} {first second : Text}
    (h : c.split = some (.equal, first, second)) (d : Display) (context : Option Context)
    (p : Probe) :
    c.answer d context p =
      .ok (isEqual (Operand.resolve first p context).text
        (Operand.resolve second p context).text) := by
  unfold answer evaluate outcome
  rw [h]
  rfl

end Condition

end HealthCheck
