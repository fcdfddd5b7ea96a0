import HealthCheck.Proofs.Condition.Operators

/-!
# The grammar of conditions

A condition is read word by word, where the words are what single spaces separate. It has an
operator exactly when one of its words that is neither the first nor the last is the symbol of one,
and then it has the one of highest priority among them. The operands are what stands before the
first place of that symbol and what stands from there to the next place behind it
(`Condition.split_follows_grammar`).

The searches for separators and the words agree because a symbol between two spaces is an inner word
(`Text.mem_innerWords_iff`). Two symbols that share a space are one separator only: the second one
is the first word of what follows, and so no inner word of it.
-/

namespace HealthCheck

namespace Operator

/-- The place of an operator in the order of priority, counted from the highest: `==` comes before
`!=`, then `<=`, `>=`, `>` and `<`. -/
def rank : Operator → Nat
  | equal => 0
  | notEqual => 1
  | atMost => 2
  | atLeast => 3
  | above => 4
  | below => 5

/-- Operators are tried in the order of their ranks. -/
theorem rank_eq_idxOf (o : Operator) : o.rank = priority.idxOf o := by
  cases o <;> decide

/-- What stands in front of an operator in the order of priority is what has a lower rank. -/
theorem mem_higher_iff {o o' : Operator} {higher lower : List Operator}
    (h : priority = higher ++ o :: lower) : o' ∈ higher ↔ o'.rank < o.rank := by
  have hnodup := nodup_priority
  rw [h, List.nodup_append] at hnodup
  have hnew : o ∉ higher := fun hmem => hnodup.2.2 o hmem o List.mem_cons_self rfl
  have hrank : o.rank = higher.length := by
    rw [rank_eq_idxOf, h, List.idxOf_append_of_notMem hnew, List.idxOf_cons_self, Nat.add_zero]
  rw [hrank, rank_eq_idxOf, h]
  constructor
  · intro hmem
    rw [List.idxOf_append_of_mem hmem]
    exact List.idxOf_lt_length_iff.2 hmem
  · intro hlt
    by_contra hmem
    rw [List.idxOf_append_of_notMem hmem] at hlt
    omega

/-- A symbol is a word without blanks. -/
theorem isSolid_symbol (o : Operator) : Text.IsSolid o.symbol := by
  have hsolid : o.symbol.all (fun c => !Text.isBlank c) = true := by
    cases o <;> rfl
  refine ⟨by cases o <;> exact List.cons_ne_nil _ _, fun c hc => ?_⟩
  simpa using List.all_eq_true.1 hsolid c hc

end Operator

namespace Condition

/-- A text is cut at an operator into two operands: what stands before the first place of the
operator between spaces, and what stands from there to its next place or to the end. -/
def CutsAt (o : Operator) (t first second : Text) : Prop :=
  ∃ before rest between, Text.IsFirstCut o.separator t before rest ∧
    Text.UpTo o.separator rest between ∧ first = Text.trim before ∧ second = Text.trim between

/-- A condition is cut at an operator where its symbol first stands among the inner words. -/
theorem splitAt?_eq_some_iff {o : Operator} {t first second : Text} :
    splitAt? o t = some (first, second) ↔ CutsAt o t first second := by
  simp only [splitAt?, Option.map_eq_some_iff, Prod.exists, Prod.mk.injEq,
    Text.breakOn?_eq_some_iff]
  constructor
  · rintro ⟨before, rest, hcut, hfirst, hsecond⟩
    exact ⟨before, rest, _, hcut, Text.getD_breakOn?_eq_iff.1 rfl, hfirst.symm, hsecond.symm⟩
  · rintro ⟨before, rest, between, hcut, hbetween, hfirst, hsecond⟩
    refine ⟨before, rest, hcut, hfirst.symm, ?_⟩
    rw [Text.getD_breakOn?_eq_iff.2 hbetween, hsecond]

/-- A text is cut at an operator exactly when that is one of its inner words. -/
theorem splitAt?_eq_none_iff {o : Operator} {t : Text} :
    splitAt? o t = none ↔ o.symbol ∉ Text.innerWords t := by
  have hinfix : o.symbol ∈ Text.innerWords t ↔ o.separator <:+: t :=
    Text.mem_innerWords_iff o.space_notMem_symbol
  rw [splitAt?, Option.map_eq_none_iff, Text.breakOn?_eq_none_iff, hinfix]

theorem split_eq_none_iff {c : Condition} :
    c.split = none ↔ ∀ o : Operator, o.symbol ∉ Text.innerWords c.text := by
  rw [split, List.findSome?_eq_none_iff]
  simp only [Option.map_eq_none_iff, splitAt?_eq_none_iff, Operator.mem_priority, forall_const]

/-- A condition is cut at the operator of highest priority among its inner words. -/
theorem split_eq_some_iff {c : Condition} {o : Operator} {first second : Text} :
    c.split = some (o, first, second) ↔
      (o.symbol ∈ Text.innerWords c.text ∧
        ∀ o' : Operator, o'.symbol ∈ Text.innerWords c.text → o.rank ≤ o'.rank) ∧
      CutsAt o c.text first second := by
  rw [split, List.findSome?_eq_some_iff]
  constructor
  · rintro ⟨higher, o', lower, hpriority, hcut, hhigher⟩
    obtain ⟨operands, hsplit, heq⟩ := Option.map_eq_some_iff.1 hcut
    obtain ⟨rfl, rfl⟩ := Prod.mk.inj heq
    refine ⟨⟨?_, ?_⟩, splitAt?_eq_some_iff.1 hsplit⟩
    · by_contra hmem
      rw [splitAt?_eq_none_iff.2 hmem] at hsplit
      exact absurd hsplit (by simp)
    · intro o'' hmem
      by_contra hlt
      have hnone := hhigher o'' ((Operator.mem_higher_iff hpriority).2 (Nat.not_le.1 hlt))
      rw [Option.map_eq_none_iff, splitAt?_eq_none_iff] at hnone
      exact hnone hmem
  · rintro ⟨⟨-, hhighest⟩, hcuts⟩
    obtain ⟨higher, lower, hpriority⟩ := List.append_of_mem o.mem_priority
    refine ⟨higher, o, lower, hpriority, ?_, ?_⟩
    · rw [splitAt?_eq_some_iff.2 hcuts, Option.map_some]
    · intro o' ho'
      rw [Option.map_eq_none_iff, splitAt?_eq_none_iff]
      intro hmem
      have hle := hhighest o' hmem
      have hlt := (Operator.mem_higher_iff hpriority).1 ho'
      omega

/-- Blanks around a text bring no operator in. -/
theorem plain_of_blanks_around {lead t trail : Text} (hlead : Text.AllBlank lead)
    (htrail : Text.AllBlank trail) (h : ∀ o : Operator, o.symbol ∉ Text.words t)
    (o : Operator) : o.symbol ∉ Text.words (lead ++ t ++ trail) := by
  intro hmem
  have hfront := o.isSolid_symbol.mem_words_of_append htrail hmem
  exact h o (o.isSolid_symbol.mem_words_of_lead hlead hfront)

/-- **The grammar of conditions.** A condition has no operator exactly when none is among its inner
words; otherwise it is cut at the one of highest priority, into what stands before its first place
and from there to its next place or the end. So operands that have no operators among their words
are given back, whatever blanks stand around them. The operators are written as the table says. -/
theorem split_follows_grammar :
    ([.equal, .notEqual, .atMost, .atLeast, .above, .below].map
        (fun o : Operator => (o.symbol, o.rank)) =
      [("==".toList, 0), ("!=".toList, 1), ("<=".toList, 2), (">=".toList, 3), (">".toList, 4),
        ("<".toList, 5)]) ∧
    (∀ c : Condition,
      (c.split = none ↔ ∀ o : Operator, o.symbol ∉ Text.innerWords c.text) ∧
      ∀ o first second, c.split = some (o, first, second) ↔
        (o.symbol ∈ Text.innerWords c.text ∧
          ∀ o' : Operator, o'.symbol ∈ Text.innerWords c.text → o.rank ≤ o'.rank) ∧
        CutsAt o c.text first second) ∧
    ∀ first second, IsOperand first → IsOperand second → ∀ (o : Operator) (p q r s : Text),
      Text.AllBlank p → Text.AllBlank q → Text.AllBlank r → Text.AllBlank s →
      (ofOperands (p ++ first ++ q) o (r ++ second ++ s)).split = some (o, first, second) := by
  refine ⟨rfl, fun c => ⟨split_eq_none_iff, fun o first second => split_eq_some_iff⟩, ?_⟩
  intro first second hfirst hsecond o p q r s hp hq hr hs
  have htrim : ∀ {lead t trail : Text}, Text.AllBlank lead → Text.AllBlank trail →
      Text.trim (lead ++ t ++ trail) = Text.trim t := by
    intro lead t trail hlead htrail
    rw [Text.trim_append_allBlank htrail, Text.trim_allBlank_append hlead]
  rw [split_of_plain (plain_of_blanks_around hp hq hfirst.plain)
    (plain_of_blanks_around hr hs hsecond.plain), htrim hp hq, htrim hr hs, hfirst.trimmed,
    hsecond.trimmed]

/-- Blanks of several kinds around two operands, one of which is made of signs. -/
theorem padded_signs_are_operands :
    (IsOperand "[BODY].a".toList ∧ IsOperand "=> =<".toList) ∧
    (Text.AllBlank "\t ".toList ∧ Text.AllBlank "\u00a0".toList ∧ Text.AllBlank [] ∧
      Text.AllBlank " \u3000".toList) ∧
    (ofOperands ("\t ".toList ++ "[BODY].a".toList ++ "\u00a0".toList) .atMost
        ([] ++ "=> =<".toList ++ " \u3000".toList)).split =
      some (.atMost, "[BODY].a".toList, "=> =<".toList) := by
  have hpath : IsOperand "[BODY].a".toList :=
    ⟨by decide, fun o => by cases o <;> decide⟩
  have hsigns : IsOperand "=> =<".toList :=
    ⟨by decide, fun o => by cases o <;> decide⟩
  have hp : Text.AllBlank "\t ".toList := by decide
  have hq : Text.AllBlank "\u00a0".toList := by decide
  have hr : Text.AllBlank [] := by decide
  have hs : Text.AllBlank " \u3000".toList := by decide
  exact ⟨⟨hpath, hsigns⟩, ⟨hp, hq, hr, hs⟩,
    split_follows_grammar.2.2 _ _ hpath hsigns .atMost _ _ _ _ hp hq hr hs⟩

/-- Two symbols that share a space are one separator, and a separator ends the second operand. -/
example : (⟨"a < b == == c == d".toList⟩ : Condition).split =
    some (.equal, "a < b".toList, "== c".toList) := by decide +kernel

end Condition

end HealthCheck
