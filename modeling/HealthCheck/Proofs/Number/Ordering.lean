import HealthCheck.Number.Ordering
import HealthCheck.Proofs.Duration.Range

/-!
# The number that an integer literal stands for

Ordering tries a text as a duration before it tries it as an integer literal, and stops where
reading the duration stops (`Text.toNumber_eq_overflow_iff`). The two notations have no text in
common: every unit of a duration has an `s`, an `m` or an `h` in it
(`Duration.exists_unitLetter_of_millis?`), and these are neither digits of any base nor letters that
announce one (`Integer.notMem_unitLetters_of_read?`). So an integer literal is ordered as the
integer that it is (`Text.toNumber_of_read?`), which is the one that equality compares.
-/

namespace HealthCheck

/-! ## Texts as numbers -/

/-- The integer as which a text is ordered, given what it is as a duration. -/
def Text.numberAs (t : Text) : Option Int → Int
  | some millis => if millis ≠ 0 then millis else toNumber.rest t
  | none => toNumber.rest t

/-- A text is a number by the first reading that accepts it, the reading as a duration included. -/
theorem Text.toNumber_eq (t : Text) : t.toNumber = (Duration.millis? t).map t.numberAs := by
  rw [toNumber]
  cases Duration.millis? t with
  | error e => rfl
  | ok millis? => cases millis? <;> rfl

/-- A text is ordered as an integer unless a component overflows in it. -/
theorem Text.toNumber_eq_overflow_iff {t : Text} :
    t.toNumber = .error .overflow ↔ Duration.Overflows t := by
  rw [toNumber_eq, Abort.map_eq_error_iff, Duration.millis?_eq_overflow_iff]

/-! ## Letters of durations -/

namespace Duration

/-- Letters of which each unit of a duration has one. -/
def unitLetters : Text := "smh".toList

/-- Every unit has a letter in it that no integer literal has. -/
theorem IsUnit.exists_unitLetter {unit : Text} {scale : Nat} (h : IsUnit unit scale) :
    ∃ l ∈ unit, l ∈ unitLetters := by
  have hunits : ∀ e ∈ units, e.1.any (· ∈ unitLetters) = true := by decide
  obtain ⟨l, hl, hletter⟩ := List.any_eq_true.1 (hunits _ (isUnit_iff_mem.1 h))
  exact ⟨l, hl, of_decide_eq_true hletter⟩

/-- Pieces without a letter of a unit are refused at the first of them. -/
theorem addComponents?_of_notMem_unitLetters (fits : Nat → Bool) (total : Nat) {pieces : List Text}
    (hne : pieces ≠ []) (h : ∀ c ∈ pieces.flatten, c ∉ unitLetters) :
    addComponents? fits total pieces = .ok none := by
  match pieces with
  | [] => exact absurd rfl hne
  | [_] => rfl
  | number :: unit :: rest =>
    have hnone : component? number unit = none := by
      cases hscale : units.lookup unit with
      | none =>
        unfold component?
        rw [hscale]
        rfl
      | some scale =>
        obtain ⟨l, hl, hletter⟩ := (lookup_units_eq_some_iff.1 hscale).exists_unitLetter
        refine absurd hletter (h l ?_)
        simp [hl]
    rw [addComponents?_cons, hnone, ite_self]

/-- What is read as a duration, or stops at being read, has a letter of a unit behind the sign. -/
theorem exists_unitLetter_of_millis? {t : Text} (h : millis? t ≠ .ok none) :
    ∃ c ∈ (Text.signed t).2, c ∈ unitLetters := by
  by_contra hnone
  push Not at hnone
  refine h ?_
  have hnanos : nanos? t = .ok none := by
    unfold nanos? nanosWithin?
    by_cases hempty : (Text.signed t).2 = []
    · simp only [if_pos hempty]
      rfl
    · have hflatten : (Text.runs isNumeric (Text.signed t).2).flatten = (Text.signed t).2 :=
        List.flatten_splitBy _ _
      have hpieces : Text.runs isNumeric (Text.signed t).2 ≠ [] := by
        intro hpieces
        rw [hpieces] at hflatten
        exact hempty hflatten.symm
      simp only [if_neg hempty]
      rw [addComponents?_of_notMem_unitLetters _ _ hpieces (by rwa [hflatten])]
      rfl
  rw [millis?, hnanos]
  rfl

end Duration

/-- Digits are no duration. -/
theorem Text.toNumber_of_digits {t : Text} (h : (signed t).2.all Char.isDigit = true) :
    t.toNumber = .ok (toNumber.rest t) := by
  have hletters : Duration.unitLetters.all (fun l => !l.isDigit) = true := by decide
  have hduration : Duration.millis? t = .ok none := by
    by_contra hmillis
    obtain ⟨c, hc, hletter⟩ := Duration.exists_unitLetter_of_millis? hmillis
    have hnone := List.all_eq_true.1 hletters c hletter
    rw [List.all_eq_true.1 h c hc] at hnone
    cases hnone
  rw [toNumber_eq, hduration]
  rfl

/-! ## Characters of integer literals -/

namespace Integer

/-- The characters that announce a base. -/
def announcing : Text := "0xXoObB".toList

/-- Detecting a base takes nothing off but what announces it. -/
theorem mem_announcing_or_mem_base {c : Char} {u : Text} (h : c ∈ u) :
    c ∈ announcing ∨ c ∈ (base u).2.2 := by
  unfold announcing base
  split <;> simp at h ⊢ <;> tauto

/-- The letters of units have no place in an integer literal. -/
theorem unitLetters_unused : ∀ c ∈ Duration.unitLetters,
    c ≠ '_' ∧ c ∉ announcing ∧ Text.digitValue c = none := by
  intro c hc
  have hcases : c = 's' ∨ c = 'm' ∨ c = 'h' := by simpa [Duration.unitLetters] using hc
  rcases hcases with rfl | rfl | rfl <;> decide

/-- No character behind the sign of an integer literal is a letter of a unit. -/
theorem notMem_unitLetters_of_read? {t : Text} {n : Int} (h : read? t = some n) :
    ∀ c ∈ (Text.signed t).2, c ∉ Duration.unitLetters := by
  intro c hc hletter
  obtain ⟨hunderscore, hannounced, hvalue⟩ := unitLetters_unused c hletter
  have hdigit : c ∈ (base (Text.signed t).2).2.2 :=
    (mem_announcing_or_mem_base hc).resolve_left hannounced
  have hcounted : c ∈ (base (Text.signed t).2).2.2.filter (· != '_') :=
    List.mem_filter.2 ⟨hdigit, by simpa using hunderscore⟩
  have hall := (exists_numeral_of_read? h).1
  have hisDigit := List.all_eq_true.1 hall c hcounted
  rw [Text.isDigitOf, hvalue, Option.any_none] at hisDigit
  exact absurd hisDigit Bool.false_ne_true

end Integer

/-- No integer literal is a duration, and none stops at being read as one. -/
theorem Duration.millis?_of_read? {t : Text} {n : Int} (h : Integer.read? t = some n) :
    millis? t = .ok none := by
  by_contra hmillis
  obtain ⟨c, hc, hletter⟩ := exists_unitLetter_of_millis? hmillis
  exact Integer.notMem_unitLetters_of_read? h c hc hletter

/-- An integer literal is ordered as the integer that it is. -/
theorem Text.toNumber_of_read? {t : Text} {n : Int} (h : Integer.read? t = some n) :
    t.toNumber = .ok n := by
  rw [toNumber_eq, Duration.millis?_of_read? h]
  show Except.ok (toNumber.rest t) = _
  rw [toNumber.rest, h]

end HealthCheck
