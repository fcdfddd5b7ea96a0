import HealthCheck.Proofs.Duration.Range

/-!
# How literals are read

Where no sum is taken out of its word, the literals of the grammar are read and nothing else is:
`literals_are_read`. A literal is accepted up to the greatest number of nanoseconds. As no digit of
a fraction counts for more than it is worth, and a component falls short by less than three
nanoseconds, the bound on what is read is one on the exact magnitude up to that much for each
component.
-/

namespace HealthCheck.Duration

/-- In exact numbers a literal comes to its sum in whole milliseconds, unless that exceeds the
range. -/
theorem exactMillis?_of_isLiteral {t : Text} {negative : Bool} {cs : List Component}
    (h : IsLiteral t negative cs) :
    exactMillis? t = .ok
      (if (size cs : Int) ≤ Integer.greatest then
        some ((withSign negative (size cs)).tdiv 1000000)
      else none) := by
  rw [exactMillis?, exactNanos?_of_isLiteral h, Abort.ok_bind]
  split_ifs <;> rfl

theorem exactMillis?_of_not_isLiteral {t : Text} (h : ∀ negative cs, ¬ IsLiteral t negative cs) :
    exactMillis? t = .ok none := by
  rw [exactMillis?, exactNanos?_of_not_isLiteral h]
  rfl

/-- **Literals are read.** What is no literal is refused. A literal is accepted where its exact
magnitude does not exceed the greatest number of nanoseconds and refused where it exceeds that by
more than three nanoseconds for each component. An accepted one is read as a whole number of
nanoseconds that is less than so much below the exact magnitude, or equal to it where no fraction
goes beyond whole nanoseconds. The machine agrees unless a component overflows. -/
theorem literals_are_read (t : Text) :
    ((∀ negative cs, ¬ IsLiteral t negative cs) → exactMillis? t = .ok none) ∧
    (∀ negative cs, IsLiteral t negative cs →
      (magnitude cs ≤ Integer.greatest → ∃ m, exactMillis? t = .ok (some m)) ∧
      (Integer.greatest + 3 * cs.length < magnitude cs → exactMillis? t = .ok none) ∧
      ∀ m, exactMillis? t = .ok (some m) → ∃ n : Nat,
        m = (withSign negative n).tdiv 1000000 ∧
        (n : ℚ) ≤ magnitude cs ∧ magnitude cs < n + 3 * cs.length ∧
        ((∀ c ∈ cs, c.fraction.length ≤ wholePlaces c.scale) → (n : ℚ) = magnitude cs)) ∧
    (¬ Overflows t → millis? t = exactMillis? t) := by
  refine ⟨exactMillis?_of_not_isLiteral, fun negative cs hliteral => ?_, millis?_eq_exactMillis?⟩
  have hformed := hliteral.wellFormed
  have hne : cs ≠ [] := by
    obtain ⟨_, _, -, -, hne, -⟩ := hliteral
    exact hne
  have hlow : (size cs : ℚ) ≤ magnitude cs := size_le_magnitude hformed
  have hhigh : magnitude cs < size cs + 3 * cs.length := magnitude_lt hformed hne
  rw [exactMillis?_of_isLiteral hliteral]
  refine ⟨fun hfits => ?_, fun hexceeds => ?_, fun m hm => ?_⟩
  · have hsize : ((size cs : Int) : ℚ) ≤ Integer.greatest := by
      push_cast
      linarith
    rw [if_pos (by exact_mod_cast hsize)]
    exact ⟨_, rfl⟩
  · have hsize : (Integer.greatest : ℚ) < (size cs : Int) := by
      push_cast
      linarith
    rw [if_neg (by exact_mod_cast not_le.2 hsize)]
  · obtain ⟨-, heq⟩ := Option.ite_none_right_eq_some.1 (Except.ok.inj hm)
    exact ⟨size cs, (Option.some.inj heq).symm, hlow, hhigh,
      fun hplaces => (magnitude_eq_size hformed hplaces).symm⟩

/-- Ninety minutes and a quarter of one, which has no whole digits. -/
def ninetyAndAQuarter : List Component :=
  [⟨"1".toList, "5".toList, 3600000000000⟩, ⟨[], "25".toList, 60000000000⟩]

/-- More hours than there may be nanoseconds. -/
def manyHours : List Component := [⟨"9999999".toList, [], 3600000000000⟩]

/-- A numeral alone is no literal, one hour and a half and a quarter of a minute below zero are read
exactly, and too many hours are refused. -/
theorem literals_are_read_or_refused :
    ((∀ negative cs, ¬ IsLiteral "90".toList negative cs) ∧
      exactMillis? "90".toList = .ok none) ∧
    (IsLiteral "-1.5h.25m".toList true ninetyAndAQuarter ∧
      (∃ m, exactMillis? "-1.5h.25m".toList = .ok (some m)) ∧
      (∃ n : Nat, -5415000 = (withSign true n).tdiv 1000000 ∧
        (n : ℚ) = magnitude ninetyAndAQuarter) ∧
      millis? "-1.5h.25m".toList = exactMillis? "-1.5h.25m".toList) ∧
    (IsLiteral "9999999h".toList false manyHours ∧
      exactMillis? "9999999h".toList = .ok none) := by
  have hnumeral : ∀ negative cs, ¬ IsLiteral "90".toList negative cs := by
    intro negative cs h
    have hread : literal? "90".toList = none := by decide +kernel
    rw [literal?_eq_some_iff.2 h] at hread
    cases hread
  have hquarter : IsLiteral "-1.5h.25m".toList true ninetyAndAQuarter :=
    literal?_eq_some_iff.1 (by decide +kernel)
  have hmany : IsLiteral "9999999h".toList false manyHours :=
    literal?_eq_some_iff.1 (by decide +kernel)
  have hmagnitude : magnitude ninetyAndAQuarter = 5415000000000 := by
    have hdigits : Text.value 10 "1".toList = 1 ∧ Text.value 10 "5".toList = 5 ∧
        Text.value 10 "25".toList = 25 := by decide
    have hlengths : "5".toList.length = 1 ∧ "25".toList.length = 2 := by decide
    norm_num [magnitude, ninetyAndAQuarter, Component.magnitude, fractionValue, hdigits, hlengths]
  have hmanyMagnitude : magnitude manyHours = 35999996400000000000 := by
    have hdigits : Text.value 10 "9999999".toList = 9999999 := by decide
    norm_num [magnitude, manyHours, Component.magnitude, fractionValue, hdigits]
  have hgreatest : (Integer.greatest : ℚ) = 9223372036854775807 := by norm_num [Integer.greatest]
  have hrange : ¬ Overflows "-1.5h.25m".toList :=
    (computed_inWord_iff _).1 (by decide +kernel)
  have hplaces : ∀ c ∈ ninetyAndAQuarter, c.fraction.length ≤ wholePlaces c.scale := by decide
  obtain ⟨haccepted, -, hvalue⟩ := (literals_are_read "-1.5h.25m".toList).2.1 _ _ hquarter
  obtain ⟨n, hn, -, -, hexact⟩ := hvalue (-5415000) (by decide +kernel)
  refine ⟨⟨hnumeral, (literals_are_read "90".toList).1 hnumeral⟩,
    ⟨hquarter, haccepted ?_, ⟨n, hn, hexact hplaces⟩,
      (literals_are_read "-1.5h.25m".toList).2.2 hrange⟩,
    hmany, ((literals_are_read "9999999h".toList).2.1 _ _ hmany).2.1 ?_⟩
  · rw [hmagnitude, hgreatest]
    norm_num
  · rw [hmanyMagnitude, hgreatest]
    norm_num [manyHours]

end HealthCheck.Duration
