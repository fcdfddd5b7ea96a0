import HealthCheck.Number.Literal
import HealthCheck.Proofs.Number.Writing

/-!
# Literals in two notations

Some texts are floating-point literals and integer literals at once. Without the decimal notation
of integers, the only ones are octal: a zero and further octal digits that in base ten are too many
for a word. `Reading.read?_write_ne` shows that such a text and what its number is written as are
different integers, if integers at all.
-/

namespace HealthCheck.Reading

open Binary64

/-- A text that is read as a finite number is written with digits, a point and an exponent. -/
theorem exists_scientific_of_finite? {t : Text} {x : Binary64} (h : finite? t = some x) :
    ∃ s, scientific? (Text.signed t).2 = some s ∧
      ofScientific (Text.signed t).1 s = .finite x := by
  unfold finite? at h
  split at h
  · rename_i y hy
    obtain rfl := Option.some.inj h
    unfold ofText? at hy
    simp only at hy
    split_ifs at hy
    · exact absurd hy (by simp)
    · exact absurd hy (by simp)
    · exact Option.map_eq_some_iff.1 hy
  · exact absurd h.symm (Option.some_ne_none x)

/-- Digits and underscores that are read as a decimal literal are digits alone. -/
theorem scientific?_of_digits {u : Text} {s : Scientific} (h : scientific? u = some s)
    (hu : ∀ c ∈ u, c.isDigit = true ∨ c = '_') : u.all Char.isDigit = true ∧ s = ⟨u, 0⟩ := by
  have hsplit : u.takeWhile Char.isDigit ++ u.dropWhile Char.isDigit = u :=
    List.takeWhile_append_dropWhile
  cases hrest : u.dropWhile Char.isDigit with
  | nil =>
    rw [hrest, List.append_nil] at hsplit
    have hall : u.all Char.isDigit = true := by
      rw [List.all_eq_true]
      exact fun c hc => List.mem_takeWhile_imp (hsplit.symm ▸ hc)
    refine ⟨hall, ?_⟩
    simp only [scientific?, hrest, hsplit, List.append_nil, exponent?, Option.map_some] at h
    split_ifs at h
    exact (Option.some.inj h).symm
  | cons c cs =>
    have hc : c.isDigit = false := by
      have hhead := List.head?_dropWhile_not Char.isDigit u
      rw [hrest] at hhead
      simpa using hhead
    have hmem : c ∈ u := by
      rw [← hsplit, hrest]
      simp
    obtain rfl : c = '_' := (hu c hmem).resolve_left (by rw [hc]; decide)
    simp [scientific?, hrest, exponent?] at h

/-- What detecting a base comes to: a letter announces it, a zero does, or it is ten. -/
theorem base_cases (u : Text) :
    (∃ c t, u = '0' :: c :: t ∧ c.isDigit = false ∧ c ≠ '.' ∧ c ≠ 'e' ∧ c ≠ 'E') ∨
      (∃ w, u = '0' :: w ∧ w ≠ [] ∧ Integer.base u = (8, true, w)) ∨
      (Text.hasLeadingZero u = false ∧ Integer.base u = (10, false, u)) := by
  unfold Integer.base Text.hasLeadingZero
  split
  case h_7 => exact Or.inr (Or.inl ⟨_, rfl, List.cons_ne_nil _ _, rfl⟩)
  case h_8 =>
    rename_i hzero
    refine Or.inr (Or.inr ⟨?_, rfl⟩)
    split
    · exact (hzero _ _ rfl).elim
    · rfl
  all_goals exact Or.inl ⟨_, _, rfl, by decide⟩

theorem digits_or_underscores {r : Nat} (hr : r ≤ 10) {t : Text}
    (h : (t.filter (· != '_')).all (Text.isDigitOf r) = true) :
    ∀ c ∈ t, c.isDigit = true ∨ c = '_' := by
  intro c hc
  by_cases hunderscore : c = '_'
  · exact Or.inr hunderscore
  · have hmem : c ∈ t.filter (· != '_') := List.mem_filter.2 ⟨hc, by simpa using hunderscore⟩
    exact Or.inl (Text.isDigit_of_isDigitOf hr (List.all_eq_true.1 h c hmem))

/-- A decimal literal that is an integer only in the notation that detects a base is an octal
numeral with too many digits for a decimal one. -/
theorem octal_of_read? {t : Text} {s : Scientific} {m : Int}
    (hs : scientific? (Text.signed t).2 = some s) (hdecimal : Integer.decimal? t = none)
    (hread : Integer.read? t = some m) :
    ∃ w, s = ⟨'0' :: w, 0⟩ ∧ w.all (Text.isDigitOf 8) = true ∧ m.natAbs = Text.value 8 w ∧
      2 ^ 63 ≤ Text.value 10 w := by
  obtain ⟨hall, hm⟩ := Integer.exists_numeral_of_read? hread
  -- A letter after the zero is in no decimal literal, and without the zero both notations agree.
  rcases base_cases (Text.signed t).2 with ⟨c, u, hu, hc⟩ | ⟨w, hu, hw, hbase⟩ | ⟨hzero, hbase⟩
  · obtain ⟨hdigit, hpoint, hlower, hupper⟩ := hc
    rw [hu] at hs
    simp [scientific?, exponent?, hdigit, hpoint, hlower, hupper] at hs
  · rw [hbase] at hall hm
    have hchars := digits_or_underscores (show 8 ≤ 10 by decide) hall
    have hunsigned : ∀ c ∈ '0' :: w, c.isDigit = true ∨ c = '_' := by
      rintro c (_ | ⟨_, hc⟩)
      · exact Or.inl (by decide)
      · exact hchars c hc
    rw [hu] at hs
    obtain ⟨hdigits, rfl⟩ := scientific?_of_digits hs hunsigned
    have hw : w.all Char.isDigit = true := (Bool.and_eq_true_iff.1 hdigits).2
    have hfilter := (Integer.separated_of_isDigit hw true).2
    simp only [hfilter] at hall hm
    refine ⟨w, rfl, hall, Integer.natAbs_of_ofMagnitude? hm, ?_⟩
    rw [Integer.decimal?_eq, hu, Text.toNat?,
      if_pos ⟨List.cons_ne_nil _ _, by rw [Text.all_isDigitOf_ten]; exact hdigits⟩,
      Option.bind_some, Text.value_cons_zero] at hdecimal
    exact Integer.le_of_ofMagnitude?_none hdecimal
  · rw [hbase] at hall
    obtain ⟨hdigits, -⟩ :=
      scientific?_of_digits hs (digits_or_underscores (show 10 ≤ 10 by decide) hall)
    rw [Integer.read?_eq_decimal? hdigits hzero, hdecimal] at hread
    exact absurd hread.symm (Option.some_ne_none m)

/-! ## Octal literals as numbers -/

/-- Zeros in front do not count. -/
theorem value_dropWhile_zero (t : Text) :
    Text.value 10 (t.dropWhile (· == '0')) = Text.value 10 t := by
  induction t with
  | nil => rfl
  | cons c cs ih =>
    by_cases hc : c = '0'
    · rw [hc, List.dropWhile_cons_of_pos (by rfl), ih, Text.value_cons_zero]
    · rw [List.dropWhile_cons_of_neg (by simpa using hc)]

/-- The number that digits denote is their value, rounded. -/
theorem units_of_digits {negative : Bool} {u : Text} {x : Binary64}
    (h : ofScientific negative ⟨u, 0⟩ = .finite x) :
    x.units = round (Text.value 10 u * one) 1 := by
  unfold ofScientific at h
  simp only [value_dropWhile_zero] at h
  split_ifs at h with hsmall hlarge
  · have hnil : u.dropWhile (· == '0') = [] := hsmall.resolve_right (by omega)
    rw [← Reading.finite.inj h, ← value_dropWhile_zero, hnil, Text.value_nil, Nat.zero_mul]
    rfl
  · split at h
    · rename_i y hy
      have hratio : ofRatio? negative (Text.value 10 u * Nat.pow 10 0 * one) 1 = some y := hy
      rw [Nat.pow_eq, pow_zero, Nat.mul_one] at hratio
      rw [← Reading.finite.inj h, units_of_ofRatio? hratio]
    · exact absurd h (by simp)

/-- Digits that in base ten are a little more than a word holds keep clear of the words when they
are rounded, and so does the basin of what they are rounded to. -/
theorem lt_low_basin {n : Nat} (h : 10 ^ 19 ≤ n) :
    2 ^ 63 * (4 * one) < (basin (round (n * one) 1)).low := by
  -- The number and its basin each lose less than one part in 2⁵¹, and 10¹⁹ exceeds 2⁶³ by more
  -- than one in sixteen.
  have hone : 0 < one := Binary64.one_pos
  have hnum : 10 ^ 19 * one ≤ n * one := Nat.mul_le_mul_right _ h
  have hnumGrain := grain_mul_le (u := n * one) (by omega)
  have hround := lt_round_add_grain (n * one)
  have hgrain := grain_mul_le (u := round (n * one) 1) (by omega)
  have hlow := le_low_basin (round (n * one) 1)
  omega

/-- A decimal literal that is an integer in the notation that detects a base, but not in the
decimal one, is another integer than what its number is written as. -/
theorem read?_write_ne {t : Text} {x : Binary64} {m : Int} (hx : finite? t = some x)
    (hdecimal : Integer.decimal? t = none) (hread : Integer.read? t = some m) :
    Integer.read? (Layout.alone.write x) ≠ some m := by
  obtain ⟨s, hs, hfinite⟩ := exists_scientific_of_finite? hx
  obtain ⟨w, rfl, hw, habs, hlarge⟩ := octal_of_read? hs hdecimal hread
  have hunits := units_of_digits hfinite
  rw [Text.value_cons_zero] at hunits
  have hbound := lt_low_basin (Text.le_value_ten_of_octal hw hlarge)
  intro hwrite
  rcases Layout.low_le_of_read?_write hwrite with rfl | hlow
  · have hzero := Text.value_eight_eq_zero_iff.1 habs.symm
    omega
  · have hrange := (Integer.ofMagnitude?_eq_some_iff.1 (Integer.exists_numeral_of_read? hread).2).2
    have hword : m.natAbs ≤ 2 ^ 63 := by
      unfold Integer.least Integer.greatest at hrange
      omega
    have hle : m.natAbs * (4 * one) ≤ 2 ^ 63 * (4 * one) := Nat.mul_le_mul_right _ hword
    rw [hunits, show (basin _).den = 4 * one from rfl] at hlow
    omega

end HealthCheck.Reading
