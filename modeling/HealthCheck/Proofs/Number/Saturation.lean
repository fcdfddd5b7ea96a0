import HealthCheck.Proofs.Number.Ordering
import HealthCheck.Proofs.Number.Reading

/-!
# Decimal numerals saturate

A decimal numeral of any length, with or without a sign, is ordered as the integer in range that is
nearest to its value: `Text.toNumber_of_writesInt`. It has no letter of a unit in it and so is no
duration. Up to the bounds it is read as an integer literal, in base ten since it has no zero in
front of other digits. Beyond them it is read as a floating-point literal: a power of two is
representable, so rounding does not take a value below it (`Binary64.two_pow_le_round`), and what
results is cut to the bound on its side.
-/

namespace HealthCheck

/-! ## Decimal numerals -/

namespace Text

/-- The text is a decimal numeral: a single zero, or a digit from one to nine and any number of
further digits. -/
inductive IsDecimal : Text → Prop where
  | zero : IsDecimal ['0']
  | digits {d : Char} {ds : Text} (hd : d.isDigit = true) (hne : d ≠ '0')
      (hds : ∀ c ∈ ds, c.isDigit = true) : IsDecimal (d :: ds)

/-- The text writes the integer in decimal: an optional sign and a numeral. -/
def WritesInt (t : Text) (n : Int) : Prop :=
  ∃ sign body negative, t = sign ++ body ∧ IsSign sign negative ∧ IsDecimal body ∧
    n = Duration.withSign negative (value 10 body)

variable {t : Text} {n : Int}

theorem IsDecimal.ne_nil (h : IsDecimal t) : t ≠ [] := by
  cases h <;> exact List.cons_ne_nil _ _

theorem IsDecimal.all_isDigit (h : IsDecimal t) : t.all Char.isDigit = true := by
  cases h with
  | zero => decide
  | digits hd _ hds =>
    rw [List.all_cons, hd, Bool.true_and, List.all_eq_true]
    exact hds

theorem IsDecimal.hasLeadingZero_eq (h : IsDecimal t) : hasLeadingZero t = false := by
  cases h with
  | zero => rfl
  | @digits d ds hd hne hds =>
    rw [← Bool.not_eq_true]
    intro hzero
    obtain ⟨u, hu, -⟩ := hasLeadingZero_eq_true hzero
    exact hne (List.cons.inj hu).1

/-- A number in decimal has no superfluous zero. -/
theorem isDecimal_ofNat (n : Nat) : IsDecimal (ofNat n) := by
  have hall := List.all_eq_true.1 (all_isDigit_ofNat n)
  have hzero := hasLeadingZero_ofNat n
  obtain ⟨d, ds, hcons⟩ := List.exists_cons_of_ne_nil (ofNat_ne_nil n)
  rw [hcons] at hall hzero ⊢
  by_cases hd : d = '0'
  · subst hd
    cases ds with
    | nil => exact .zero
    | cons c ds => cases hzero
  · exact .digits (hall d List.mem_cons_self) hd fun c hc => hall c (List.mem_cons_of_mem d hc)

theorem writesInt_ofNat (n : Nat) : WritesInt (ofNat n) n :=
  ⟨[], ofNat n, false, rfl, .none, isDecimal_ofNat n, by rw [value_ten_ofNat]; rfl⟩

/-- What writes an integer is its sign and the numeral of its magnitude. -/
theorem WritesInt.signed_spec (h : WritesInt t n) :
    IsDecimal (signed t).2 ∧ n = Duration.withSign (signed t).1 (value 10 (signed t).2) := by
  obtain ⟨sign, body, negative, rfl, hsign, hbody, hn⟩ := h
  obtain ⟨c, cs, rfl⟩ := List.exists_cons_of_ne_nil hbody.ne_nil
  have hc : c.isDigit = true := List.all_eq_true.1 hbody.all_isDigit c List.mem_cons_self
  rw [signed_append_of_isDigit hsign hc cs]
  exact ⟨hbody, hn⟩

end Text

/-! ## Rounding beyond the bounds -/

namespace Binary64

/-- Rounding a whole magnitude does not take it below a power of two. -/
theorem two_pow_le_round {k num : Nat} (hk : 52 ≤ k) (h : 2 ^ k ≤ num) :
    2 ^ k ≤ round num 1 := by
  have hnum : num ≠ 0 := by
    have := Nat.two_pow_pos k
    omega
  have hlog : k ≤ num.log2 := (Nat.le_log2 hnum).2 h
  have hgrain : grain num * 2 ^ 52 = 2 ^ num.log2 := grain_mul_eq (hk.trans hlog)
  -- The lower neighbour of the number keeps its leading bit.
  have hbits : 2 ^ 52 ≤ num / grain num := by
    rw [Nat.le_div_iff_mul_le (grain_pos num), Nat.mul_comm, hgrain]
    exact Nat.log2_self_le hnum
  calc 2 ^ k ≤ 2 ^ num.log2 := Nat.pow_le_pow_right (by decide) hlog
    _ = grain num * 2 ^ 52 := hgrain.symm
    _ ≤ grain num * (num / grain num) := Nat.mul_le_mul_left _ hbits
    _ ≤ grain num * nearest num (grain num) := Nat.mul_le_mul_left _ (div_le_nearest _ _)
    _ = round num 1 := by rw [round, Nat.div_one, Nat.one_mul]

/-- One is a power of two. -/
theorem exists_one_eq : ∃ k, one = 2 ^ k := ⟨1074, by decide +kernel⟩

/-- A magnitude of at least 2⁶³ is rounded to one of at least 2⁶³. -/
theorem le_round_div_one {n : Nat} (h : 2 ^ 63 ≤ n) : 2 ^ 63 ≤ round (n * one) 1 / one := by
  obtain ⟨k, hk⟩ := exists_one_eq
  have hbound : 2 ^ 63 * one = 2 ^ (63 + k) := by rw [hk, pow_add]
  rw [Nat.le_div_iff_mul_le one_pos, hbound]
  refine two_pow_le_round (by omega) ?_
  rw [← hbound]
  exact Nat.mul_le_mul_right _ h

end Binary64

namespace Integer

theorem clamp_of_inRange {n : Int} (hleast : least ≤ n) (hgreatest : n ≤ greatest) :
    clamp n = n := by
  unfold clamp
  omega

theorem clamp_mono {m n : Int} (h : m ≤ n) : clamp m ≤ clamp n := by
  unfold clamp
  omega

/-- Beyond the bounds the sign decides. -/
theorem clamp_withSign {n : Nat} (h : 2 ^ 63 ≤ n) (negative : Bool) :
    clamp (Duration.withSign negative n) = if negative then least else greatest := by
  unfold clamp Duration.withSign least greatest
  cases negative <;> simp only [if_true, Bool.false_eq_true, if_false] <;> omega

end Integer

/-! ## Floating-point literals of digits -/

namespace Reading

open Binary64

/-- Digits are no name of a number. -/
theorem not_sameIgnoringCase_of_isDigit {c : Char} (hc : c.isDigit = true) (t : Text) {d : Char}
    (hd : d.toLower.isDigit = false) (name : Text) :
    Text.sameIgnoringCase (c :: t) (d :: name) = false := by
  rw [Text.sameIgnoringCase, beq_eq_false_iff_ne]
  intro heq
  have hhead : c.toLower = d.toLower := (List.cons.inj heq).1
  rw [← hhead, Text.toLower_of_isDigit hc, hc] at hd
  cases hd

/-- Digits with a sign are read as a floating-point literal without a fraction. -/
theorem ofText?_of_digits {t : Text} (hne : (Text.signed t).2 ≠ [])
    (hdigits : (Text.signed t).2.all Char.isDigit = true) :
    ofText? t = some (ofScientific (Text.signed t).1 ⟨(Text.signed t).2, 0⟩) := by
  rcases hsigned : Text.signed t with ⟨negative, body⟩
  rw [hsigned] at hne hdigits
  have hempty : ∀ c ∈ ([] : Text).head?, c.isDigit = false := by simp
  obtain ⟨htake, hdrop⟩ := Text.span_digits hdigits hempty
  rw [List.append_nil] at htake hdrop
  have hscientific : scientific? body = some ⟨body, 0⟩ := by
    simp only [scientific?, htake, hdrop, List.append_nil, if_neg hne, exponent?, Option.map_some]
    rfl
  have hname : ∀ name ∈ ["inf", "infinity", "nan"],
      Text.sameIgnoringCase body name.toList = false := by
    obtain ⟨c, cs, rfl⟩ := List.exists_cons_of_ne_nil hne
    have hc : c.isDigit = true := List.all_eq_true.1 hdigits c List.mem_cons_self
    intro name hname
    simp only [List.mem_cons, List.not_mem_nil, or_false] at hname
    rcases hname with rfl | rfl | rfl <;>
      exact not_sameIgnoringCase_of_isDigit hc cs (by decide) _
  unfold ofText?
  simp only [hsigned, hname "inf" (by simp), hname "infinity" (by simp), hname "nan" (by simp),
    hscientific, Bool.or_false, Bool.false_eq_true, if_false, Option.map_some]

/-- Rounding keeps the sign. -/
theorem negative_of_ofScientific? {negative : Bool} {digits : Nat} {e : Int} {x : Binary64}
    (h : ofScientific? negative digits e = some x) : x.negative = negative := by
  cases e with
  | ofNat e =>
    have hratio : ofRatio? negative (digits * Nat.pow 10 e * one) 1 = some x := h
    exact negative_of_ofRatio? hratio
  | negSucc e =>
    have hratio : ofRatio? negative (digits * one) (Nat.pow 10 (e + 1)) = some x := h
    exact negative_of_ofRatio? hratio

/-- What a literal denotes has the literal's sign, also where it is too large. -/
theorem ofScientific_cases (negative : Bool) (s : Scientific) :
    (∃ x : Binary64, ofScientific negative s = .finite x ∧ x.negative = negative) ∨
      ofScientific negative s = .infinite negative := by
  simp only [ofScientific]
  split_ifs
  · exact Or.inl ⟨_, rfl, rfl⟩
  · exact Or.inr rfl
  · split
    · rename_i x hx
      exact Or.inl ⟨x, rfl, negative_of_ofScientific? hx⟩
    · exact Or.inr rfl

/-- Beyond the bounds, the number that digits denote is cut to a bound. -/
theorem toInt_ofScientific {body : Text} (h : 2 ^ 63 ≤ Text.value 10 body) (negative : Bool) :
    (ofScientific negative ⟨body, 0⟩).toInt =
      Integer.clamp (Duration.withSign negative (Text.value 10 body)) := by
  rw [Integer.clamp_withSign h]
  rcases ofScientific_cases negative ⟨body, 0⟩ with ⟨x, hfinite, hx⟩ | hinfinite
  · have hlarge : 2 ^ 63 ≤ x.units / one := by
      rw [units_of_digits hfinite]
      exact le_round_div_one h
    rw [hfinite, ← Integer.clamp_withSign hlarge, ← hx]
    rfl
  · rw [hinfinite]
    rfl

end Reading

/-! ## Ordering -/

namespace Text

/-- **Saturation.** What writes an integer in decimal is ordered as the nearest integer in range. -/
theorem toNumber_of_writesInt {t : Text} {n : Int} (h : WritesInt t n) :
    t.toNumber = .ok (Integer.clamp n) := by
  obtain ⟨hdecimal, rfl⟩ := h.signed_spec
  have hdigits := hdecimal.all_isDigit
  have hread : Integer.read? t =
      Integer.ofMagnitude? (signed t).1 (value 10 (signed t).2) := by
    rw [Integer.read?_eq_decimal? hdigits hdecimal.hasLeadingZero_eq, Integer.decimal?_eq, toNat?,
      if_pos ⟨hdecimal.ne_nil, by rw [all_isDigitOf_ten]; exact hdigits⟩, Option.bind_some]
  rw [toNumber_of_digits hdigits, toNumber.rest, hread]
  refine congrArg Except.ok ?_
  cases hmagnitude : Integer.ofMagnitude? (signed t).1 (value 10 (signed t).2) with
  | some n =>
    obtain ⟨hn, hleast, hgreatest⟩ := Integer.ofMagnitude?_eq_some_iff.1 hmagnitude
    show n = Integer.clamp (Duration.withSign _ _)
    rw [Duration.withSign, ← hn, Integer.clamp_of_inRange hleast hgreatest]
  | none =>
    have hlarge := Integer.le_of_ofMagnitude?_none hmagnitude
    rw [Reading.ofText?_of_digits hdecimal.ne_nil hdigits]
    exact Reading.toInt_ofScientific hlarge _

end Text

end HealthCheck
