import HealthCheck.Proofs.Duration.Total
import Mathlib.Algebra.Order.BigOperators.Group.List
import Mathlib.Data.Nat.Cast.Field
import Mathlib.Data.Nat.Cast.Order.Field
import Mathlib.Tactic.FieldSimp
import Mathlib.Tactic.Linarith
import Mathlib.Tactic.Positivity

/-!
# The precision of durations

The digits of a fraction are turned into nanoseconds one at a time, each truncated by itself. What
that loses is at most one nanosecond for a digit, nothing as long as the unit divided by the place
of the digit is whole, and less than the unit divided by the place for all digits behind it together
(`loss_lt`). Two digits behind the whole ones may lose something before the rest is worth no more
than a nanosecond, in every unit. So a component is never above its exact magnitude and less than
three nanoseconds below it, and so are components together for each of them: `size_le_magnitude`,
`magnitude_lt`.
-/

namespace HealthCheck.Duration

open Text (digit value)

/-! ## Exact magnitudes -/

/-- What the digits behind a point are worth. -/
def fractionValue (ds : Text) : ℚ := (value 10 ds : ℚ) / 10 ^ ds.length

/-- The exact nanoseconds of a component. -/
def Component.magnitude (c : Component) : ℚ :=
  ((value 10 c.whole : ℚ) + fractionValue c.fraction) * c.scale

/-- The exact nanoseconds of components together. -/
def magnitude (cs : List Component) : ℚ := (cs.map Component.magnitude).sum

theorem fractionValue_nil : fractionValue [] = 0 := by
  simp [fractionValue]

theorem fractionValue_cons (d : Char) (ds : Text) :
    fractionValue (d :: ds) = (digit d + fractionValue ds) / 10 := by
  unfold fractionValue
  rw [Text.value_cons, List.length_cons, pow_succ]
  push_cast
  field_simp

theorem digit_le_nine {d : Char} (h : d.isDigit = true) : digit d ≤ 9 := by
  have hlt : digit d < 10 := Text.digit_lt (by rw [Text.isDigitOf_ten]; exact h)
  omega

/-- A fraction is less than one. -/
theorem fractionValue_lt_one {ds : Text} (h : ∀ d ∈ ds, d.isDigit = true) :
    fractionValue ds < 1 := by
  have hlt : value 10 ds < 10 ^ ds.length := by
    apply Text.value_lt
    rw [Text.all_isDigitOf_ten]
    exact List.all_eq_true.2 h
  rw [fractionValue, div_lt_one (by positivity)]
  exact_mod_cast hlt

/-! ## What a fraction loses -/

/-- What truncating every digit of a fraction by itself loses of its exact nanoseconds. -/
def loss (scale divisor : Nat) (ds : Text) : ℚ :=
  fractionValue ds * scale / divisor - fractionNanos scale divisor ds

theorem loss_nil (scale divisor : Nat) : loss scale divisor [] = 0 := by
  simp [loss, fractionValue_nil, fractionNanos]

/-- A fraction loses what its first digit loses and what the others do behind it. -/
theorem loss_cons (scale divisor : Nat) (d : Char) (ds : Text) :
    loss scale divisor (d :: ds) =
      (((digit d * scale : ℕ) : ℚ) / (divisor * 10 : ℕ) -
        (digit d * scale / (divisor * 10) : ℕ)) + loss scale (divisor * 10) ds := by
  unfold loss
  rw [fractionValue_cons, fractionNanos]
  show _ - ((digit d * scale / (divisor * 10) + _ : ℕ) : ℚ) = _
  push_cast
  ring

/-- Cutting off never adds anything. -/
theorem loss_nonneg (scale divisor : Nat) (ds : Text) : 0 ≤ loss scale divisor ds := by
  induction ds generalizing divisor with
  | nil => rw [loss_nil]
  | cons d ds ih =>
    have hdigit : ((digit d * scale / (divisor * 10) : ℕ) : ℚ) ≤
        ((digit d * scale : ℕ) : ℚ) / (divisor * 10 : ℕ) := Nat.cast_div_le
    have hrest := ih (divisor * 10)
    rw [loss_cons]
    linarith

/-- A digit loses less than one. -/
theorem loss_cons_lt (scale : Nat) {divisor : Nat} (hdivisor : 0 < divisor) (d : Char) (ds : Text) :
    loss scale divisor (d :: ds) < 1 + loss scale (divisor * 10) ds := by
  have hpos : 0 < divisor * 10 := by omega
  have hdigit : ((digit d * scale : ℕ) : ℚ) / (divisor * 10 : ℕ) <
      (digit d * scale / (divisor * 10) : ℕ) + 1 := by
    rw [div_lt_iff₀ (by exact_mod_cast hpos), add_mul, one_mul]
    exact_mod_cast Nat.lt_div_mul_add hpos
  rw [loss_cons]
  linarith

/-- A digit loses nothing where the unit can be divided by its place. -/
theorem loss_cons_of_dvd {scale divisor : Nat} (h : divisor * 10 ∣ scale) (d : Char)
    (ds : Text) : loss scale divisor (d :: ds) = loss scale (divisor * 10) ds := by
  have hdigit : ((digit d * scale / (divisor * 10) : ℕ) : ℚ) =
      ((digit d * scale : ℕ) : ℚ) / (divisor * 10 : ℕ) :=
    Nat.cast_div_charZero (Dvd.dvd.mul_left h (digit d))
  rw [loss_cons, hdigit, sub_self, zero_add]

/-- All digits together lose less than the unit divided by the place in front of them. -/
theorem loss_lt_unit {scale divisor : Nat} (hscale : 0 < scale) (hdivisor : 0 < divisor) {ds : Text}
    (hds : ∀ d ∈ ds, d.isDigit = true) : loss scale divisor ds < (scale : ℚ) / divisor := by
  have hunit : (0 : ℚ) < (scale : ℚ) / divisor := by positivity
  have hnanos : (0 : ℚ) ≤ fractionNanos scale divisor ds := Nat.cast_nonneg _
  have hexact : fractionValue ds * ((scale : ℚ) / divisor) < 1 * ((scale : ℚ) / divisor) :=
    mul_lt_mul_of_pos_right (fractionValue_lt_one hds) hunit
  rw [loss, mul_div_assoc]
  linarith

/-- The digits of a fraction make less than the unit. -/
theorem fractionNanos_lt {scale : Nat} (hscale : 0 < scale) {ds : Text}
    (hds : ∀ d ∈ ds, d.isDigit = true) : fractionNanos scale 1 ds < scale := by
  have hloss := loss_nonneg scale 1 ds
  have hunit : (0 : ℚ) < scale := by exact_mod_cast hscale
  have hexact : fractionValue ds * scale < 1 * scale :=
    mul_lt_mul_of_pos_right (fractionValue_lt_one hds) hunit
  rw [loss, Nat.cast_one, div_one] at hloss
  have hlt : (fractionNanos scale 1 ds : ℚ) < scale := by linarith
  exact_mod_cast hlt

/-- A few digits lose less than one each, and those behind them less than the unit is worth
there. -/
theorem loss_lt_add_unit {scale : Nat} (hscale : 0 < scale) (lossy : Nat) {divisor : Nat}
    (hdivisor : 0 < divisor) {ds : Text} (hds : ∀ d ∈ ds, d.isDigit = true) :
    loss scale divisor ds < lossy + (scale : ℚ) / (divisor * 10 ^ lossy : ℕ) := by
  induction lossy generalizing divisor ds with
  | zero =>
    -- No digit is left to be counted by itself.
    have hunit := loss_lt_unit hscale hdivisor hds
    simpa using hunit
  | succ lossy ih =>
    have hplaces : divisor * 10 ^ (lossy + 1) = divisor * 10 * 10 ^ lossy := by ring
    rw [hplaces]
    cases ds with
    | nil =>
      rw [loss_nil]
      positivity
    | cons d ds =>
      have hfirst := loss_cons_lt scale hdivisor d ds
      have hrest := ih (show 0 < divisor * 10 by omega)
        fun x hx => hds x (List.mem_cons_of_mem d hx)
      push_cast at hrest ⊢
      linarith

/-- **What a fraction loses.** Where the unit can be divided by the first places, a fraction loses
less than one nanosecond for each of the next few and, behind them, less than the unit is worth
there. -/
theorem loss_lt {scale : Nat} (hscale : 0 < scale) (places lossy : Nat) {divisor : Nat}
    (hdivisor : 0 < divisor) (hdvd : divisor * 10 ^ places ∣ scale) {ds : Text}
    (hds : ∀ d ∈ ds, d.isDigit = true) :
    loss scale divisor ds < lossy + (scale : ℚ) / (divisor * 10 ^ (places + lossy) : ℕ) := by
  induction places generalizing divisor ds with
  | zero =>
    rw [Nat.zero_add]
    exact loss_lt_add_unit hscale lossy hdivisor hds
  | succ places ih =>
    have hsplit : divisor * 10 ^ (places + 1) = divisor * 10 * 10 ^ places := by ring
    have hplaces : divisor * 10 ^ (places + 1 + lossy) =
        divisor * 10 * 10 ^ (places + lossy) := by ring
    rw [hsplit] at hdvd
    rw [hplaces]
    cases ds with
    | nil =>
      rw [loss_nil]
      positivity
    | cons d ds =>
      -- The first digit stands at a place that divides the unit.
      rw [loss_cons_of_dvd (Dvd.dvd.trans (Nat.dvd_mul_right _ _) hdvd)]
      exact ih (by omega) hdvd fun x hx => hds x (List.mem_cons_of_mem d hx)

/-- A fraction of no more digits than the unit can be divided by loses nothing. -/
theorem loss_eq_zero {scale places divisor : Nat} (hdvd : divisor * 10 ^ places ∣ scale)
    {ds : Text} (hlength : ds.length ≤ places) : loss scale divisor ds = 0 := by
  induction ds generalizing places divisor with
  | nil => exact loss_nil scale divisor
  | cons d ds ih =>
    rw [List.length_cons] at hlength
    obtain ⟨places, rfl⟩ : ∃ n, places = n + 1 := ⟨places - 1, by omega⟩
    have hsplit : divisor * 10 ^ (places + 1) = divisor * 10 * 10 ^ places := by ring
    rw [hsplit] at hdvd
    rw [loss_cons_of_dvd (Dvd.dvd.trans (Nat.dvd_mul_right _ _) hdvd)]
    exact ih hdvd (Nat.le_of_succ_le_succ hlength)

/-! ## The digits that count -/

/-- The digits of a fraction count one part after the other, those further back with a larger
divisor. -/
theorem fractionNanos_append (scale divisor : Nat) (s t : Text) :
    fractionNanos scale divisor (s ++ t) =
      fractionNanos scale divisor s + fractionNanos scale (divisor * 10 ^ s.length) t := by
  induction s generalizing divisor with
  | nil => simp [fractionNanos]
  | cons d ds ih =>
    have hplace : divisor * 10 ^ (d :: ds).length = divisor * 10 * 10 ^ ds.length := by
      rw [List.length_cons]
      ring
    rw [List.cons_append, fractionNanos, fractionNanos, ih, hplace, Nat.add_assoc]

/-- Digits at places that are too small for the unit make nothing. -/
theorem fractionNanos_eq_zero {scale divisor : Nat} (h : 9 * scale < divisor * 10) {ds : Text}
    (hds : ∀ d ∈ ds, d.isDigit = true) : fractionNanos scale divisor ds = 0 := by
  induction ds generalizing divisor with
  | nil => rfl
  | cons d ds ih =>
    have hdigit : digit d * scale < divisor * 10 :=
      Nat.lt_of_le_of_lt (Nat.mul_le_mul_right scale (digit_le_nine (hds d List.mem_cons_self))) h
    rw [fractionNanos]
    show digit d * scale / (divisor * 10) + _ = 0
    rw [Nat.div_eq_of_lt hdigit, ih (by omega) fun x hx => hds x (List.mem_cons_of_mem d hx)]

/-! ## Components -/

/-- How many digits of a fraction are whole nanoseconds in each unit. -/
def wholePlaces : (scale : Nat) → Nat
  | 1000 => 3
  | 1000000 => 6
  | 1000000000 => 9
  | 60000000000 => 10
  | 3600000000000 => 11
  | _ => 0

/-- Two places behind the whole ones a unit is worth no more than a nanosecond, and behind the
digits that count nothing at all. -/
theorem scale_spec : ∀ scale ∈ units.map Prod.snd, 0 < scale ∧ 10 ^ wholePlaces scale ∣ scale ∧
    scale ≤ 10 ^ (wholePlaces scale + 2) ∧ 9 * scale < 10 ^ 18 * 10 := by
  decide +kernel

namespace Component

variable {c : Component}

/-- The digits that are left out would make nothing. -/
theorem WellFormed.fractionNanos_counted (h : c.WellFormed) :
    fractionNanos c.scale 1 c.counted = fractionNanos c.scale 1 c.fraction := by
  obtain ⟨-, -, -, hsmall⟩ := scale_spec _ h.unit
  by_cases hlength : c.fraction.length ≤ 18
  · rw [counted, List.take_of_length_le hlength]
  · have hdropped : fractionNanos c.scale (1 * 10 ^ c.counted.length) (c.fraction.drop 18) = 0 := by
      refine fractionNanos_eq_zero ?_ fun d hd => h.fraction d (List.mem_of_mem_drop hd)
      rw [counted, List.length_take, Nat.min_eq_left (by omega), Nat.one_mul]
      exact hsmall
    calc fractionNanos c.scale 1 c.counted
        = fractionNanos c.scale 1 (c.counted ++ c.fraction.drop 18) := by
          rw [fractionNanos_append, hdropped, Nat.add_zero]
      _ = fractionNanos c.scale 1 c.fraction := by rw [counted, List.take_append_drop]

/-- A component falls short of its exact magnitude by what its fraction loses. -/
theorem WellFormed.magnitude_eq (h : c.WellFormed) :
    c.magnitude = c.size + loss c.scale 1 c.fraction := by
  rw [magnitude, size, h.fractionNanos_counted, loss]
  push_cast
  ring

/-- What is read of a component does not exceed it. -/
theorem WellFormed.size_le (h : c.WellFormed) : (c.size : ℚ) ≤ c.magnitude := by
  have hloss := loss_nonneg c.scale 1 c.fraction
  rw [h.magnitude_eq]
  linarith

/-- Less than three nanoseconds of a component are lost. -/
theorem WellFormed.magnitude_lt (h : c.WellFormed) : c.magnitude < c.size + 3 := by
  obtain ⟨hpos, hdvd, hsmall, -⟩ := scale_spec _ h.unit
  -- Two digits may lose something, and what is behind them is worth at most one nanosecond.
  have hloss := loss_lt hpos (wholePlaces c.scale) 2 Nat.one_pos
    (by rw [Nat.one_mul]; exact hdvd) h.fraction
  have hunit : (c.scale : ℚ) / (1 * 10 ^ (wholePlaces c.scale + 2) : ℕ) ≤ 1 := by
    rw [div_le_one (by positivity), Nat.one_mul]
    exact_mod_cast hsmall
  rw [h.magnitude_eq]
  push_cast at hloss hunit
  linarith

/-- Nothing is lost of a component whose fraction has no more places than its unit has powers of
ten. -/
theorem WellFormed.magnitude_eq_size (h : c.WellFormed)
    (hplaces : c.fraction.length ≤ wholePlaces c.scale) : c.magnitude = c.size := by
  obtain ⟨-, hdvd, -, -⟩ := scale_spec _ h.unit
  have hloss : loss c.scale 1 c.fraction = 0 :=
    loss_eq_zero (by rw [Nat.one_mul]; exact hdvd) hplaces
  rw [h.magnitude_eq, hloss, add_zero]

end Component

/-! ## Components together -/

theorem magnitude_nil : magnitude [] = 0 := rfl

theorem magnitude_cons (c : Component) (cs : List Component) :
    magnitude (c :: cs) = c.magnitude + magnitude cs := List.sum_cons

section

variable {cs : List Component} (h : ∀ c ∈ cs, c.WellFormed)
include h

/-- What is read of components does not exceed them. -/
theorem size_le_magnitude : (size cs : ℚ) ≤ magnitude cs := by
  induction cs with
  | nil => rw [size_nil, magnitude_nil, Nat.cast_zero]
  | cons c cs ih =>
    obtain ⟨hc, hcs⟩ := List.forall_mem_cons.1 h
    rw [size_cons, magnitude_cons, Nat.cast_add]
    exact add_le_add hc.size_le (ih hcs)

theorem magnitude_le : magnitude cs ≤ size cs + 3 * cs.length := by
  induction cs with
  | nil => simp [magnitude_nil]
  | cons c cs ih =>
    obtain ⟨hc, hcs⟩ := List.forall_mem_cons.1 h
    have hfirst := hc.magnitude_lt
    have hrest := ih hcs
    rw [size_cons, magnitude_cons, List.length_cons, Nat.cast_add, Nat.cast_succ]
    linarith

/-- Less than three nanoseconds are lost for each component. -/
theorem magnitude_lt (hne : cs ≠ []) : magnitude cs < size cs + 3 * cs.length := by
  cases cs with
  | nil => exact absurd rfl hne
  | cons c cs =>
    obtain ⟨hc, hcs⟩ := List.forall_mem_cons.1 h
    have hfirst := hc.magnitude_lt
    have hrest := magnitude_le hcs
    rw [size_cons, magnitude_cons, List.length_cons, Nat.cast_add, Nat.cast_succ]
    linarith

/-- Nothing is lost where no component loses anything. -/
theorem magnitude_eq_size (hplaces : ∀ c ∈ cs, c.fraction.length ≤ wholePlaces c.scale) :
    magnitude cs = size cs := by
  induction cs with
  | nil => rw [size_nil, magnitude_nil, Nat.cast_zero]
  | cons c cs ih =>
    obtain ⟨hc, hcs⟩ := List.forall_mem_cons.1 h
    obtain ⟨hplace, hothers⟩ := List.forall_mem_cons.1 hplaces
    rw [size_cons, magnitude_cons, Nat.cast_add, hc.magnitude_eq_size hplace, ih hcs hothers]

end

end HealthCheck.Duration
