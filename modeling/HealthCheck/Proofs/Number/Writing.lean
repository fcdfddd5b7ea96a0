import HealthCheck.Number.Layout
import HealthCheck.Proofs.Number.Numerals
import Mathlib.Data.List.DropRight

/-!
# How numbers that stand alone are written

The digits of a binary64 number are taken from a grid of decimals that has a point in the basin of
the number (`Binary64.shortestFrom_contains`). Written out, they are a numeral without an exponent:
where it has no fraction it is the decimal numeral of a whole number in that basin, and
`Layout.low_le_of_read?_write` bounds the integer that it is read as.
-/

namespace HealthCheck

namespace Binary64

/-! ## Rounding -/

theorem one_pos : 0 < one := by decide +kernel

theorem grain_pos (u : Nat) : 0 < grain u := Nat.pow_pos (by decide)

theorem grain_mul_eq {u : Nat} (h : 52 ≤ u.log2) : grain u * 2 ^ 52 = 2 ^ u.log2 := by
  calc grain u * 2 ^ 52 = 2 ^ (u.log2 - 52 + 52) := (pow_add 2 (u.log2 - 52) 52).symm
    _ = 2 ^ u.log2 := by rw [Nat.sub_add_cancel h]

/-- From 2⁵² units on, a number has 53 significant bits. -/
theorem grain_mul_le {u : Nat} (h : 2 ^ 52 ≤ u) : grain u * 2 ^ 52 ≤ u := by
  have hu : u ≠ 0 := by omega
  rw [grain_mul_eq ((Nat.le_log2 hu).2 h)]
  exact Nat.log2_self_le hu

theorem div_le_nearest (num den : Nat) : num / den ≤ nearest num den := by
  simp only [nearest]
  split_ifs <;> omega

/-- Rounding a whole magnitude takes less than one grain away. -/
theorem lt_round_add_grain (num : Nat) : num < round num 1 + grain num := by
  have hmod : num % grain num < grain num := Nat.mod_lt _ (grain_pos num)
  have hdiv : grain num * (num / grain num) + num % grain num = num := Nat.div_add_mod _ _
  have hmul : grain num * (num / grain num) ≤ grain num * nearest num (grain num) :=
    Nat.mul_le_mul_left _ (div_le_nearest _ _)
  rw [round, Nat.div_one, Nat.one_mul]
  omega

/-- A number made of a ratio has the units that rounding gives. -/
theorem units_of_ofRatio? {negative : Bool} {num den : Nat} {x : Binary64}
    (h : ofRatio? negative num den = some x) : x.units = round num den := by
  unfold ofRatio? at h
  simp only [Option.ite_none_right_eq_some, Option.some.injEq] at h
  rw [← h.2]

theorem negative_of_ofRatio? {negative : Bool} {num den : Nat} {x : Binary64}
    (h : ofRatio? negative num den = some x) : x.negative = negative := by
  unfold ofRatio? at h
  simp only [Option.ite_none_right_eq_some, Option.some.injEq] at h
  rw [← h.2]

/-! ## Basins -/

theorem low_le_of_contains {b : Basin} {n unitNum unitDen : Nat}
    (h : b.contains n unitNum unitDen = true) : b.low * unitDen ≤ n * unitNum * b.den := by
  unfold Basin.contains at h
  split_ifs at h <;> simp only [Bool.and_eq_true, decide_eq_true_eq] at h <;> omega

/-- The low end of the basin of a number lies at most one spacing below it. -/
theorem le_low_basin (u : Nat) : 4 * u - 2 * grain u ≤ (basin u).low := by
  simp only [basin]
  split_ifs <;> omega

theorem gridUnit_snd_pos (e : Int) : 0 < (gridUnit e).2 := by
  cases e with
  | ofNat e => exact Nat.one_pos
  | negSucc e => exact Nat.pow_pos (by decide)

/-- A grid that is taken has the point that is taken in the basin. -/
theorem shortestFrom_contains (tie : Tie) (b : Basin) (point : Int) (fuel count : Nat) {n : Nat}
    {e : Int} (h : shortestFrom tie b point fuel count = (n, e)) :
    n = 0 ∨ b.contains n (gridUnit e).1 (gridUnit e).2 = true := by
  induction fuel generalizing count with
  | zero => exact Or.inl (Prod.mk.inj h).1.symm
  | succ fuel ih =>
    simp only [shortestFrom] at h
    split_ifs at h with hboth hupper hdown hup
    · obtain ⟨rfl, rfl⟩ := Prod.mk.inj h
      exact Or.inr (Bool.and_eq_true_iff.1 hboth).2
    · obtain ⟨rfl, rfl⟩ := Prod.mk.inj h
      exact Or.inr (Bool.and_eq_true_iff.1 hboth).1
    · obtain ⟨rfl, rfl⟩ := Prod.mk.inj h
      exact Or.inr hdown
    · obtain ⟨rfl, rfl⟩ := Prod.mk.inj h
      exact Or.inr hup
    · exact ih (count + 1) h

end Binary64

/-! ## Zeros at the end -/

namespace Text

/-- Zeros at the end multiply by powers of ten. -/
theorem value_append_zeros (t : Text) (k : Nat) :
    value 10 (t ++ List.replicate k '0') = value 10 t * 10 ^ k := by
  induction k with
  | zero => simp
  | succ k ih =>
    rw [List.replicate_succ', ← List.append_assoc, value_concat, ih, pow_succ,
      show digit '0' = 0 from rfl, Nat.add_zero, Nat.mul_assoc]

/-- A text without the zeros at its end, and those zeros. -/
theorem exists_zeros (t : Text) :
    ∃ k, (t.reverse.dropWhile (· == '0')).reverse ++ List.replicate k '0' = t := by
  have hzeros : t.rtakeWhile (· == '0') = List.replicate (t.rtakeWhile (· == '0')).length '0' :=
    List.eq_replicate_of_mem fun c hc => by simpa using List.mem_rtakeWhile_imp hc
  refine ⟨(t.rtakeWhile (· == '0')).length, ?_⟩
  rw [← hzeros]
  exact List.rdropWhile_append_rtakeWhile

/-- The numeral of a number other than zero does not begin with a zero. -/
theorem head?_ofNat_ne_zero {n : Nat} (hn : n ≠ 0) : (ofNat n).head? ≠ some '0' := by
  intro h
  obtain ⟨u, hu⟩ := List.head?_eq_some_iff.1 h
  have hnil : u = [] := by
    by_contra hne
    obtain ⟨c, cs, rfl⟩ := List.exists_cons_of_ne_nil hne
    have hlead := hasLeadingZero_ofNat n
    rw [hu] at hlead
    exact Bool.noConfusion hlead
  have hvalue := value_ten_ofNat n
  rw [hu, hnil] at hvalue
  exact hn hvalue.symm

/-- A sign is all that is cut off. -/
theorem mem_signed {c : Char} {t : Text} (h : c ∈ t) (hminus : c ≠ '-') (hplus : c ≠ '+') :
    c ∈ (signed t).2 := by
  unfold signed
  split
  · exact (List.mem_cons.1 h).resolve_left hminus
  · exact (List.mem_cons.1 h).resolve_left hplus
  · exact h

end Text

namespace Integer

/-- A point is in no notation of integers. -/
theorem read?_eq_none_of_point {t : Text} (h : '.' ∈ t) : read? t = none := by
  have hsigned : '.' ∈ (Text.signed t).2 := Text.mem_signed h (by decide) (by decide)
  have hbase : '.' ∈ (base (Text.signed t).2).2.2 := by
    revert hsigned
    generalize (Text.signed t).2 = u
    intro hu
    unfold base
    split <;> simp_all
  have hdigits : Text.toNat? (base (Text.signed t).2).1
      ((base (Text.signed t).2).2.2.filter (· != '_')) = none := by
    unfold Text.toNat?
    refine if_neg fun hall => ?_
    have hpoint := List.all_eq_true.1 hall.2 '.' (List.mem_filter.2 ⟨hbase, by decide⟩)
    exact absurd hpoint Bool.false_ne_true
  unfold read?
  simp only [hdigits, Option.bind_none, ite_self]

end Integer

/-! ## Writing -/

namespace Binary64

/-- What the digits of a number are: a decimal in its basin without the zeros at its end. No digits
mean zero. -/
theorem shortest_spec (tie : Tie) (x : Binary64) :
    (x.shortest tie).digits = [] ∨
      ∃ n e k, n ≠ 0 ∧ (basin x.units).contains n (gridUnit e).1 (gridUnit e).2 = true ∧
        (x.shortest tie).digits ++ List.replicate k '0' = Text.ofNat n ∧
        (x.shortest tie).point = (Text.ofNat n).length + e := by
  unfold shortest
  by_cases hunits : x.units = 0
  · rw [if_pos hunits]
    exact Or.inl rfl
  · rw [if_neg hunits]
    rcases hfrom : shortestFrom tie (basin x.units)
      (pointOf (basin x.units).mid (basin x.units).den) 17 1 with ⟨n, e⟩
    simp only [hfrom]
    rcases shortestFrom_contains _ _ _ _ _ hfrom with rfl | hcontains
    · exact Or.inl rfl
    · -- The last grid may give nothing but zero, which has no digits.
      by_cases hn : n = 0
      · rw [hn]
        exact Or.inl rfl
      · obtain ⟨k, hk⟩ := Text.exists_zeros (Text.ofNat n)
        exact Or.inr ⟨n, e, k, hn, hcontains, hk, rfl⟩

end Binary64

namespace Layout

open Binary64

/-- A number that stands alone is its digits and zeros behind them, or has a point. -/
theorem alone_writePositional (d : Decimal) :
    '.' ∈ alone.writePositional d ∨
      (0 < d.point ∧ d.digits.length ≤ d.point.toNat ∧
        alone.writePositional d =
          d.digits ++ List.replicate (d.point.toNat - d.digits.length) '0') := by
  unfold writePositional
  by_cases hpoint : d.point ≤ 0
  · refine Or.inl ?_
    simp [hpoint]
  · by_cases hlen : d.digits.length ≤ d.point.toNat
    · refine Or.inr ⟨by omega, hlen, ?_⟩
      simp only [if_neg hpoint, if_pos hlen]
      exact List.append_nil _
    · refine Or.inl ?_
      simp [hpoint, hlen]

/-- A number in positional notation begins with a digit. -/
theorem exists_head_writePositional (l : Layout) {d : Decimal} {c : Char} {cs : Text}
    (hd : d.digits = c :: cs) (hc : c.isDigit = true) :
    ∃ c' rest, l.writePositional d = c' :: rest ∧ c'.isDigit = true := by
  unfold writePositional
  by_cases hpoint : d.point ≤ 0
  · simp only [if_pos hpoint]
    exact ⟨'0', _, rfl, by decide⟩
  · obtain ⟨m, hm⟩ : ∃ m, d.point.toNat = m + 1 := ⟨d.point.toNat - 1, by omega⟩
    simp only [if_neg hpoint, hm, hd, List.cons_append, List.take_succ_cons]
    split_ifs
    · exact ⟨c, _, rfl, hc⟩
    · exact ⟨c, _, rfl, hc⟩

/-- Without a point, the digits of a decimal and the zeros behind them are the numeral of its
value. -/
theorem value_whole {digits : Text} {n k : Nat} {e : Int}
    (hdigits : digits ++ List.replicate k '0' = Text.ofNat n)
    (hpoint : 0 < ((Text.ofNat n).length + e : Int))
    (hlen : digits.length ≤ ((Text.ofNat n).length + e : Int).toNat) :
    Text.value 10 (digits ++ List.replicate
        (((Text.ofNat n).length + e : Int).toNat - digits.length) '0') * (gridUnit e).2 =
      n * (gridUnit e).1 := by
  have hlength : digits.length + k = (Text.ofNat n).length := by
    rw [← hdigits, List.length_append, List.length_replicate]
  have hvalue : Text.value 10 digits * 10 ^ k = n := by
    rw [← Text.value_append_zeros, hdigits, Text.value_ten_ofNat]
  rw [Text.value_append_zeros]
  cases e with
  | ofNat e =>
    have hzeros : ((Text.ofNat n).length + Int.ofNat e : Int).toNat - digits.length = k + e := by
      simp only [Int.ofNat_eq_natCast]
      omega
    show _ * 1 = n * 10 ^ e
    rw [hzeros, Nat.mul_one, pow_add, ← Nat.mul_assoc, hvalue]
  | negSucc e =>
    have hzeros : ((Text.ofNat n).length + Int.negSucc e : Int).toNat - digits.length + (e + 1) =
        k := by omega
    show _ * 10 ^ (e + 1) = n * 1
    rw [Nat.mul_assoc, ← pow_add, hzeros, hvalue, Nat.mul_one]

/-- The numeral of a whole number in a basin: its digits, of which the first is not zero, and a
value that is not below the basin. -/
structure WholeIn (b : Basin) (numeral : Text) : Prop where
  head : ∃ c rest, numeral = c :: rest ∧ c ≠ '0'
  digits : numeral.all Char.isDigit = true
  low_le : b.low ≤ Text.value 10 numeral * b.den

theorem wholeIn_of_contains {b : Basin} {digits : Text} {n k : Nat} {e : Int} (hn : n ≠ 0)
    (hcontains : b.contains n (gridUnit e).1 (gridUnit e).2 = true) (hne : digits ≠ [])
    (hdigits : digits ++ List.replicate k '0' = Text.ofNat n)
    (hpoint : 0 < ((Text.ofNat n).length + e : Int))
    (hlen : digits.length ≤ ((Text.ofNat n).length + e : Int).toNat) :
    WholeIn b (digits ++ List.replicate
      (((Text.ofNat n).length + e : Int).toNat - digits.length) '0') := by
  obtain ⟨c, cs, rfl⟩ := List.exists_cons_of_ne_nil hne
  have hall : (c :: cs).all Char.isDigit = true := by
    have hnat := Text.all_isDigit_ofNat n
    rw [← hdigits, List.all_append, Bool.and_eq_true] at hnat
    exact hnat.1
  have hhead : (Text.ofNat n).head? = some c := by rw [← hdigits]; rfl
  have hlow := low_le_of_contains hcontains
  rw [← value_whole hdigits hpoint hlen] at hlow
  constructor
  · refine ⟨c, cs ++ _, rfl, ?_⟩
    intro hc
    rw [hc] at hhead
    exact Text.head?_ofNat_ne_zero hn hhead
  · rw [List.all_append, hall, Bool.true_and]
    simp
  · refine Nat.le_of_mul_le_mul_right ?_ (gridUnit_snd_pos e)
    calc b.low * (gridUnit e).2 ≤ _ := hlow
      _ = _ := by ring

/-- What a number is written as when it stands alone: its sign and then zero, a numeral with a
point, or the numeral of a whole number in its basin. -/
theorem alone_write_spec (x : Binary64) :
    ∃ magnitude, alone.write x = (if x.negative then '-' :: magnitude else magnitude) ∧
      (magnitude = ['0'] ∨
        (∃ c rest, magnitude = c :: rest ∧ c.isDigit = true ∧ '.' ∈ magnitude) ∨
        WholeIn (basin x.units) magnitude) := by
  unfold write
  simp only [show alone.positional = none from rfl, show alone.tie = Tie.away from rfl]
  refine ⟨_, rfl, ?_⟩
  by_cases hnil : (x.shortest .away).digits = []
  · exact Or.inl (if_pos hnil)
  · rcases shortest_spec .away x with hnone | ⟨n, e, k, hn, hcontains, hdigits, hpoint⟩
    · exact absurd hnone hnil
    · obtain ⟨c, cs, hcons⟩ := List.exists_cons_of_ne_nil hnil
      have hhead : (Text.ofNat n).head? = some c := by rw [← hdigits, hcons]; rfl
      refine Or.inr ?_
      rw [if_neg hnil]
      rcases alone_writePositional (x.shortest .away) with hdot | ⟨hpos, hlen, hwhole⟩
      · obtain ⟨c', rest, hrest, hc'⟩ :=
          exists_head_writePositional alone hcons (Text.head?_ofNat_isDigit hhead)
        exact Or.inl ⟨c', rest, hrest, hc', hdot⟩
      · rw [hpoint] at hpos hlen hwhole
        rw [hwhole]
        exact Or.inr (wholeIn_of_contains hn hcontains hnil hdigits hpos hlen)

/-- A number begins with a digit or a minus sign. -/
theorem exists_head_alone_write (x : Binary64) :
    ∃ c rest, alone.write x = c :: rest ∧ (c = '-' ∨ c.isDigit = true) := by
  obtain ⟨magnitude, hwrite, hmagnitude⟩ := alone_write_spec x
  have hdigit : ∃ c rest, magnitude = c :: rest ∧ c.isDigit = true := by
    rcases hmagnitude with rfl | ⟨c, rest, rfl, hc, -⟩ | hwhole
    · exact ⟨'0', [], rfl, by decide⟩
    · exact ⟨c, rest, rfl, hc⟩
    · obtain ⟨c, rest, rfl, -⟩ := hwhole.head
      exact ⟨c, rest, rfl, List.all_eq_true.1 hwhole.digits c List.mem_cons_self⟩
  obtain ⟨c, rest, rfl, hc⟩ := hdigit
  rw [hwrite]
  split_ifs
  · exact ⟨'-', _, rfl, Or.inl rfl⟩
  · exact ⟨c, rest, rfl, Or.inr hc⟩

/-- The sign of a number is taken off what is written of it. -/
theorem signed_alone_write {x : Binary64} {c : Char} {rest : Text} (hc : c.isDigit = true)
    (h : alone.write x = if x.negative then '-' :: c :: rest else c :: rest) :
    Text.signed (alone.write x) = (x.negative, c :: rest) := by
  rw [h]
  cases x.negative with
  | true => rfl
  | false => exact Text.signed_of_isDigit hc rest

/-- The integer that a number is read as, once it is written, is zero or at least the low end of its
basin. -/
theorem low_le_of_read?_write {x : Binary64} {m : Int}
    (h : Integer.read? (alone.write x) = some m) :
    m = 0 ∨ (basin x.units).low ≤ m.natAbs * (basin x.units).den := by
  obtain ⟨magnitude, hwrite, rfl | ⟨c, rest, rfl, hc, hdot⟩ | hwhole⟩ := alone_write_spec x
  · refine Or.inl ?_
    rw [hwrite] at h
    cases hneg : x.negative <;> rw [hneg] at h <;> exact (Option.some.inj h).symm
  · have hmem : '.' ∈ alone.write x := by
      rw [hwrite]
      split_ifs
      · exact List.mem_cons_of_mem _ hdot
      · exact hdot
    rw [Integer.read?_eq_none_of_point hmem] at h
    exact absurd h.symm (Option.some_ne_none m)
  · obtain ⟨c, rest, rfl, hne⟩ := hwhole.head
    have hc : c.isDigit = true := List.all_eq_true.1 hwhole.digits c List.mem_cons_self
    have hsigned := signed_alone_write hc hwrite
    have hzero : Text.hasLeadingZero (c :: rest) = false := by
      rw [← Bool.not_eq_true]
      intro hlead
      obtain ⟨u, hu, -⟩ := Text.hasLeadingZero_eq_true hlead
      exact hne (List.cons.inj hu).1
    rw [Integer.read?_eq_decimal? (by rw [hsigned]; exact hwhole.digits)
      (by rw [hsigned]; exact hzero), Integer.decimal?_eq_some_iff, hsigned] at h
    exact Or.inr (Integer.natAbs_of_ofMagnitude? h.2 ▸ hwhole.low_le)

end Layout

end HealthCheck
