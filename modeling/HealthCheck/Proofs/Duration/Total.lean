import HealthCheck.Proofs.Abort
import HealthCheck.Proofs.Duration.Literal

/-!
# What a duration literal adds up to

The nanoseconds of a component (`Component.size`) and of components together (`size`), as natural
numbers without bounds. Reading keeps bounds: a whole part within the widest word, and the total
within the greatest number of nanoseconds after every component. As no component is negative, the
bounds come to one, and exact reading, which no sum stops, accepts a literal exactly where its
components together are within the greatest number: `exactNanos?_of_isLiteral`.
-/

namespace HealthCheck.Duration

open Text (digit value)

/-! ## Components -/

/-- The component is made of digits and has one of the units. -/
structure Component.WellFormed (c : Component) : Prop where
  whole : ∀ d ∈ c.whole, d.isDigit = true
  fraction : ∀ d ∈ c.fraction, d.isDigit = true
  unit : c.scale ∈ units.map Prod.snd

theorem IsUnit.scale_mem {unit : Text} {scale : Nat} (h : IsUnit unit scale) :
    scale ∈ units.map Prod.snd :=
  List.mem_map_of_mem (isUnit_iff_mem.1 h)

/-- What is spelled as a component is one: it has digits and a unit. -/
theorem Component.Spelled.wellFormed {c : Component} {t : Text} (h : c.Spelled t) :
    c.WellFormed := by
  cases h with
  | whole _ hdigits hunit =>
    exact ⟨hdigits, fun d hd => absurd hd List.not_mem_nil, hunit.scale_mem⟩
  | point _ hwhole hfraction hunit => exact ⟨hwhole, hfraction, hunit.scale_mem⟩

theorem SpelledAll.wellFormed {cs : List Component} {t : Text} (h : SpelledAll cs t) :
    ∀ c ∈ cs, c.WellFormed := by
  induction h with
  | nil => exact fun c hc => absurd hc List.not_mem_nil
  | cons hfirst _ ih => exact List.forall_mem_cons.2 ⟨hfirst.wellFormed, ih⟩

theorem IsLiteral.wellFormed {t : Text} {negative : Bool} {cs : List Component}
    (h : IsLiteral t negative cs) : ∀ c ∈ cs, c.WellFormed := by
  obtain ⟨_, _, -, -, -, hspelled⟩ := h
  exact hspelled.wellFormed

theorem scale_pos : ∀ scale ∈ units.map Prod.snd, 0 < scale := by
  decide

/-- The nanoseconds of the digits of a fraction, every digit truncated by itself. The divisor is
that of the digit before. -/
def fractionNanos (scale : Nat) : (divisor : Nat) → Text → Nat
  | _, [] => 0
  | divisor, d :: ds => digit d * scale / (divisor * 10) + fractionNanos scale (divisor * 10) ds

/-- The nanoseconds of a component, however many. -/
def Component.size (c : Component) : Nat :=
  value 10 c.whole * c.scale + fractionNanos c.scale 1 c.counted

theorem Component.mul_le_size (c : Component) : value 10 c.whole * c.scale ≤ c.size :=
  Nat.le_add_right _ _

theorem Component.WellFormed.whole_le_mul {c : Component} (h : c.WellFormed) :
    value 10 c.whole ≤ value 10 c.whole * c.scale :=
  Nat.le_mul_of_pos_right _ (scale_pos _ h.unit)

theorem bounded?_of_le {n : Nat} (h : n ≤ widest) : bounded? n = some n := if_pos h

theorem bounded?_of_not_le {n : Nat} (h : ¬ n ≤ widest) : bounded? n = none := if_neg h

/-- Only the whole part of a component is bounded when it is read. -/
theorem Component.WellFormed.base?_eq {c : Component} (h : c.WellFormed) :
    c.base? =
      if value 10 c.whole * c.scale ≤ widest then some (value 10 c.whole * c.scale) else none := by
  unfold base?
  by_cases hbase : value 10 c.whole * c.scale ≤ widest
  · rw [if_pos hbase, bounded?_of_le (Nat.le_trans h.whole_le_mul hbase)]
    exact bounded?_of_le hbase
  · rw [if_neg hbase]
    by_cases hwhole : value 10 c.whole ≤ widest
    · rw [bounded?_of_le hwhole]
      exact bounded?_of_not_le hbase
    · rw [bounded?_of_not_le hwhole]
      rfl

/-- Where what is below a sum that fits also fits, only the last sum decides whether adding a
fraction stops. -/
theorem addFraction_eq {fits : Nat → Bool} (hfits : ∀ m n, m ≤ n → fits n = true → fits m = true)
    (scale divisor : Nat) {sum : Nat} (ds : Text) (hsum : fits sum = true) :
    addFraction fits scale divisor sum ds =
      if fits (sum + fractionNanos scale divisor ds) then
        .ok (sum + fractionNanos scale divisor ds)
      else .error .overflow := by
  induction ds generalizing divisor sum with
  | nil =>
    rw [addFraction, fractionNanos, Nat.add_zero, if_pos hsum]
  | cons d ds ih =>
    rw [addFraction, fractionNanos, ← Nat.add_assoc]
    show (if fits (sum + digit d * scale / (divisor * 10)) then _ else _) = _
    by_cases hnext : fits (sum + digit d * scale / (divisor * 10)) = true
    · rw [if_pos hnext]
      exact ih (divisor * 10) hnext
    · rw [if_neg hnext, if_neg fun hlast => hnext (hfits _ _ (Nat.le_add_right _ _) hlast)]

section

variable {fits : Nat → Bool} (hfits : ∀ m n, m ≤ n → fits n = true → fits m = true)
  (hwide : ∀ n ≤ widest, fits n = true)
include hfits hwide

/-- The nanoseconds of a component: refused where the whole part is too wide, and without a result
where the fraction takes the sum beyond what fits. -/
theorem Component.WellFormed.nanos?_eq {c : Component} (h : c.WellFormed) :
    c.nanos? fits =
      if value 10 c.whole * c.scale ≤ widest then
        if fits c.size then .ok (some c.size) else .error .overflow
      else .ok none := by
  unfold nanos?
  rw [h.base?_eq]
  by_cases hbase : value 10 c.whole * c.scale ≤ widest
  · rw [if_pos hbase, if_pos hbase]
    show (addFraction fits c.scale 1 (value 10 c.whole * c.scale) c.counted >>= _) = _
    rw [addFraction_eq hfits _ _ _ (hwide _ hbase)]
    show ((if fits c.size then Except.ok c.size else _) >>= _) = _
    split_ifs <;> rfl
  · rw [if_neg hbase, if_neg hbase]
    rfl

end

/-! ## Components together -/

/-- The nanoseconds of components together, however many. -/
def size (cs : List Component) : Nat := (cs.map Component.size).sum

@[simp] theorem size_nil : size [] = 0 := rfl

@[simp] theorem size_cons (c : Component) (cs : List Component) :
    size (c :: cs) = c.size + size cs := List.sum_cons

theorem size_append (cs ds : List Component) : size (cs ++ ds) = size cs + size ds := by
  rw [size, List.map_append, List.sum_append]
  rfl

theorem widest_eq : widest = 170141183460469231731687303715884105727 := by
  decide +kernel

/-- Components are read off pieces as long as the pieces are numbers and units. -/
theorem addComponents?_cons (fits : Nat → Bool) (total : Nat) (number unit : Text)
    (rest : List Text) :
    addComponents? fits total (number :: unit :: rest) =
      match if number.all isNumeric then component? number unit else none with
      | none => .ok none
      | some c => c.nanos? fits >>= fun
        | none => .ok none
        | some nanos =>
          if Integer.greatest < (total + nanos : Nat) then .ok none
          else addComponents? fits (total + nanos) rest := by
  rw [addComponents?]
  cases (if number.all isNumeric then component? number unit else none) with
  | none => rfl
  | some c =>
    refine congrArg (c.nanos? fits >>= ·) (funext fun nanos? => ?_)
    cases nanos? <;> rfl

/-- What is read off the first two pieces is well-formed. -/
theorem wellFormed_of_component? {number unit : Text} {c : Component}
    (h : (if number.all isNumeric then component? number unit else none) = some c) :
    c.WellFormed := by
  obtain ⟨hnumeric, hc⟩ := Option.ite_none_right_eq_some.1 h
  exact (spelled_of_component? (List.all_eq_true.1 hnumeric) hc).wellFormed

/-- In exact numbers, components are added to a total exactly where they do not exceed the greatest
number together with it. -/
theorem addComponents?_exact {total : Nat} (htotal : (total : Int) ≤ Integer.greatest)
    (pieces : List Text) :
    addComponents? (fun _ => true) total pieces =
      .ok ((components? pieces).bind fun cs =>
        if ((total + size cs : Nat) : Int) ≤ Integer.greatest then some (total + size cs)
        else none) := by
  match pieces with
  | [] =>
    rw [addComponents?, components?, Option.bind_some, size_nil, Nat.add_zero, if_pos htotal]
    rfl
  | [_] => rfl
  | number :: unit :: rest =>
    rw [addComponents?_cons]
    cases hread : (if number.all isNumeric then component? number unit else none) with
    | none =>
      have hnone : components? (number :: unit :: rest) = none := by
        rw [components?_cons]
        split_ifs at hread ⊢
        · rw [hread]
          rfl
        · rfl
      rw [hnone]
      rfl
    | some c =>
      obtain ⟨hnumeric, hc⟩ := Option.ite_none_right_eq_some.1 hread
      have hformed := wellFormed_of_component? hread
      have hcomponents : components? (number :: unit :: rest) =
          (components? rest).map (c :: ·) := by
        rw [components?_cons, if_pos hnumeric, hc, Option.bind_some]
      simp only [hformed.nanos?_eq (fun _ _ _ _ => rfl) (fun _ _ => rfl), if_true]
      rw [hcomponents]
      have hmul := c.mul_le_size
      have hwide := widest_eq
      have hgreatest : Integer.greatest = 9223372036854775807 := rfl
      by_cases hsum : ((total + c.size : Nat) : Int) ≤ Integer.greatest
      · rw [if_pos (show value 10 c.whole * c.scale ≤ widest by omega), Abort.ok_bind]
        show (if Integer.greatest < ((total + c.size : Nat) : Int) then _ else _) = _
        rw [if_neg (not_lt.2 hsum), addComponents?_exact hsum rest, Option.bind_map]
        refine congrArg Except.ok (congrArg _ (funext fun cs => ?_))
        rw [Function.comp_apply, size_cons, Nat.add_assoc]
      · -- The total is refused, or already the whole part of the component.
        have hrefused : ∀ cs, ¬ ((total + size (c :: cs) : Nat) : Int) ≤ Integer.greatest := by
          intro cs
          rw [size_cons]
          omega
        have hnone : ((components? rest).map (c :: ·)).bind (fun cs =>
            if ((total + size cs : Nat) : Int) ≤ Integer.greatest then some (total + size cs)
            else none) = none := by
          rw [Option.bind_map, Option.bind_eq_none_iff]
          exact fun cs _ => if_neg (hrefused cs)
        rw [hnone]
        by_cases hbase : value 10 c.whole * c.scale ≤ widest
        · rw [if_pos hbase, Abort.ok_bind]
          exact if_pos (not_le.1 hsum)
        · rw [if_neg hbase]
          rfl

/-! ## Literals -/

/-- The magnitude with its sign. -/
def withSign (negative : Bool) (n : Nat) : Int := if negative then -n else n

@[simp] theorem natAbs_withSign (negative : Bool) (n : Nat) : (withSign negative n).natAbs = n := by
  cases negative <;> simp [withSign]

/-- A number is its magnitude with its sign. -/
theorem withSign_natAbs (n : Int) : withSign (decide (n < 0)) n.natAbs = n := by
  unfold withSign
  by_cases hneg : n < 0
  · rw [if_pos (by simpa using hneg)]
    omega
  · rw [if_neg (by simpa using hneg)]
    omega

/-- Division that truncates toward zero divides the magnitude and keeps the sign. -/
theorem withSign_tdiv (negative : Bool) (m n : Nat) :
    (withSign negative m).tdiv n = withSign negative (m / n) := by
  cases negative with
  | false => rfl
  | true => exact Int.neg_tdiv m n

/-- Reads a duration literal, in nanoseconds that no sum takes out of their word. -/
def exactNanos? : Text → Except Abort (Option Int) := nanosWithin? fun _ => true

/-- Exact reading is the grammar, the sum and the sign. -/
theorem exactNanos?_eq (t : Text) :
    exactNanos? t = .ok ((literal? t).bind fun (negative, cs) =>
      if (size cs : Int) ≤ Integer.greatest then some (withSign negative (size cs)) else none) := by
  unfold exactNanos? nanosWithin? literal?
  by_cases hempty : (Text.signed t).2 = []
  · simp only [if_pos hempty, Option.bind_none]
    rfl
  · simp only [if_neg hempty]
    rw [addComponents?_exact (by decide), Abort.ok_bind]
    refine congrArg Except.ok ?_
    cases components? (Text.runs isNumeric (Text.signed t).2) with
    | none => rfl
    | some cs =>
      simp only [Option.bind_some, Option.map_some, Nat.zero_add]
      by_cases hle : (size cs : Int) ≤ Integer.greatest
      · rw [if_pos hle, if_pos hle]
        rfl
      · rw [if_neg hle, if_neg hle]
        rfl

/-- What is no literal has no nanoseconds. -/
theorem exactNanos?_of_not_isLiteral {t : Text} (h : ∀ negative cs, ¬ IsLiteral t negative cs) :
    exactNanos? t = .ok none := by
  have hnone : literal? t = none := by
    rw [Option.eq_none_iff_forall_ne_some]
    rintro ⟨negative, cs⟩ hread
    exact h negative cs (literal?_eq_some_iff.1 hread)
  rw [exactNanos?_eq, hnone]
  rfl

/-- **Exact reading.** A literal is read as what its components add up to, where that is within the
greatest number of nanoseconds. -/
theorem exactNanos?_of_isLiteral {t : Text} {negative : Bool} {cs : List Component}
    (h : IsLiteral t negative cs) :
    exactNanos? t = .ok
      (if (size cs : Int) ≤ Integer.greatest then some (withSign negative (size cs))
        else none) := by
  rw [exactNanos?_eq, literal?_eq_some_iff.2 h]
  rfl

end HealthCheck.Duration
