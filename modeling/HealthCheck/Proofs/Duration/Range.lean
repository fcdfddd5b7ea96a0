import HealthCheck.Proofs.Duration.Precision

/-!
# The range of durations

Reading a literal bounds the whole part of a component and the total, but adds the digits of a
fraction to a component without looking. `computed` lists every value that reading a text computes,
in the order in which they arise and in exact numbers, up to the point where a bound or the grammar
stops it. All of them fit into a word of 128 bits unless a component is reached whose whole part is
as many units as the word holds and whose fraction is more than what is left of it (`Overflows`):
`computed_inWord_iff`. At such a component reading has no result (`millis?_eq_overflow_iff`); every
other text is read as in exact numbers (`millis?_eq_exactMillis?`).
-/

namespace HealthCheck.Duration

open Text (digit value)

/-! ## Words -/

/-- The integer fits into a signed word of so many bits. -/
def InWord (bits : Nat) (n : Int) : Prop := -2 ^ (bits - 1) ≤ n ∧ n < 2 ^ (bits - 1)

instance (bits : Nat) (n : Int) : Decidable (InWord bits n) := inferInstanceAs (Decidable (_ ∧ _))

/-- A word holds what fits into it. -/
theorem wrap_of_inWord {bits : Nat} (hbits : 0 < bits) {n : Int} (h : InWord bits n) :
    Integer.wrap bits n = n := by
  obtain ⟨bits, rfl⟩ : ∃ k, bits = k + 1 := ⟨bits - 1, by omega⟩
  have hsize : ((Nat.pow 2 (bits + 1) : ℕ) : Int) = 2 ^ bits * 2 := by
    show ((2 ^ (bits + 1) : ℕ) : Int) = _
    push_cast
    ring
  rw [InWord, Nat.add_sub_cancel] at h
  refine Int.bmod_eq_of_le_mul_two ?_ ?_
  · rw [hsize]
    omega
  · rw [hsize]
    omega

/-- A natural number fits into the word of 128 bits exactly if it does not exceed the widest
number. -/
theorem natCast_inWord_iff {n : Nat} : InWord 128 n ↔ n ≤ widest := by
  rw [InWord, widest_eq]
  norm_num
  omega

/-! ## The values that reading computes -/

/-- The values computed for the digits of a fraction that are added to a sum: for each digit its
place, the digit in nanoseconds, the share of its place, and the sum with it. -/
def fractionSteps (scale : Nat) : (divisor sum : Nat) → Text → List Nat
  | _, _, [] => []
  | divisor, sum, d :: ds =>
    let place := divisor * 10
    let share := digit d * scale / place
    place :: digit d * scale :: share :: (sum + share) :: fractionSteps scale place (sum + share) ds

/-- The values computed for a component. The whole part is bounded before and after it is turned
into nanoseconds; the fraction is not. -/
def Component.steps (c : Component) : List Nat :=
  match bounded? (value 10 c.whole) with
  | none => []
  | some whole =>
    match bounded? (whole * c.scale) with
    | none => [whole]
    | some base => whole :: base :: fractionSteps c.scale 1 base c.counted

/-- The values computed for components that are added to a total, up to the first bound that is not
kept. -/
def stepsFrom : (total : Nat) → List Component → List Nat
  | _, [] => []
  | total, c :: cs =>
    c.steps ++
      if c.base? = none ∨ widest < total + c.size then []
      else
        (total + c.size) ::
          if Integer.greatest < (total + c.size : Nat) then [] else stepsFrom (total + c.size) cs

/-- The components in front of the first piece that is none. They are read before it is met. -/
def leading : List Text → List Component
  | number :: unit :: rest =>
    if number.all isNumeric then
      match component? number unit with
      | some c => c :: leading rest
      | none => []
    else []
  | _ => []

/-- The components that reading a text meets. -/
def met (t : Text) : List Component := leading (Text.runs isNumeric (Text.signed t).2)

/-- Every value that reading a text as a duration computes, in exact numbers: those of its
components and the total with its sign. -/
def computed (t : Text) : List Int :=
  (stepsFrom 0 (met t)).map Nat.cast ++ (exactNanos? t).toOption.join.toList

/-! ## Components that overflow -/

/-- The whole part is as many units as a word holds, and the fraction more nanoseconds than the word
has left. -/
def Component.Overflows (c : Component) : Prop :=
  value 10 c.whole = widest / c.scale ∧ widest % c.scale < fractionNanos c.scale 1 c.counted

/-- A component that overflows is reached: those in front of it do not exceed the greatest number of
nanoseconds together with the total. -/
def OverflowsFrom (total : Nat) (cs : List Component) : Prop :=
  ∃ front c back, cs = front ++ c :: back ∧ ((total + size front : Nat) : Int) ≤ Integer.greatest ∧
    c.Overflows

/-- Reading the text reaches a component that overflows. -/
def Overflows (t : Text) : Prop := OverflowsFrom 0 (met t)

/-- Without components nothing overflows. -/
theorem not_overflowsFrom_nil {total : Nat} : ¬ OverflowsFrom total [] := by
  rintro ⟨front, c, back, hsplit, -⟩
  exact absurd hsplit (by simp)

/-- Reading reaches a component that overflows where the first does, or where the sum with the first
keeps the bound and one behind it is reached. -/
theorem overflowsFrom_cons {total : Nat} (htotal : (total : Int) ≤ Integer.greatest)
    {c : Component} {cs : List Component} :
    OverflowsFrom total (c :: cs) ↔ c.Overflows ∨
      ((total + c.size : Nat) : Int) ≤ Integer.greatest ∧ OverflowsFrom (total + c.size) cs := by
  constructor
  · rintro ⟨front, d, back, hsplit, hsize, hd⟩
    cases front with
    | nil =>
      obtain ⟨rfl, -⟩ := List.cons.inj hsplit
      exact Or.inl hd
    | cons e front =>
      obtain ⟨rfl, hcs⟩ := List.cons.inj hsplit
      rw [size_cons, ← Nat.add_assoc] at hsize
      refine Or.inr ⟨?_, front, d, back, hcs, hsize, hd⟩
      push_cast at hsize ⊢
      omega
  · rintro (hc | ⟨hle, front, d, back, rfl, hsize, hd⟩)
    · exact ⟨[], c, cs, rfl, htotal, hc⟩
    · refine ⟨c :: front, d, back, rfl, ?_, hd⟩
      rw [size_cons, ← Nat.add_assoc]
      exact hsize

/-! ## The range of a component -/

/-- The digits of a fraction keep within the widest number as far as what they add up to does. -/
theorem fractionSteps_le_iff {scale divisor sum : Nat} {ds : Text}
    (hplaces : divisor * 10 ^ ds.length ≤ widest) (hscale : 9 * scale ≤ widest)
    (hds : ∀ d ∈ ds, d.isDigit = true) (hsum : sum ≤ widest) :
    (∀ n ∈ fractionSteps scale divisor sum ds, n ≤ widest) ↔
      sum + fractionNanos scale divisor ds ≤ widest := by
  induction ds generalizing divisor sum with
  | nil => simpa [fractionSteps, fractionNanos] using hsum
  | cons d ds ih =>
    have hpower : divisor * 10 ^ (d :: ds).length = divisor * 10 * 10 ^ ds.length := by
      rw [List.length_cons]
      ring
    rw [hpower] at hplaces
    have hplace : divisor * 10 ≤ widest :=
      Nat.le_trans (Nat.le_mul_of_pos_right _ (by positivity)) hplaces
    have hproduct : digit d * scale ≤ widest :=
      Nat.le_trans (Nat.mul_le_mul_right scale (digit_le_nine (hds d List.mem_cons_self))) hscale
    have hshare : digit d * scale / (divisor * 10) ≤ widest :=
      Nat.le_trans (Nat.div_le_self _ _) hproduct
    -- Places, products and shares are small. Only the sums may become too large.
    have hnanos : fractionNanos scale divisor (d :: ds) =
        digit d * scale / (divisor * 10) + fractionNanos scale (divisor * 10) ds := rfl
    rw [hnanos, ← Nat.add_assoc]
    simp only [fractionSteps, List.forall_mem_cons, hplace, hproduct, hshare, true_and]
    by_cases hnext : sum + digit d * scale / (divisor * 10) ≤ widest
    · rw [ih hplaces (fun x hx => hds x (List.mem_cons_of_mem d hx)) hnext]
      exact and_iff_right hnext
    · constructor
      · exact fun h => absurd h.1 hnext
      · exact fun h => absurd (Nat.le_trans (Nat.le_add_right _ _) h) hnext

/-- A number of units and less than one unit more exceed the widest number only where the units are
as many as it holds. -/
theorem add_le_widest_iff {whole scale rest : Nat} (hbase : whole * scale ≤ widest)
    (hrest : rest < scale) :
    whole * scale + rest ≤ widest ↔ ¬ (whole = widest / scale ∧ widest % scale < rest) := by
  have hpos : 0 < scale := Nat.zero_lt_of_lt hrest
  have hdiv : widest / scale * scale + widest % scale = widest := by
    rw [Nat.mul_comm]
    exact Nat.div_add_mod widest scale
  have hle : whole ≤ widest / scale := (Nat.le_div_iff_mul_le hpos).2 hbase
  rcases Nat.lt_or_eq_of_le hle with hlt | heq
  · -- A whole unit is left, which is more than the rest.
    have hnext : (whole + 1) * scale ≤ widest / scale * scale := Nat.mul_le_mul_right scale hlt
    rw [Nat.add_mul, Nat.one_mul] at hnext
    constructor
    · intro _ hover
      omega
    · intro _
      omega
  · rw [← heq] at hdiv ⊢
    constructor
    · intro hsum hover
      omega
    · intro hover
      by_contra hsum
      exact hover ⟨rfl, by omega⟩

namespace Component.WellFormed

variable {c : Component} (h : c.WellFormed)
include h

theorem counted : ∀ d ∈ c.counted, d.isDigit = true :=
  fun d hd => h.fraction d (List.mem_of_mem_take hd)

/-- The values of a component whose whole part fits: the whole part, its nanoseconds, and the sums
with the fraction. -/
theorem steps_of_le (hbase : value 10 c.whole * c.scale ≤ widest) :
    c.steps = value 10 c.whole :: value 10 c.whole * c.scale ::
      fractionSteps c.scale 1 (value 10 c.whole * c.scale) c.counted := by
  unfold steps
  simp only [bounded?_of_le (Nat.le_trans h.whole_le_mul hbase), bounded?_of_le hbase]

/-- **One component.** Its values keep within the widest number unless it overflows. -/
theorem steps_le_iff : (∀ n ∈ c.steps, n ≤ widest) ↔ ¬ c.Overflows := by
  have hpos : 0 < c.scale := scale_pos _ h.unit
  have hunit : 9 * c.scale ≤ widest := by
    obtain ⟨-, -, -, hsmall⟩ := scale_spec _ h.unit
    have hwide := widest_eq
    omega
  have hplaces : 1 * 10 ^ c.counted.length ≤ widest := by
    have hlength : c.counted.length ≤ 18 := List.length_take_le 18 c.fraction
    have hwide : 10 ^ 18 ≤ widest := by
      rw [widest_eq]
      norm_num
    rw [Nat.one_mul]
    exact Nat.le_trans (Nat.pow_le_pow_right (by decide) hlength) hwide
  have hfraction : fractionNanos c.scale 1 c.counted < c.scale := fractionNanos_lt hpos h.counted
  by_cases hbase : value 10 c.whole * c.scale ≤ widest
  · rw [h.steps_of_le hbase, List.forall_mem_cons, List.forall_mem_cons,
      fractionSteps_le_iff hplaces hunit h.counted hbase, add_le_widest_iff hbase hfraction,
      and_iff_right hbase, and_iff_right (Nat.le_trans h.whole_le_mul hbase)]
    rfl
  · -- Reading stops at the bound, and a component that overflows would keep it.
    have hover : ¬ c.Overflows := fun hover =>
      hbase (hover.1 ▸ Nat.div_mul_le_self widest c.scale)
    refine iff_of_true (fun n hn => ?_) hover
    unfold steps at hn
    by_cases hwhole : value 10 c.whole ≤ widest
    · simp only [bounded?_of_le hwhole, bounded?_of_not_le hbase] at hn
      exact List.mem_singleton.1 hn ▸ hwhole
    · simp only [bounded?_of_not_le hwhole] at hn
      exact absurd hn List.not_mem_nil

/-- A component overflows where its whole part is within the widest number and the sum with the
fraction is not. -/
theorem overflows_iff :
    c.Overflows ↔ value 10 c.whole * c.scale ≤ widest ∧ widest < c.size := by
  have hfraction : fractionNanos c.scale 1 c.counted < c.scale :=
    fractionNanos_lt (scale_pos _ h.unit) h.counted
  constructor
  · intro hover
    have hbase : value 10 c.whole * c.scale ≤ widest :=
      hover.1 ▸ Nat.div_mul_le_self widest c.scale
    exact ⟨hbase, Nat.lt_of_not_le fun hle => (add_le_widest_iff hbase hfraction).1 hle hover⟩
  · rintro ⟨hbase, hsize⟩
    by_contra hover
    exact Nat.not_le_of_lt hsize ((add_le_widest_iff hbase hfraction).2 hover)

end Component.WellFormed

/-! ## The range of a sum -/

section

variable {cs : List Component} (h : ∀ c ∈ cs, c.WellFormed)
include h

/-- **Components together.** Their values keep within the widest number unless one that overflows is
reached. -/
theorem stepsFrom_le_iff {total : Nat} (htotal : (total : Int) ≤ Integer.greatest) :
    (∀ n ∈ stepsFrom total cs, n ≤ widest) ↔ ¬ OverflowsFrom total cs := by
  induction cs generalizing total with
  | nil =>
    exact ⟨fun _ => not_overflowsFrom_nil, fun _ n hn => absurd hn List.not_mem_nil⟩
  | cons c cs ih =>
    obtain ⟨hc, hcs⟩ := List.forall_mem_cons.1 h
    rw [overflowsFrom_cons htotal, not_or, ← hc.steps_le_iff, stepsFrom, List.forall_mem_append,
      hc.base?_eq]
    refine and_congr_right fun _ => ?_
    have hmul := c.mul_le_size
    have hwide := widest_eq
    have hgreatest : Integer.greatest = 9223372036854775807 := rfl
    by_cases hbase : value 10 c.whole * c.scale ≤ widest
    · simp only [if_pos hbase, reduceCtorEq, false_or]
      by_cases hword : widest < total + c.size
      · -- The addition to the total is looked at and stops the reading.
        have hbeyond : ¬ ((total + c.size : Nat) : Int) ≤ Integer.greatest := by omega
        simp only [if_pos hword]
        exact iff_of_true (fun n hn => absurd hn List.not_mem_nil) fun hrest => hbeyond hrest.1
      · simp only [if_neg hword, List.forall_mem_cons]
        by_cases hsum : ((total + c.size : Nat) : Int) ≤ Integer.greatest
        · rw [if_neg (by omega), ih hcs hsum]
          simp only [hsum, true_and]
          exact and_iff_right (Nat.le_of_not_lt hword)
        · rw [if_pos (by omega)]
          simp only [hsum, false_and, not_false_iff, iff_true]
          exact ⟨Nat.le_of_not_lt hword, fun n hn => absurd hn List.not_mem_nil⟩
    · -- So does the bound on the whole part.
      have hbeyond : ¬ ((total + c.size : Nat) : Int) ≤ Integer.greatest := by omega
      simp only [if_neg hbase, true_or, if_true]
      exact iff_of_true (fun n hn => absurd hn List.not_mem_nil) fun hrest => hbeyond hrest.1

end

/-! ## The range of a text -/

/-- The components that reading meets, up to the first piece that it refuses. -/
theorem leading_cons (number unit : Text) (rest : List Text) :
    leading (number :: unit :: rest) =
      match if number.all isNumeric then component? number unit else none with
      | none => []
      | some c => c :: leading rest := by
  rw [leading]
  split_ifs
  · cases component? number unit <;> rfl
  · rfl

theorem leading_wellFormed (pieces : List Text) : ∀ c ∈ leading pieces, c.WellFormed := by
  match pieces with
  | [] => exact fun c hc => absurd hc List.not_mem_nil
  | [_] => exact fun c hc => absurd hc List.not_mem_nil
  | number :: unit :: rest =>
    rw [leading_cons]
    cases hread : (if number.all isNumeric then component? number unit else none) with
    | none => exact fun c hc => absurd hc List.not_mem_nil
    | some c =>
      exact List.forall_mem_cons.2 ⟨wellFormed_of_component? hread, leading_wellFormed rest⟩

/-- Where all components are well-formed, reading meets all of them. -/
theorem leading_of_components? {pieces : List Text} {cs : List Component}
    (h : components? pieces = some cs) : leading pieces = cs := by
  match pieces with
  | [] =>
    cases h
    rfl
  | [_] => cases h
  | number :: unit :: rest =>
    obtain ⟨hnumeric, c, cs', hc, hrest, rfl⟩ := components?_cons_eq_some_iff.1 h
    rw [leading_cons, if_pos hnumeric, hc, leading_of_components? hrest]

/-- All components of a literal are met. -/
theorem IsLiteral.met_eq {t : Text} {negative : Bool} {cs : List Component}
    (h : IsLiteral t negative cs) : met t = cs := by
  obtain ⟨sign, body, rfl, hsign, -, hspelled⟩ := h
  rw [met, signed_of_isSign hsign hspelled.isNumeric_head]
  exact leading_of_components? (components?_runs hspelled)

/-- What is read exactly is within the greatest number of nanoseconds. -/
theorem natAbs_of_exactNanos? {t : Text} {n : Int} (h : exactNanos? t = .ok (some n)) :
    (n.natAbs : Int) ≤ Integer.greatest := by
  by_cases hliteral : ∃ negative cs, IsLiteral t negative cs
  · obtain ⟨negative, cs, hcs⟩ := hliteral
    rw [exactNanos?_of_isLiteral hcs] at h
    obtain ⟨hle, heq⟩ := Option.ite_none_right_eq_some.1 (Except.ok.inj h)
    rw [← Option.some.inj heq, natAbs_withSign]
    exact hle
  · push Not at hliteral
    rw [exactNanos?_of_not_isLiteral hliteral] at h
    cases h

/-- **The range.** Every value that reading a text computes fits into a word of 128 bits unless a
component that overflows is reached. -/
theorem computed_inWord_iff (t : Text) : (∀ n ∈ computed t, InWord 128 n) ↔ ¬ Overflows t := by
  have htotal : ∀ n ∈ (exactNanos? t).toOption.join.toList, InWord 128 n := by
    intro n hn
    have hread : exactNanos? t = .ok (some n) := by
      rw [exactNanos?_eq] at hn ⊢
      exact congrArg Except.ok (Option.mem_toList.1 hn)
    have hrange := natAbs_of_exactNanos? hread
    have hgreatest : Integer.greatest = 9223372036854775807 := rfl
    rw [InWord]
    norm_num
    omega
  rw [computed, List.forall_mem_append, and_iff_left htotal, List.forall_mem_map]
  simp only [natCast_inWord_iff]
  exact stepsFrom_le_iff (leading_wellFormed _) (by decide)

/-! ## Reading in words -/

/-- The nanoseconds of a component in a word of 128 bits. -/
theorem Component.WellFormed.nanos?_widest {c : Component} (h : c.WellFormed) :
    (c.Overflows → c.nanos? (fun n => n ≤ widest) = .error .overflow) ∧
    (¬ c.Overflows → c.nanos? (fun n => n ≤ widest) = c.nanos? fun _ => true) := by
  have hmono : ∀ m n, m ≤ n → decide (n ≤ widest) = true → decide (m ≤ widest) = true := by
    intro m n hle hn
    exact decide_eq_true (Nat.le_trans hle (of_decide_eq_true hn))
  rw [h.nanos?_eq hmono fun n hn => decide_eq_true hn,
    h.nanos?_eq (fun _ _ _ _ => rfl) fun _ _ => rfl, h.overflows_iff]
  constructor
  · rintro ⟨hbase, hsize⟩
    rw [if_pos hbase, if_neg fun hle => absurd (of_decide_eq_true hle) (Nat.not_le_of_lt hsize)]
  · intro hover
    by_cases hbase : value 10 c.whole * c.scale ≤ widest
    · have hsize : c.size ≤ widest := Nat.le_of_not_lt fun hsize => hover ⟨hbase, hsize⟩
      rw [if_pos hbase, if_pos hbase, if_pos (decide_eq_true hsize), if_pos rfl]
    · rw [if_neg hbase, if_neg hbase]

/-- Adding components in words stops at one that overflows and is exact otherwise. -/
theorem addComponents?_widest {total : Nat} (htotal : (total : Int) ≤ Integer.greatest)
    (pieces : List Text) :
    (OverflowsFrom total (leading pieces) →
      addComponents? (fun n => n ≤ widest) total pieces = .error .overflow) ∧
    (¬ OverflowsFrom total (leading pieces) →
      addComponents? (fun n => n ≤ widest) total pieces =
        addComponents? (fun _ => true) total pieces) := by
  match pieces with
  | [] => exact ⟨fun h => absurd h not_overflowsFrom_nil, fun _ => rfl⟩
  | [_] => exact ⟨fun h => absurd h not_overflowsFrom_nil, fun _ => rfl⟩
  | number :: unit :: rest =>
    rw [addComponents?_cons, addComponents?_cons, leading_cons]
    cases hread : (if number.all isNumeric then component? number unit else none) with
    | none => exact ⟨fun h => absurd h not_overflowsFrom_nil, fun _ => rfl⟩
    | some c =>
      have hformed := wellFormed_of_component? hread
      obtain ⟨hstops, hexact⟩ := hformed.nanos?_widest
      rw [overflowsFrom_cons htotal]
      by_cases hover : c.Overflows
      · simp only [hstops hover]
        exact ⟨fun _ => rfl, fun h => absurd (Or.inl hover) h⟩
      · simp only [hover, false_or, hexact hover,
          hformed.nanos?_eq (fun _ _ _ _ => rfl) fun _ _ => rfl, if_true]
        have hmul := c.mul_le_size
        have hwide := widest_eq
        have hgreatest : Integer.greatest = 9223372036854775807 := rfl
        by_cases hsum : ((total + c.size : Nat) : Int) ≤ Integer.greatest
        · -- The component is added, and what follows is read with the sum.
          rw [if_pos (show value 10 c.whole * c.scale ≤ widest by omega), and_iff_right hsum]
          show (_ → (if Integer.greatest < ((total + c.size : Nat) : Int) then _ else _) = _) ∧
            (_ → (if Integer.greatest < ((total + c.size : Nat) : Int) then _ else _) =
              if Integer.greatest < ((total + c.size : Nat) : Int) then _ else _)
          rw [if_neg (not_lt.2 hsum), if_neg (not_lt.2 hsum)]
          exact addComponents?_widest hsum rest
        · -- A bound refuses the component, and nothing behind it is reached.
          refine ⟨fun h => absurd h.1 hsum, fun _ => ?_⟩
          split_ifs
          · show (if Integer.greatest < ((total + c.size : Nat) : Int) then _ else _) =
              if Integer.greatest < ((total + c.size : Nat) : Int) then _ else _
            rw [if_pos (not_le.1 hsum), if_pos (not_le.1 hsum)]
          · rfl

/-- Nanoseconds in words: no result where a component overflows, and exact otherwise. -/
theorem nanos?_spec (t : Text) :
    (Overflows t → nanos? t = .error .overflow) ∧ (¬ Overflows t → nanos? t = exactNanos? t) := by
  have hzero : ((0 : Nat) : Int) ≤ Integer.greatest := by decide
  obtain ⟨hstops, hexact⟩ := addComponents?_widest hzero (Text.runs isNumeric (Text.signed t).2)
  by_cases hempty : (Text.signed t).2 = []
  · -- A text without components is refused, and none of them overflows.
    refine ⟨fun hover => absurd hover ?_, fun _ => ?_⟩
    · rw [Overflows, met, hempty]
      exact not_overflowsFrom_nil
    · unfold nanos? exactNanos? nanosWithin?
      simp only [if_pos hempty]
  · unfold nanos? exactNanos? nanosWithin?
    simp only [if_neg hempty]
    refine ⟨fun hover => ?_, fun hover => ?_⟩
    · rw [hstops hover]
      rfl
    · rw [hexact hover]

/-- Reads a duration literal in milliseconds truncated toward zero, with sums that nothing takes out
of their word. -/
def exactMillis? (t : Text) : Except Abort (Option Int) := do
  return (← exactNanos? t).map (·.tdiv 1000000)

/-- The milliseconds that a text stands for in exact numbers, where it is read as a duration. -/
def exactValue? (t : Text) : Option Int := (exactMillis? t).toOption.join

/-- Exact reading never stops. -/
theorem exactMillis?_eq (t : Text) : exactMillis? t = .ok (exactValue? t) := by
  rw [exactValue?, exactMillis?, exactNanos?_eq]
  rfl

/-- The milliseconds of what is read exactly fit into a word. -/
theorem inWord_tdiv_of_exactNanos? {t : Text} {n : Int} (h : exactNanos? t = .ok (some n)) :
    InWord 64 (n.tdiv 1000000) := by
  have hrange := natAbs_of_exactNanos? h
  have hgreatest : Integer.greatest = 9223372036854775807 := rfl
  have hmillis : (n.tdiv 1000000).natAbs = n.natAbs / 1000000 := Int.natAbs_tdiv n 1000000
  rw [InWord]
  norm_num
  omega

/-- **Reading in words is exact** where no component overflows. -/
theorem millis?_eq_exactMillis? {t : Text} (h : ¬ Overflows t) : millis? t = exactMillis? t := by
  rw [millis?, exactMillis?, (nanos?_spec t).2 h]
  cases hexact : exactNanos? t with
  | error e => rfl
  | ok n? =>
    cases n? with
    | none => rfl
    | some n =>
      rw [Abort.ok_bind, Abort.ok_bind, Option.map_some, Option.map_some,
        wrap_of_inWord (by decide) (inWord_tdiv_of_exactNanos? hexact)]

/-- **Reading in words stops** where a component overflows, and nowhere else. -/
theorem millis?_eq_overflow_iff {t : Text} : millis? t = .error .overflow ↔ Overflows t := by
  constructor
  · intro hstops
    by_contra h
    rw [millis?_eq_exactMillis? h, exactMillis?_eq] at hstops
    cases hstops
  · intro h
    rw [millis?, (nanos?_spec t).1 h]
    rfl

/-- Reading in words is reading in exact numbers unless a component overflows. -/
theorem millis?_eq_exactValue? {t : Text} (h : ¬ Overflows t) :
    millis? t = .ok (exactValue? t) := by
  rw [millis?_eq_exactMillis? h, exactMillis?_eq]

instance (t : Text) : Decidable (Overflows t) :=
  decidable_of_iff (millis? t = .error .overflow) millis?_eq_overflow_iff

/-- What is read in words as nanoseconds fits into its word, and so do its milliseconds. -/
theorem inWord_of_nanos? {t : Text} {n : Int} (h : nanos? t = .ok (some n)) :
    InWord 128 n ∧ InWord 64 (n.tdiv 1000000) := by
  have hover : ¬ Overflows t := by
    intro hover
    rw [(nanos?_spec t).1 hover] at h
    cases h
  rw [(nanos?_spec t).2 hover] at h
  have hrange := natAbs_of_exactNanos? h
  have hgreatest : Integer.greatest = 9223372036854775807 := rfl
  refine ⟨?_, inWord_tdiv_of_exactNanos? h⟩
  rw [InWord]
  norm_num
  omega

/-- A text in which a component overflows has no exact reading. -/
theorem exactMillis?_of_overflows {t : Text} (h : Overflows t) : exactMillis? t = .ok none := by
  by_cases hliteral : ∃ negative cs, IsLiteral t negative cs
  · obtain ⟨negative, cs, hcs⟩ := hliteral
    obtain ⟨front, c, back, hsplit, -, hover⟩ := h
    rw [hcs.met_eq] at hsplit
    have hc : c.WellFormed := hcs.wellFormed c (by rw [hsplit]; simp)
    have hsize : widest < c.size := (hc.overflows_iff.1 hover).2
    have htotal : size cs = size front + (c.size + size back) := by
      rw [hsplit, size_append, size_cons]
    have hbeyond : ¬ (size cs : Int) ≤ Integer.greatest := by
      have hwide := widest_eq
      have hgreatest : Integer.greatest = 9223372036854775807 := rfl
      omega
    rw [exactMillis?, exactNanos?_of_isLiteral hcs, if_neg hbeyond]
    rfl
  · push Not at hliteral
    rw [exactMillis?, exactNanos?_of_not_isLiteral hliteral]
    rfl

/-- As many whole microseconds as a word of 128 bits holds in nanoseconds, and a fraction that it
has no room for. -/
def widestMicros : Text := "170141183460469231731687303715884105.9us".toList

theorem overflows_widestMicros : Overflows widestMicros := by decide +kernel

end HealthCheck.Duration
