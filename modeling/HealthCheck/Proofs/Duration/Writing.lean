import HealthCheck.Proofs.Duration.Reading

/-!
# Written durations read back

What is written for a number of milliseconds is a duration literal: milliseconds, or one to three
whole numbers of hours, minutes and seconds, which add up to the number without its part of a second
(`Writes`). None of its components has a fraction, so none overflows, and reading gives what was
shown of the number as long as it does not exceed the greatest number of nanoseconds:
`write_reads_back`.
-/

namespace HealthCheck.Duration

/-! ## Components without fractions -/

/-- So many whole units. -/
def wholeUnits (n scale : Nat) : Component := ⟨Text.ofNat n, [], scale⟩

theorem spelled_wholeUnits (n : Nat) {unit : Text} {scale : Nat} (hunit : IsUnit unit scale) :
    (wholeUnits n scale).Spelled (Text.ofNat n ++ unit) :=
  .whole (Text.ofNat_ne_nil n) (List.all_eq_true.1 (Text.all_isDigit_ofNat n)) hunit

@[simp] theorem size_wholeUnits (n scale : Nat) : (wholeUnits n scale).size = n * scale := by
  rw [Component.size, wholeUnits, Text.value_ten_ofNat]
  rfl

/-- What spells components one after the other spells them together. -/
theorem SpelledAll.append {cs ds : List Component} {s t : Text} (hs : SpelledAll cs s)
    (ht : SpelledAll ds t) : SpelledAll (cs ++ ds) (s ++ t) := by
  induction hs with
  | nil => exact ht
  | cons hfirst _ ih =>
    rw [List.append_assoc]
    exact .cons hfirst ih

/-- Nothing overflows without a fraction. -/
theorem not_overflows_of_fraction_nil {c : Component} (h : c.fraction = []) : ¬ c.Overflows := by
  rintro ⟨-, hrest⟩
  rw [Component.counted, h, List.take_nil] at hrest
  exact Nat.not_lt_zero _ hrest

/-- The text writes components without fractions, which have so many nanoseconds together. -/
def Writes (t : Text) (nanos : Nat) : Prop :=
  ∃ cs, cs ≠ [] ∧ SpelledAll cs t ∧ size cs = nanos ∧ ∀ c ∈ cs, c.fraction = []

/-- A number in decimal and a unit write so many of the unit. -/
theorem writes_wholeUnits (n : Nat) {unit : Text} {scale : Nat} (hunit : IsUnit unit scale) :
    Writes (Text.ofNat n ++ unit) (n * scale) := by
  refine ⟨[wholeUnits n scale], by simp, ?_, by simp, ?_⟩
  · have hall := SpelledAll.cons (spelled_wholeUnits n hunit) .nil
    rwa [List.append_nil] at hall
  · intro c hc
    rw [List.mem_singleton.1 hc]
    rfl

/-- What is written one after the other adds up. -/
theorem Writes.append {s t : Text} {m n : Nat} (hs : Writes s m) (ht : Writes t n) :
    Writes (s ++ t) (m + n) := by
  obtain ⟨cs, hne, hcs, rfl, hfractions⟩ := hs
  obtain ⟨ds, -, hds, rfl, hfractions'⟩ := ht
  refine ⟨cs ++ ds, by simp [hne], hcs.append hds, size_append cs ds, ?_⟩
  exact List.forall_mem_append.2 ⟨hfractions, hfractions'⟩

/-! ## What is written -/

/-- Whole seconds are written as hours, minutes and seconds that add up to them. -/
theorem writes_writeSeconds (total : Nat) : Writes (writeSeconds total) (total * 1000000000) := by
  have hours : Writes (Text.ofNat (total / 3600) ++ ['h']) (total / 3600 * 3600000000000) :=
    writes_wholeUnits _ .hour
  have minutes : Writes (Text.ofNat (total % 3600 / 60) ++ ['m'])
      (total % 3600 / 60 * 60000000000) := writes_wholeUnits _ .minute
  have seconds : Writes (Text.ofNat (total % 60) ++ ['s']) (total % 60 * 1000000000) :=
    writes_wholeUnits _ .second
  -- Every case leaves out the units that are zero where they may be left out.
  unfold writeSeconds writeUnits
  split
  case h_1 =>
    have hsum : total * 1000000000 = total % 60 * 1000000000 := by omega
    rw [hsum]
    exact seconds
  case h_2 =>
    have hsum : total * 1000000000 = total % 3600 / 60 * 60000000000 := by omega
    rw [hsum]
    exact minutes
  case h_3 =>
    have hsum : total * 1000000000 =
        total % 3600 / 60 * 60000000000 + total % 60 * 1000000000 := by omega
    rw [hsum]
    exact minutes.append seconds
  case h_4 =>
    have hsum : total * 1000000000 = total / 3600 * 3600000000000 := by omega
    rw [hsum]
    exact hours
  case h_5 =>
    have hsum : total * 1000000000 =
        total / 3600 * 3600000000000 + total % 3600 / 60 * 60000000000 := by omega
    rw [hsum]
    exact hours.append minutes
  case h_6 =>
    have hsum : total * 1000000000 = total / 3600 * 3600000000000 +
        total % 3600 / 60 * 60000000000 + total % 60 * 1000000000 := by omega
    rw [hsum]
    exact (hours.append minutes).append seconds

/-- What is shown of a magnitude in milliseconds: from one second on, the whole seconds. -/
def shownMagnitude (n : Nat) : Nat := if n < 1000 then n else n / 1000 * 1000

/-- What is shown of a number of milliseconds: from one second on, a multiple of a thousand,
truncated toward zero. -/
def shown (millis : Int) : Int := if millis.natAbs < 1000 then millis else millis.tdiv 1000 * 1000

theorem shown_withSign (negative : Bool) (n : Nat) :
    shown (withSign negative n) = withSign negative (shownMagnitude n) := by
  unfold shown shownMagnitude
  rw [natAbs_withSign]
  split_ifs
  · rfl
  · have hquotient := withSign_tdiv negative n 1000
    rw [Nat.cast_ofNat] at hquotient
    rw [hquotient]
    cases negative <;> simp [withSign]

theorem shown_eq (millis : Int) :
    shown millis = withSign (decide (millis < 0)) (shownMagnitude millis.natAbs) := by
  rw [← shown_withSign, withSign_natAbs]

/-- A number is written as its sign and its magnitude. -/
theorem write_eq (millis : Int) :
    write millis = (if millis < 0 then ['-'] else []) ++ write millis.natAbs := by
  have hmagnitude : ¬ (millis.natAbs : Int) < 0 := by omega
  unfold write
  rw [if_neg hmagnitude, Int.natAbs_natCast]
  by_cases hneg : millis < 0
  · rw [if_pos hneg, if_pos hneg]
    rfl
  · rw [if_neg hneg, if_neg hneg]
    rfl

/-- A magnitude is written as components that add up to what is shown of it. -/
theorem writes_write (n : Nat) : Writes (write n) (shownMagnitude n * 1000000) := by
  have hnonneg : ¬ (n : Int) < 0 := by omega
  unfold write shownMagnitude
  simp only [if_neg hnonneg, Int.natAbs_natCast]
  by_cases hsmall : n < 1000
  · rw [if_pos hsmall, if_pos hsmall]
    split_ifs with hzero
    · rw [hzero]
      have hnone : Writes (Text.ofNat 0 ++ "s".toList) (0 * 1000000000) :=
        writes_wholeUnits 0 .second
      rwa [Nat.zero_mul, ← Nat.zero_mul 1000000] at hnone
    · exact writes_wholeUnits n .millisecond
  · have hzero : n ≠ 0 := by omega
    have hsum : n / 1000 * 1000 * 1000000 = n / 1000 * 1000000000 := by omega
    rw [if_neg hsmall, if_neg hsmall, if_neg hzero, hsum]
    exact writes_writeSeconds (n / 1000)

/-- What is written is a literal of what is shown. -/
theorem exists_isLiteral_write (millis : Int) :
    ∃ cs, IsLiteral (write millis) (decide (millis < 0)) cs ∧
      size cs = shownMagnitude millis.natAbs * 1000000 ∧ ∀ c ∈ cs, c.fraction = [] := by
  obtain ⟨cs, hne, hspelled, hsize, hfractions⟩ := writes_write millis.natAbs
  refine ⟨cs, ⟨_, _, write_eq millis, ?_, hne, hspelled⟩, hsize, hfractions⟩
  by_cases hneg : millis < 0
  · rw [if_pos hneg, decide_eq_true hneg]
    exact .minus
  · rw [if_neg hneg, decide_eq_false hneg]
    exact .none

/-! ## Reading it back -/

/-- No component overflows in what is written. -/
theorem not_overflows_write (millis : Int) : ¬ Overflows (write millis) := by
  obtain ⟨cs, hliteral, -, hfractions⟩ := exists_isLiteral_write millis
  rintro ⟨front, c, back, hsplit, -, hover⟩
  have hmem : c ∈ cs := by
    rw [← hliteral.met_eq, hsplit]
    simp
  exact not_overflows_of_fraction_nil (hfractions c hmem) hover

/-- What is written is read as what was shown, up to the greatest number of nanoseconds. -/
theorem millis?_write (millis : Int) :
    millis? (write millis) =
      .ok (if millis.natAbs < 9223372037000 then some (shown millis) else none) := by
  obtain ⟨cs, hliteral, hsize, -⟩ := exists_isLiteral_write millis
  have hbound : (size cs : Int) ≤ Integer.greatest ↔ millis.natAbs < 9223372037000 := by
    rw [hsize]
    unfold shownMagnitude Integer.greatest
    split_ifs <;> omega
  have hvalue : (withSign (decide (millis < 0)) (size cs)).tdiv 1000000 = shown millis := by
    have hquotient := withSign_tdiv (decide (millis < 0)) (size cs) 1000000
    rw [Nat.cast_ofNat] at hquotient
    rw [hquotient, hsize, shown_eq, Nat.mul_div_cancel _ (by decide)]
  rw [millis?_eq_exactMillis? (not_overflows_write millis), exactMillis?_of_isLiteral hliteral,
    hvalue]
  exact congrArg Except.ok (if_congr hbound rfl rfl)

/-- What is shown of a magnitude is written as the magnitude is. -/
theorem write_shownMagnitude (n : Nat) : write (shownMagnitude n) = write n := by
  unfold shownMagnitude
  split_ifs with hsmall
  · rfl
  · have hnonneg : ∀ k : Nat, ¬ (k : Int) < 0 := fun k => by omega
    have hzero : n ≠ 0 := by omega
    have hcutZero : n / 1000 * 1000 ≠ 0 := by omega
    have hcutLarge : ¬ n / 1000 * 1000 < 1000 := by omega
    unfold write
    simp only [if_neg (hnonneg _), Int.natAbs_natCast, if_neg hzero, if_neg hsmall,
      if_neg hcutZero, if_neg hcutLarge, Nat.mul_div_cancel _ (show 0 < 1000 by decide)]

theorem shown_neg_iff (millis : Int) : shown millis < 0 ↔ millis < 0 := by
  have hpos : millis < 0 → 0 < shownMagnitude millis.natAbs := by
    intro hneg
    unfold shownMagnitude
    split_ifs <;> omega
  rw [shown_eq]
  by_cases hneg : millis < 0
  · have hlt : withSign true (shownMagnitude millis.natAbs) < 0 := by
      have := hpos hneg
      show -(shownMagnitude millis.natAbs : Int) < 0
      omega
    rw [decide_eq_true hneg]
    exact iff_of_true hlt hneg
  · have hle : ¬ withSign false (shownMagnitude millis.natAbs) < 0 := by
      show ¬ (shownMagnitude millis.natAbs : Int) < 0
      omega
    rw [decide_eq_false hneg]
    exact iff_of_false hle hneg

/-- What is shown of a number is written as the number is. -/
theorem write_shown (millis : Int) : write (shown millis) = write millis := by
  have hmagnitude : (shown millis).natAbs = shownMagnitude millis.natAbs := by
    rw [shown_eq, natAbs_withSign]
  rw [write_eq, write_eq millis, hmagnitude, write_shownMagnitude]
  exact congrArg (· ++ _) (if_congr (shown_neg_iff millis) rfl rfl)

/-- The values that writing computes: the magnitude, its seconds, and their hours, the seconds left
of them, minutes and seconds. -/
def writingSteps (millis : Int) : List Nat :=
  let magnitude := millis.natAbs
  let seconds := magnitude / 1000
  [magnitude, seconds, seconds / 3600, seconds % 3600, seconds % 3600 / 60, seconds % 60]

/-- Writes a duration where every number is kept as `keep` leaves it. -/
def writeKept (keep : Nat → Nat) (millis : Int) : Text :=
  let magnitude := keep millis.natAbs
  let unsigned :=
    if magnitude = 0 then "0s".toList
    else if magnitude < 1000 then Text.ofNat magnitude ++ "ms".toList
    else
      let seconds := keep (magnitude / 1000)
      writeUnits (keep (seconds / 3600)) (keep (keep (seconds % 3600) / 60)) (keep (seconds % 60))
  if millis < 0 then '-' :: unsigned else unsigned

/-- Writing depends on how numbers are kept only through the values that are listed: where those are
kept as they are, the duration is written as in exact numbers. -/
theorem writeKept_eq_write {keep : Nat → Nat} {millis : Int}
    (h : ∀ k ∈ writingSteps millis, keep k = k) : writeKept keep millis = write millis := by
  simp only [writingSteps, List.forall_mem_cons] at h
  obtain ⟨hmagnitude, hseconds, hhours, hrest, hminutes, hlast, -⟩ := h
  unfold writeKept write writeSeconds
  simp only [hmagnitude, hseconds, hhours, hrest, hminutes, hlast]

/-- **Written durations read back.** Up to the greatest number of nanoseconds, what is written for a
number of milliseconds is read as what is shown of it, and that is written in the same way again.
Beyond, what is written is refused. No value leaves its word, neither in writing nor in reading
back, and words of 64 bits write what exact numbers do. -/
theorem write_reads_back (n : Int) (h : InWord 64 n) :
    (n.natAbs < 9223372037000 →
      millis? (write n) = .ok (some (shown n)) ∧ write (shown n) = write n) ∧
    (9223372037000 ≤ n.natAbs → millis? (write n) = .ok none) ∧
    (∀ k ∈ writingSteps n, k < 2 ^ 64) ∧
    writeKept (· % 2 ^ 64) n = write n ∧
    (∀ k ∈ computed (write n), InWord 128 k) ∧
    ∀ k, nanos? (write n) = .ok (some k) → InWord 64 (k.tdiv 1000000) := by
  have hmagnitude : n.natAbs < 2 ^ 64 := by
    rw [InWord] at h
    omega
  have hsteps : ∀ k ∈ writingSteps n, k < 2 ^ 64 := by
    simp only [writingSteps, List.forall_mem_cons]
    refine ⟨?_, ?_, ?_, ?_, ?_, ?_, fun k hk => absurd hk List.not_mem_nil⟩ <;> omega
  refine ⟨fun hfits => ⟨?_, write_shown n⟩, fun hbeyond => ?_, hsteps,
    writeKept_eq_write fun k hk => Nat.mod_eq_of_lt (hsteps k hk),
    (computed_inWord_iff _).2 (not_overflows_write n), fun k hk => (inWord_of_nanos? hk).2⟩
  · rw [millis?_write, if_pos hfits]
  · rw [millis?_write, if_neg (Nat.not_lt.2 hbeyond)]

/-- The last number below zero that reads back, and the least number of all, which is too large. -/
theorem write_reads_back_at_bounds :
    (InWord 64 (-9223372036999) ∧ write (-9223372036999) = "-2562047h47m16s".toList ∧
      millis? (write (-9223372036999)) = .ok (some (-9223372036000)) ∧
      write (-9223372036000) = write (-9223372036999)) ∧
    (InWord 64 (-9223372036854775808) ∧
      millis? (write (-9223372036854775808)) = .ok none ∧
      (∀ k ∈ writingSteps (-9223372036854775808), k < 2 ^ 64) ∧
      writeKept (· % 2 ^ 64) (-9223372036854775808) = write (-9223372036854775808)) := by
  have hlast : InWord 64 (-9223372036999) := by decide
  have hleast : InWord 64 (-9223372036854775808) := by decide
  have hshown : shown (-9223372036999) = -9223372036000 := by decide
  have hback := (write_reads_back _ hlast).1 (by decide)
  rw [hshown] at hback
  obtain ⟨-, hrefused, hsteps, hkept, -⟩ := write_reads_back _ hleast
  exact ⟨⟨hlast, by decide +kernel, hback⟩, hleast, hrefused (by decide), hsteps, hkept⟩

end HealthCheck.Duration
