import HealthCheck.Proofs.Number.Numerals
import HealthCheck.Timestamp
import Mathlib.Data.List.TakeWhile

/-!
# Timestamps read back

A point in time is written as numbers in a fixed number of digits with marks between them, so that
each number ends where the next mark stands. Only a year outside of 0 to 9999 has more digits, and
then a sign in front. `read?_write` puts the parts together.
-/

namespace HealthCheck.Timestamp

/-! ## Digits -/

theorem trimStart_digits {digits : Text} (hdigits : digits.all Char.isDigit = true)
    (hne : digits ≠ []) (rest : Text) : Text.trimStart (digits ++ rest) = digits ++ rest := by
  obtain ⟨c, cs, rfl⟩ := List.exists_cons_of_ne_nil hne
  rw [List.all_cons, Bool.and_eq_true] at hdigits
  exact Text.trimStart_cons (Text.isBlank_of_isDigit hdigits.1) _

theorem takeWhile_digits {digits : Text} (hdigits : digits.all Char.isDigit = true) {c : Char}
    (hc : c.isDigit = false) (rest : Text) :
    (digits ++ c :: rest).takeWhile Char.isDigit = digits := by
  refine (Text.span_digits hdigits fun d hd => ?_).1
  rwa [← Option.some.inj hd]

/-- Zeros in front do not change the value. -/
theorem value_padded (width n : Nat) : Text.value 10 (padded width n) = n := by
  have hzeros : ∀ k, Text.value 10 (List.replicate k '0' ++ Text.ofNat n) = n := by
    intro k
    induction k with
    | zero => exact Text.value_ten_ofNat n
    | succ k ih => rw [List.replicate_succ, List.cons_append, Text.value_cons_zero, ih]
  exact hzeros _

theorem all_isDigit_padded (width n : Nat) : (padded width n).all Char.isDigit = true := by
  rw [padded, List.all_append, Text.all_isDigit_ofNat, Bool.and_true, List.all_eq_true]
  intro c hc
  rw [List.eq_of_mem_replicate hc]
  rfl

/-- A number that fits is written in exactly so many digits. -/
theorem length_padded {width n : Nat} (hwidth : 0 < width) (hn : n < 10 ^ width) :
    (padded width n).length = width := by
  have hle := (Text.length_ofNat_le_iff hwidth).2 hn
  rw [padded, List.length_append, List.length_replicate]
  omega

theorem padded_ne_nil (width n : Nat) : padded width n ≠ [] :=
  List.append_ne_nil_of_right_ne_nil _ (Text.ofNat_ne_nil n)

/-! ## The parts -/

/-- A number of a fixed width reads back. -/
theorem readNumber_padded {width n : Nat} (hwidth : 0 < width) (hn : n < 10 ^ width)
    (rest : Text) : readNumber width (padded width n ++ rest) = some (n, rest) := by
  have hlength := length_padded hwidth hn
  have htake : (padded width n ++ rest).take width = padded width n := List.take_left' hlength
  have hdigits : (padded width n).takeWhile Char.isDigit = padded width n :=
    List.takeWhile_eq_self_iff.2 (List.all_eq_true.1 (all_isDigit_padded width n))
  simp only [readNumber, trimStart_digits (all_isDigit_padded width n) (padded_ne_nil width n),
    htake, hdigits, if_neg (padded_ne_nil width n), value_padded, List.drop_left]

theorem readSigned_padded {width n : Nat} {c : Char} (hc : c.isDigit = false) (rest : Text) :
    readYear.readSigned (padded width n ++ c :: rest) = some ((n : Int), c :: rest) := by
  simp only [readYear.readSigned, takeWhile_digits (all_isDigit_padded width n) hc,
    if_neg (padded_ne_nil width n), value_padded, List.drop_left]

/-- A year without a sign is a number of four digits. -/
theorem readYear_digits {digits : Text} (hdigits : digits.all Char.isDigit = true)
    (hne : digits ≠ []) (rest : Text) :
    readYear (digits ++ rest) =
      (readNumber 4 (digits ++ rest)).map fun (n, rest) => ((n : Int), rest) := by
  have hsign : ∀ {c : Char} {t : Text}, digits ++ rest = c :: t → c.isDigit = true := by
    intro c t heq
    obtain ⟨d, ds, rfl⟩ := List.exists_cons_of_ne_nil hne
    rw [List.all_cons, Bool.and_eq_true] at hdigits
    rw [← (List.cons.inj heq).1]
    exact hdigits.1
  unfold readYear
  rw [trimStart_digits hdigits hne]
  split
  · rename_i heq
    exact absurd (hsign heq) (by decide)
  · rename_i heq
    exact absurd (hsign heq) (by decide)
  · rfl

/-- A year ends where a mark stands: in its four digits, or after its sign and all its digits. -/
theorem readYear_writeYear (year : Int) (rest : Text) :
    readYear (writeYear year ++ '-' :: rest) = some (year, '-' :: rest) := by
  unfold writeYear
  split_ifs with hplain hnegative
  · have hmagnitude : ((year.natAbs : Nat) : Int) = year := Int.natAbs_of_nonneg hplain.1
    rw [readYear_digits (all_isDigit_padded 4 _) (padded_ne_nil 4 _),
      readNumber_padded (by decide) (by omega), Option.map_some]
    simp only [hmagnitude]
  · have hmagnitude : -((year.natAbs : Nat) : Int) = year := by omega
    rw [List.cons_append, readYear, Text.trimStart_cons (by decide)]
    simp only [readSigned_padded (show ('-').isDigit = false by decide), Option.map_some,
      hmagnitude]
  · have hmagnitude : ((year.natAbs : Nat) : Int) = year := by omega
    rw [List.cons_append, readYear, Text.trimStart_cons (by decide)]
    simp only [readSigned_padded (show ('-').isDigit = false by decide), hmagnitude]

theorem readMark_self {c : Char} (hc : Text.isBlank c = false) (rest : Text) :
    readMark c (c :: rest) = some rest := by
  rw [readMark, Text.trimStart_cons hc]
  exact if_pos rfl

/-- A fraction reads back in nanoseconds. -/
theorem readFraction_padded {width n : Nat} (hwidth : 0 < width) (hwidth' : width ≤ 9)
    (hn : n < 10 ^ width) {c : Char} (hc : c.isDigit = false) (rest : Text) :
    readFraction ('.' :: padded width n ++ c :: rest) =
      some (n * 10 ^ (9 - width), c :: rest) := by
  have hlength := length_padded hwidth hn
  have htake : (padded width n).take 9 = padded width n := List.take_of_length_le (by omega)
  rw [List.cons_append, readFraction]
  simp only [takeWhile_digits (all_isDigit_padded width n) hc, htake,
    if_neg (padded_ne_nil width n), value_padded, hlength, List.drop_left' hlength, Nat.pow_eq]

/-- A fraction ends where no digit stands. -/
theorem readFraction_writeFraction {nano : Nat} (h : nano < 1000000000) (rest : Text) :
    readFraction (writeFraction nano ++ 'Z' :: rest) = some (nano, 'Z' :: rest) := by
  unfold writeFraction
  split_ifs with hzero hmillis hmicros
  · rw [hzero]
    rfl
  · rw [readFraction_padded (by decide) (by decide) (by omega) (by decide)]
    have hnano : nano / 1000000 * 10 ^ (9 - 3) = nano := by omega
    rw [hnano]
  · rw [readFraction_padded (by decide) (by decide) (by omega) (by decide)]
    have hnano : nano / 1000 * 10 ^ (9 - 6) = nano := by omega
    rw [hnano]
  · rw [readFraction_padded (by decide) (by decide) (by omega) (by decide), Nat.sub_self,
      Nat.pow_zero, Nat.mul_one]

/-! ## Dates and times -/

theorem month_day_lt {d : Date} (h : d.isValid = true) : d.month < 100 ∧ d.day < 100 := by
  have hdays : daysInMonth d.year d.month ≤ 31 := by
    unfold daysInMonth
    split_ifs <;> omega
  simp only [Date.isValid, Bool.and_eq_true, decide_eq_true_eq] at h
  omega

/-- The text of a date. -/
def writeDate (d : Date) : Text :=
  writeYear d.year ++ '-' :: padded 2 d.month ++ '-' :: padded 2 d.day

/-- A date reads back. -/
theorem readDate_writeDate {d : Date} (h : d.isValid = true) (rest : Text) :
    readDate (writeDate d ++ rest) = some (d, rest) := by
  obtain ⟨hmonth, hday⟩ := month_day_lt h
  simp only [readDate, writeDate, List.append_assoc, List.cons_append, readYear_writeYear,
    readMark_self (show Text.isBlank '-' = false by decide),
    readNumber_padded (show 0 < 2 by decide) hmonth,
    readNumber_padded (show 0 < 2 by decide) hday, Option.bind_eq_bind, Option.bind_some,
    Option.pure_def]

/-- Without an offset a point in time is at its local fields. -/
theorem ofLocal?_zero (t : Timestamp) :
    ofLocal? t.date t.minute t.second t.nano 0 = some t := by
  have hminute := t.minute_lt
  have hvalid : t.date.isValid = true ∧ t.minute < 1440 ∧ t.second ≤ 60 ∧ t.nano < 1000000000 :=
    ⟨t.date_valid, t.minute_lt, t.second_le, t.nano_lt⟩
  simp only [ofLocal?, Int.sub_zero]
  rw [if_neg (by omega), if_pos (by omega), Int.toNat_natCast, ofFields?, dif_pos hvalid]

/-- **Timestamps read back.** Every point in time is read from its own text. -/
theorem read?_write (t : Timestamp) : read? t.write = some t := by
  have hminute := t.minute_lt
  have hsecond := t.second_le
  have hwrite : t.write = writeDate t.date ++ 'T' :: (padded 2 (t.minute / 60) ++ ':' ::
      (padded 2 (t.minute % 60) ++ ':' :: (padded 2 t.second ++
        (writeFraction t.nano ++ 'Z' :: [])))) := by
    simp only [write, writeDate, List.append_assoc, List.cons_append]
  have hoffset : readOffset (Text.trimStart ['Z']) = some (0, []) := by decide
  rw [hwrite]
  simp only [read?, readDate_writeDate t.date_valid, readSeparator, true_or, if_true,
    readNumber_padded (show 0 < 2 by decide) (show t.minute / 60 < 10 ^ 2 by omega),
    readNumber_padded (show 0 < 2 by decide) (show t.minute % 60 < 10 ^ 2 by omega),
    readNumber_padded (show 0 < 2 by decide) (show t.second < 10 ^ 2 by omega),
    readMark_self (show Text.isBlank ':' = false by decide),
    readFraction_writeFraction t.nano_lt, hoffset, Option.bind_eq_bind, Option.bind_some]
  have hclock : Text.trimStart [] = [] ∧ t.date.isValid = true ∧ t.minute / 60 < 24 ∧
      t.minute % 60 < 60 := ⟨rfl, t.date_valid, by omega, by omega⟩
  rw [if_pos hclock, Nat.div_add_mod', ofLocal?_zero]

end HealthCheck.Timestamp
