import HealthCheck.Number.Integer
import HealthCheck.Proofs.Text.Cutting
import Mathlib.Data.List.Induction
import Mathlib.Tactic.Ring

/-!
# Numerals

What positional numerals mean and how they are written: `Text.value` is additive over
concatenation, and the decimal numeral of a number consists of digits, has no superfluous zero in
front and reads back, in the decimal notation as in the one that detects a base.
-/

namespace HealthCheck

namespace Text

/-! ## Digits -/

theorem digitValue_of_isDigit {c : Char} (h : c.isDigit = true) :
    digitValue c = some (c.toNat - 48) := by
  have hrange := Char.isDigit_iff_toNat.1 h
  unfold digitValue
  rw [if_pos ⟨Char.le_def.2 (UInt32.le_iff_toNat_le.2 hrange.1),
    Char.le_def.2 (UInt32.le_iff_toNat_le.2 hrange.2)⟩]
  rfl

theorem isBlank_of_isDigit {c : Char} (h : c.isDigit = true) : isBlank c = false := by
  have hrange : 48 ≤ c.toNat ∧ c.toNat ≤ 57 := Char.isDigit_iff_toNat.1 h
  simp only [isBlank, Bool.or_eq_false_iff, Bool.and_eq_false_iff, decide_eq_false_iff_not,
    beq_eq_false_iff_ne]
  omega

/-- Digits are taken off a text up to the first character that is none. -/
theorem span_digits {digits rest : Text} (hdigits : digits.all Char.isDigit = true)
    (hrest : ∀ c ∈ rest.head?, c.isDigit = false) :
    (digits ++ rest).takeWhile Char.isDigit = digits ∧
      (digits ++ rest).dropWhile Char.isDigit = rest := by
  have hall : ∀ c ∈ digits, c.isDigit = true := List.all_eq_true.1 hdigits
  rw [List.takeWhile_append_of_pos hall, List.dropWhile_append_of_pos hall]
  cases rest with
  | nil => simp
  | cons c cs => simp [hrest c rfl]

/-- The decimal digits are the digits of base ten. -/
theorem isDigitOf_ten (c : Char) : isDigitOf 10 c = c.isDigit := by
  by_cases h : c.isDigit = true
  · have hrange := Char.isDigit_iff_toNat.1 h
    have hupper : c.toNat ≤ 57 := hrange.2
    rw [isDigitOf, digitValue_of_isDigit h, h]
    simp only [Option.any_some, decide_eq_true_eq]
    omega
  · have hdec : ¬ ('0' ≤ c ∧ c ≤ '9') := fun hc => h (Char.isDigit_iff_toNat.2
      ⟨UInt32.le_iff_toNat_le.1 (Char.le_def.1 hc.1),
        UInt32.le_iff_toNat_le.1 (Char.le_def.1 hc.2)⟩)
    rw [Bool.not_eq_true] at h
    rw [isDigitOf, digitValue, if_neg hdec, h]
    split_ifs <;> simp

theorem all_isDigitOf_ten (t : Text) : t.all (isDigitOf 10) = t.all Char.isDigit := by
  simp only [funext isDigitOf_ten]

/-- A digit of a base up to ten is a decimal digit. -/
theorem isDigit_of_isDigitOf {base : Nat} (hbase : base ≤ 10) {c : Char}
    (h : isDigitOf base c = true) : c.isDigit = true := by
  rw [← isDigitOf_ten]
  unfold isDigitOf at h ⊢
  cases hd : digitValue c with
  | none => rw [hd] at h; exact absurd h Bool.false_ne_true
  | some d =>
    rw [hd] at h
    simp only [Option.any_some, decide_eq_true_eq] at h ⊢
    omega

/-! ## Values -/

/-- The value of a digit as `value` takes it. -/
def digit (c : Char) : Nat := (digitValue c).getD 0

theorem digit_lt {base : Nat} {c : Char} (h : isDigitOf base c = true) : digit c < base := by
  unfold isDigitOf at h
  unfold digit
  cases hd : digitValue c with
  | none => rw [hd] at h; exact absurd h Bool.false_ne_true
  | some d =>
    rw [hd] at h
    simpa using h

@[simp] theorem value_nil (base : Nat) : value base [] = 0 := rfl

/-- Reading on from a number shifts it by the digits that are read. -/
theorem foldl_value (base n : Nat) (t : Text) :
    t.foldl (fun n c => n * base + (digitValue c).getD 0) n =
      n * base ^ t.length + value base t := by
  unfold value
  induction t generalizing n with
  | nil => simp
  | cons c cs ih =>
    rw [List.foldl_cons, ih, List.foldl_cons, ih (0 * base + _), List.length_cons, pow_succ]
    ring

theorem value_append (base : Nat) (s t : Text) :
    value base (s ++ t) = value base s * base ^ t.length + value base t := by
  rw [value, List.foldl_append, foldl_value]
  rfl

theorem value_cons (base : Nat) (c : Char) (t : Text) :
    value base (c :: t) = digit c * base ^ t.length + value base t := by
  have h := value_append base [c] t
  simpa [value, digit] using h

theorem value_concat (base : Nat) (t : Text) (c : Char) :
    value base (t ++ [c]) = value base t * base + digit c := by
  rw [value_append]
  simp [value, digit]

theorem value_cons_zero (base : Nat) (t : Text) : value base ('0' :: t) = value base t := by
  rw [value_cons, show digit '0' = 0 from rfl, Nat.zero_mul, Nat.zero_add]

/-- A numeral of so many digits stays below that power of the base. -/
theorem value_lt {base : Nat} {t : Text} (h : t.all (isDigitOf base) = true) :
    value base t < base ^ t.length := by
  induction t using List.reverseRecOn with
  | nil => simp
  | append_singleton t c ih =>
    rw [List.all_append, Bool.and_eq_true] at h
    have hc : digit c < base := digit_lt (by simpa using h.2)
    have ht := ih h.1
    rw [value_concat, List.length_append, List.length_singleton, pow_succ]
    calc value base t * base + digit c < value base t * base + base := by omega
      _ = (value base t + 1) * base := by ring
      _ ≤ base ^ t.length * base := Nat.mul_le_mul_right _ ht

/-- A numeral that does not begin with zero is at least the power of its other digits. -/
theorem le_value_of_head (base : Nat) {c : Char} (t : Text) (hc : digit c ≠ 0) :
    base ^ t.length ≤ value base (c :: t) := by
  rw [value_cons]
  calc base ^ t.length = 1 * base ^ t.length := (one_mul _).symm
    _ ≤ digit c * base ^ t.length := Nat.mul_le_mul_right _ (Nat.one_le_iff_ne_zero.2 hc)
    _ ≤ digit c * base ^ t.length + value base t := Nat.le_add_right _ _

/-! ## Octal digits read in base ten -/

theorem all_append_singleton {base : Nat} {t : Text} {c : Char}
    (h : (t ++ [c]).all (isDigitOf base) = true) :
    t.all (isDigitOf base) = true ∧ digit c < base := by
  rw [List.all_append, Bool.and_eq_true] at h
  exact ⟨h.1, digit_lt (by simpa using h.2)⟩

/-- A numeral counts for less in base eight than in base ten. -/
theorem value_eight_le_value_ten (t : Text) : value 8 t ≤ value 10 t := by
  induction t using List.reverseRecOn with
  | nil => simp
  | append_singleton t c ih =>
    rw [value_concat, value_concat]
    omega

/-- Octal digits have one value in both bases when they stand for a single digit only. -/
theorem value_eight_eq_value_ten_iff {t : Text} (h : t.all (isDigitOf 8) = true) :
    value 8 t = value 10 t ↔ value 10 t < 8 := by
  induction t using List.reverseRecOn with
  | nil => simp
  | append_singleton t c ih =>
    obtain ⟨ht, hc⟩ := all_append_singleton h
    have hle := value_eight_le_value_ten t
    rw [value_concat, value_concat]
    have hiff := ih ht
    omega

/-- Only zeros count for nothing, in either base. -/
theorem value_eight_eq_zero_iff {t : Text} : value 8 t = 0 ↔ value 10 t = 0 := by
  induction t using List.reverseRecOn with
  | nil => simp
  | append_singleton t c ih =>
    rw [value_concat, value_concat]
    omega

/-- No digit exceeds the value of a decimal numeral that it stands in. -/
theorem digit_le_value {c : Char} {t : Text} (h : c ∈ t) : digit c ≤ value 10 t := by
  induction t with
  | nil => exact absurd h List.not_mem_nil
  | cons d t ih =>
    rw [value_cons]
    have hpower : 1 ≤ 10 ^ t.length := Nat.one_le_pow _ _ (by decide)
    have hlead : digit d * 1 ≤ digit d * 10 ^ t.length := Nat.mul_le_mul_left _ hpower
    rcases List.mem_cons.1 h with rfl | hmem
    · omega
    · have hvalue := ih hmem
      omega

/-- Digits that stand for less than eight are octal. -/
theorem all_isDigitOf_eight {t : Text} (h : t.all Char.isDigit = true) (hvalue : value 10 t < 8) :
    t.all (isDigitOf 8) = true := by
  rw [List.all_eq_true] at h ⊢
  intro c hc
  have hdigit := digit_le_value hc
  rw [digit, digitValue_of_isDigit (h c hc), Option.getD_some] at hdigit
  rw [isDigitOf, digitValue_of_isDigit (h c hc)]
  simp only [Option.any_some, decide_eq_true_eq]
  omega

/-- No digit is above seven, so the value in base ten is at most that of as many sevens. -/
theorem value_ten_le_sevens {t : Text} (h : t.all (isDigitOf 8) = true) :
    9 * value 10 t + 7 ≤ 7 * 10 ^ t.length := by
  induction t using List.reverseRecOn with
  | nil => simp
  | append_singleton t c ih =>
    obtain ⟨ht, hc⟩ := all_append_singleton h
    have hprev := ih ht
    rw [value_concat, List.length_append, List.length_singleton, pow_succ]
    omega

theorem digit_ne_zero {c : Char} (h : c.isDigit = true) (hc : c ≠ '0') : digit c ≠ 0 := by
  have hrange := Char.isDigit_iff_toNat.1 h
  have hne : c.toNat ≠ 48 := fun heq => hc (Char.toNat_inj.1 heq)
  have hlower : 48 ≤ c.toNat := hrange.1
  rw [digit, digitValue_of_isDigit h, Option.getD_some]
  omega

/-- Octal digits that are too large for a word in base ten are twenty significant ones. -/
theorem le_value_ten_of_octal {t : Text} (h : t.all (isDigitOf 8) = true)
    (hlarge : 2 ^ 63 ≤ value 10 t) : 10 ^ 19 ≤ value 10 t := by
  induction t with
  | nil => simp at hlarge
  | cons c t ih =>
    have hall := h
    rw [List.all_cons, Bool.and_eq_true] at h
    have hdigit : c.isDigit = true := isDigit_of_isDigitOf (by decide) h.1
    by_cases hc : c = '0'
    · subst hc
      rw [value_cons_zero] at hlarge ⊢
      exact ih h.2 hlarge
    · have hsevens := value_ten_le_sevens hall
      have hpower := le_value_of_head 10 t (digit_ne_zero hdigit hc)
      have hlen : 19 ≤ t.length := by
        by_contra hshort
        have hmono : 10 ^ (c :: t).length ≤ 10 ^ 19 :=
          Nat.pow_le_pow_right (by decide) (by rw [List.length_cons]; omega)
        omega
      calc 10 ^ 19 ≤ 10 ^ t.length := Nat.pow_le_pow_right (by decide) hlen
        _ ≤ value 10 (c :: t) := hpower

/-! ## Decimal numerals -/

/-- The text has a zero in front of more text. -/
def hasLeadingZero : Text → Bool
  | '0' :: _ :: _ => true
  | _ => false

/-- A superfluous zero stands in front of more digits. -/
theorem hasLeadingZero_eq_true {t : Text} (h : hasLeadingZero t = true) :
    ∃ u, t = '0' :: u ∧ u ≠ [] := by
  unfold hasLeadingZero at h
  split at h
  · exact ⟨_, rfl, List.cons_ne_nil _ _⟩
  · exact absurd h Bool.false_ne_true

theorem all_isDigit_ofNat (n : Nat) : (ofNat n).all Char.isDigit = true := by
  rw [List.all_eq_true]
  exact fun c hc => Nat.isDigit_of_mem_toDigits (by decide) (by decide) hc

theorem ofNat_ne_nil (n : Nat) : ofNat n ≠ [] := Nat.toDigits_ne_nil

theorem length_ofNat_le_iff {n k : Nat} (hk : 0 < k) : (ofNat n).length ≤ k ↔ n < 10 ^ k :=
  Nat.length_toDigits_le_iff (by decide) hk

theorem value_ten_eq_ofDigitChars {t : Text} (h : t.all Char.isDigit = true) :
    value 10 t = Nat.ofDigitChars 10 t 0 := by
  induction t with
  | nil => rfl
  | cons c cs ih =>
    rw [List.all_cons, Bool.and_eq_true] at h
    rw [value_cons, ih h.2, Nat.ofDigitChars_cons, digit, digitValue_of_isDigit h.1, Nat.mul_comm]
    conv_rhs => rw [Nat.ofDigitChars_eq_ofDigitChars_zero, Nat.mul_zero, Nat.zero_add]
    rfl

@[simp] theorem value_ten_ofNat (n : Nat) : value 10 (ofNat n) = n := by
  rw [value_ten_eq_ofDigitChars (all_isDigit_ofNat n), ofNat, Nat.ofDigitChars_ten_toDigits]

theorem toNat?_ten_ofNat (n : Nat) : toNat? 10 (ofNat n) = some n := by
  rw [toNat?, if_pos ⟨ofNat_ne_nil n, by rw [all_isDigitOf_ten]; exact all_isDigit_ofNat n⟩,
    value_ten_ofNat]

/-- The numeral of a number has as few digits as it can. -/
theorem hasLeadingZero_ofNat (n : Nat) : hasLeadingZero (ofNat n) = false := by
  rw [← Bool.not_eq_true]
  intro h
  obtain ⟨u, hu, hne⟩ := hasLeadingZero_eq_true h
  have hpos : 0 < u.length := List.length_pos_iff.2 hne
  have hvalue : n = value 10 u := by rw [← value_cons_zero, ← hu, value_ten_ofNat]
  have hdigits : u.all (isDigitOf 10) = true := by
    have hall := all_isDigit_ofNat n
    rw [hu, List.all_cons, Bool.and_eq_true] at hall
    rw [all_isDigitOf_ten]
    exact hall.2
  have hlt : n < 10 ^ u.length := hvalue ▸ value_lt hdigits
  have hlen := (length_ofNat_le_iff hpos).2 hlt
  rw [hu, List.length_cons] at hlen
  omega

/-- Digits have no case. -/
theorem toLower_of_isDigit {c : Char} (h : c.isDigit = true) : c.toLower = c := by
  have hupper : c.toNat ≤ 57 := (Char.isDigit_iff_toNat.1 h).2
  unfold Char.toLower
  refine dif_neg fun hletter => ?_
  have hlower : 65 ≤ c.toNat := UInt32.le_iff_toNat_le.1 hletter.1
  omega

theorem head?_ofNat_isDigit {n : Nat} {c : Char} (h : (ofNat n).head? = some c) :
    c.isDigit = true :=
  List.all_eq_true.1 (all_isDigit_ofNat n) c (List.mem_of_mem_head? h)

/-- The text is an optional sign, and tells whether it is a minus. -/
inductive IsSign : Text → Bool → Prop where
  | none : IsSign [] false
  | plus : IsSign ['+'] false
  | minus : IsSign ['-'] true

/-- A text begins with a sign or with none. -/
theorem exists_isSign (t : Text) :
    ∃ sign, t = sign ++ (signed t).2 ∧ IsSign sign (signed t).1 := by
  unfold signed
  split
  · exact ⟨['-'], rfl, .minus⟩
  · exact ⟨['+'], rfl, .plus⟩
  · exact ⟨[], rfl, .none⟩

/-- A sign is taken off what does not begin with one. -/
theorem signed_append {sign body : Text} {negative : Bool} (hsign : IsSign sign negative)
    (hbody : ∀ c ∈ body.head?, c ≠ '-' ∧ c ≠ '+') : signed (sign ++ body) = (negative, body) := by
  cases hsign with
  | plus => rfl
  | minus => rfl
  | none =>
    rw [List.nil_append, signed]
    · rintro rest rfl
      exact (hbody '-' rfl).1 rfl
    · rintro rest rfl
      exact (hbody '+' rfl).2 rfl

/-- A sign ends where a digit stands. -/
theorem signed_append_of_isDigit {sign : Text} {negative : Bool} (hsign : IsSign sign negative)
    {c : Char} (hc : c.isDigit = true) (t : Text) :
    signed (sign ++ c :: t) = (negative, c :: t) := by
  refine signed_append hsign fun d hd => ?_
  obtain rfl := Option.some.inj hd
  constructor <;> rintro rfl <;> exact absurd hc (by decide)

/-- A text that begins with a digit has no sign. -/
theorem signed_of_isDigit {c : Char} (h : c.isDigit = true) (t : Text) :
    signed (c :: t) = (false, c :: t) :=
  signed_append_of_isDigit .none h t

theorem signed_ofNat (n : Nat) : signed (ofNat n) = (false, ofNat n) := by
  cases h : ofNat n with
  | nil => exact absurd h (ofNat_ne_nil n)
  | cons c cs => exact signed_of_isDigit (head?_ofNat_isDigit (by rw [h]; rfl)) cs

theorem exists_head_ofInt (n : Int) :
    ∃ c cs, ofInt n = c :: cs ∧ (c = '-' ∨ c.isDigit = true) := by
  cases n with
  | negSucc n => exact ⟨'-', _, rfl, Or.inl rfl⟩
  | ofNat n =>
    obtain ⟨c, cs, hcons⟩ := List.exists_cons_of_ne_nil (ofNat_ne_nil n)
    exact ⟨c, cs, hcons, Or.inr (head?_ofNat_isDigit (by rw [hcons]; rfl))⟩

/-- An integer in decimal begins with a minus sign if it is negative, and goes on with its
magnitude. -/
theorem signed_ofInt (n : Int) : signed (ofInt n) = (decide (n < 0), ofNat n.natAbs) := by
  cases n with
  | ofNat n => rw [ofInt, signed_ofNat]; rfl
  | negSucc n => rw [decide_eq_true (Int.negSucc_lt_zero n)]; rfl

end Text

namespace Integer

open Text

/-! ## Integer literals -/

/-- An integer in range is made of its sign and its magnitude. -/
theorem ofMagnitude?_natAbs {n : Int} (h : least ≤ n ∧ n ≤ greatest) :
    ofMagnitude? (decide (n < 0)) n.natAbs = some n := by
  have hn : (if decide (n < 0) then -(n.natAbs : Int) else (n.natAbs : Int)) = n := by
    by_cases hneg : n < 0
    · simp only [hneg, decide_true, if_true]; omega
    · simp only [hneg, decide_false, Bool.false_eq_true, if_false]; omega
  rw [ofMagnitude?]
  simp only [hn, h, and_self, if_true]

/-- A sign and a magnitude make an integer exactly if that is in range. -/
theorem ofMagnitude?_eq_some_iff {negative : Bool} {m : Nat} {n : Int} :
    ofMagnitude? negative m = some n ↔
      n = (if negative then -(m : Int) else (m : Int)) ∧ least ≤ n ∧ n ≤ greatest := by
  unfold ofMagnitude?
  simp only [Option.ite_none_right_eq_some, Option.some.injEq]
  constructor
  · rintro ⟨hrange, rfl⟩; exact ⟨rfl, hrange⟩
  · rintro ⟨rfl, hrange⟩; exact ⟨hrange, rfl⟩

theorem natAbs_of_ofMagnitude? {negative : Bool} {n : Nat} {m : Int}
    (h : ofMagnitude? negative n = some m) : m.natAbs = n := by
  obtain ⟨rfl, -⟩ := ofMagnitude?_eq_some_iff.1 h
  cases negative with
  | true => exact Int.natAbs_neg _
  | false => exact Int.natAbs_natCast _

/-- Only magnitudes from 2⁶³ on can be out of range. -/
theorem le_of_ofMagnitude?_none {negative : Bool} {n : Nat}
    (h : ofMagnitude? negative n = none) : 2 ^ 63 ≤ n := by
  by_contra hlt
  have hrange : least ≤ (if negative then -(n : Int) else n) ∧
      (if negative then -(n : Int) else n) ≤ greatest := by
    unfold least greatest
    split_ifs <;> omega
  rw [ofMagnitude?_eq_some_iff.2 ⟨rfl, hrange⟩] at h
  exact absurd h (Option.some_ne_none _)

/-- A smaller magnitude under the same sign is in range too, and another integer. -/
theorem exists_ofMagnitude?_of_le {negative : Bool} {a b : Nat} {n : Int}
    (h : ofMagnitude? negative a = some n) (hle : b ≤ a) :
    ∃ m, ofMagnitude? negative b = some m ∧ (m = n ↔ b = a) := by
  obtain ⟨rfl, hrange⟩ := ofMagnitude?_eq_some_iff.1 h
  unfold least greatest at hrange
  refine ⟨if negative then -(b : Int) else b, ofMagnitude?_eq_some_iff.2 ⟨rfl, ?_⟩, ?_⟩
  · unfold least greatest
    split_ifs at hrange ⊢ <;> omega
  · split_ifs <;> omega

theorem decimal?_eq (t : Text) :
    decimal? t = (toNat? 10 (signed t).2).bind (ofMagnitude? (signed t).1) := rfl

/-- A decimal integer has digits behind its sign and is in range. -/
theorem decimal?_eq_some_iff {t : Text} {n : Int} :
    decimal? t = some n ↔ ((signed t).2 ≠ [] ∧ (signed t).2.all Char.isDigit = true) ∧
      ofMagnitude? (signed t).1 (value 10 (signed t).2) = some n := by
  rw [decimal?_eq, toNat?, all_isDigitOf_ten]
  by_cases h : (signed t).2 ≠ [] ∧ (signed t).2.all Char.isDigit = true
  · rw [if_pos h, Option.bind_some]
    exact ⟨fun hn => ⟨h, hn⟩, fun hn => hn.2⟩
  · rw [if_neg h]
    exact ⟨fun hn => absurd hn.symm (Option.some_ne_none n), fun hn => absurd hn.1 h⟩

theorem decimal?_ofInt {n : Int} (h : least ≤ n ∧ n ≤ greatest) :
    decimal? (ofInt n) = some n := by
  rw [decimal?_eq, signed_ofInt, toNat?_ten_ofNat, Option.bind_some, ofMagnitude?_natAbs h]

/-- Digits alone are separated well: no underscore is among them. -/
theorem separated_of_isDigit {u : Text} (h : u.all Char.isDigit = true) (announced : Bool) :
    separated announced u = true ∧ u.filter (· != '_') = u := by
  have hmem : ∀ c ∈ u, c ≠ '_' := by
    rintro c hc rfl
    exact absurd (List.all_eq_true.1 h _ hc) (by decide)
  have hlast : u.getLast? ≠ some '_' := fun hl => hmem _ (List.mem_of_mem_getLast? hl) rfl
  have hhead : u.head? ≠ some '_' := fun hh => hmem _ (List.mem_of_mem_head? hh) rfl
  have hdouble : Text.contains "__".toList u = false :=
    contains_eq_false (c := '_') (by decide) fun hc => hmem _ hc rfl
  constructor
  · rw [separated, hdouble]
    simp [hlast, hhead]
  · rw [List.filter_eq_self]
    exact fun c hc => by simpa using hmem c hc

/-- A single zero and what begins with another character have no announcement. -/
theorem base_of_plain {u : Text} (h : ∀ c w, u ≠ '0' :: c :: w) : base u = (10, false, u) := by
  unfold base
  split
  case h_8 => rfl
  all_goals exact absurd rfl (h _ _)

/-- Without a zero in front both notations read the same. -/
theorem read?_eq_decimal? {t : Text} (hdigits : (signed t).2.all Char.isDigit = true)
    (hzero : hasLeadingZero (signed t).2 = false) : read? t = decimal? t := by
  have hbase : base (signed t).2 = (10, false, (signed t).2) := by
    refine base_of_plain fun c u h => ?_
    rw [h] at hzero
    exact Bool.noConfusion hzero
  obtain ⟨hsep, hfilter⟩ := separated_of_isDigit hdigits false
  rw [decimal?_eq, read?]
  simp only [hbase, hsep, hfilter, if_true]

/-- A bare zero in front announces base eight. -/
theorem read?_of_leading_zero {t u : Text} (ht : (signed t).2 = '0' :: u) (hu : u ≠ [])
    (hdigits : u.all Char.isDigit = true) :
    read? t = (toNat? 8 u).bind (ofMagnitude? (signed t).1) := by
  obtain ⟨c, cs, rfl⟩ := List.exists_cons_of_ne_nil hu
  have hc : c.isDigit = true := List.all_eq_true.1 hdigits c List.mem_cons_self
  have hbase : base ('0' :: c :: cs) = (8, true, c :: cs) := by
    rw [base] <;> rintro rfl <;> exact absurd hc (by decide)
  obtain ⟨hsep, hfilter⟩ := separated_of_isDigit hdigits true
  rw [read?]
  simp only [ht, hbase, hsep, hfilter, if_true]

/-- It does so too where a base may be announced. -/
theorem read?_ofInt {n : Int} (h : least ≤ n ∧ n ≤ greatest) : read? (ofInt n) = some n := by
  rw [read?_eq_decimal?, decimal?_ofInt h]
  · rw [signed_ofInt]; exact all_isDigit_ofNat _
  · rw [signed_ofInt]; exact hasLeadingZero_ofNat _

/-- What is read is the value of the digits, without the underscores, in the detected base. -/
theorem exists_numeral_of_read? {t : Text} {m : Int} (h : read? t = some m) :
    ((base (Text.signed t).2).2.2.filter (· != '_')).all
        (Text.isDigitOf (base (Text.signed t).2).1) = true ∧
      ofMagnitude? (Text.signed t).1 (Text.value (base (Text.signed t).2).1
        ((base (Text.signed t).2).2.2.filter (· != '_'))) = some m := by
  unfold read? Text.toNat? at h
  simp only [Option.ite_none_right_eq_some, Option.bind_eq_some_iff] at h
  obtain ⟨-, n, ⟨⟨-, hall⟩, hn⟩, hm⟩ := h
  rw [Option.some.inj hn]
  exact ⟨hall, hm⟩

end Integer

end HealthCheck
