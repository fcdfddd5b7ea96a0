import HealthCheck.Proofs.Duration.Total
import HealthCheck.Proofs.Number.Numerals
import HealthCheck.Proofs.Text.Replacing
import Mathlib.Data.Nat.Digits.Defs

/-!
# Integer literals

The grammar of integer literals, as a relation between texts and what they say: an optional sign,
and then either the announcement of a base and digits of that base, or a decimal numeral
(`Integer.IsLiteral`). Reading first cuts the announcement off and then looks where the underscores
are; both together come to the grammar (`Integer.unsigned_iff`), so that a text is read exactly
where it is a literal whose value is in range: `Integer.read?_eq_some_iff`.
-/

namespace HealthCheck

/-- The positional value of digits, from the last one up. -/
theorem Text.value_eq_ofDigits (base : Nat) (digits : Text) :
    value base digits = Nat.ofDigits base (digits.map digit).reverse := by
  induction digits with
  | nil => rfl
  | cons c cs ih =>
    rw [value_cons, ih, List.map_cons, List.reverse_cons, Nat.ofDigits_append,
      Nat.ofDigits_singleton, List.length_reverse, List.length_map]
    ring

namespace Integer

open Text

/-! ## The grammar -/

/-- The texts that announce a base. The bare zero stands last, as more text has to follow it that is
none of the letters above. -/
def announcements : List (Text × Nat) :=
  [("0x".toList, 16), ("0X".toList, 16), ("0o".toList, 8), ("0O".toList, 8), ("0b".toList, 2),
    ("0B".toList, 2), ("0".toList, 8)]

/-- The text consists of digits of the base, one or more, with at most one underscore between
neighbours. -/
inductive Spaced (base : Nat) : (digits t : Text) → Prop where
  | one {d : Char} (hd : isDigitOf base d = true) : Spaced base [d] [d]
  | next {d : Char} {digits t : Text} (hd : isDigitOf base d = true) (h : Spaced base digits t) :
      Spaced base (d :: digits) (d :: t)
  | apart {d : Char} {digits t : Text} (hd : isDigitOf base d = true) (h : Spaced base digits t) :
      Spaced base (d :: digits) (d :: '_' :: t)

/-- The text is a literal without a sign, in a base and with these digits. Where the base is
announced an underscore may follow at once; otherwise the literal is decimal, and is a single zero
or begins with another digit. -/
inductive Unsigned : (t : Text) → (base : Nat) → (digits : Text) → Prop where
  | announced {announcement gap digits t : Text} {base : Nat}
      (hbase : (announcement, base) ∈ announcements) (hgap : gap = [] ∨ gap = ['_'])
      (h : Spaced base digits t) : Unsigned (announcement ++ (gap ++ t)) base digits
  | zero : Unsigned ['0'] 10 ['0']
  | decimal {d : Char} {digits t : Text} (hd : d ≠ '0') (h : Spaced 10 (d :: digits) t) :
      Unsigned t 10 (d :: digits)

/-- The text is an integer literal: an optional sign and a literal without one. -/
def IsLiteral (t : Text) (negative : Bool) (base : Nat) (digits : Text) : Prop :=
  ∃ sign body, t = sign ++ body ∧ IsSign sign negative ∧ Unsigned body base digits

/-- The text is an integer literal of this value, the positional value of its digits with its sign,
and the value is in range. -/
def Denotes (t : Text) (n : Int) : Prop :=
  ∃ negative base digits, IsLiteral t negative base digits ∧
    n = Duration.withSign negative (Nat.ofDigits base (digits.map digit).reverse) ∧
    least ≤ n ∧ n ≤ greatest

/-! ## Underscores -/

theorem ne_underscore_of_isDigitOf {base : Nat} {c : Char} (h : isDigitOf base c = true) :
    c ≠ '_' := by
  rintro rfl
  exact absurd h Bool.false_ne_true

/-- Underscores are where they may be: not at the end, not side by side, and in front only of an
announced base. -/
theorem separated_eq_true_iff {announced : Bool} {t : Text} :
    separated announced t = true ↔
      t.getLast? ≠ some '_' ∧ ¬ "__".toList <:+: t ∧
        (announced = true ∨ t.head? ≠ some '_') := by
  have hdouble : Text.contains "__".toList t = false ↔ ¬ "__".toList <:+: t := by
    rw [Text.contains, Option.isSome_eq_false_iff, Option.isNone_iff_eq_none,
      breakOn?_eq_none_iff]
  rw [← hdouble]
  simp only [separated, Bool.and_eq_true, Bool.or_eq_true, Bool.not_eq_true', bne_iff_ne, ne_eq,
    and_assoc]

section

variable {base : Nat} {digits t : Text}

/-- Between underscores stand digits of the base, one at least. -/
theorem Spaced.all_digits (h : Spaced base digits t) :
    digits ≠ [] ∧ digits.all (isDigitOf base) = true := by
  induction h with
  | one hd => simp [hd]
  | next hd _ ih => simp [hd, ih.2]
  | apart hd _ ih => simp [hd, ih.2]

/-- Without its underscores a literal is its digits. -/
theorem Spaced.filter_eq (h : Spaced base digits t) : t.filter (· != '_') = digits := by
  induction h with
  | one hd => simp [ne_underscore_of_isDigitOf hd]
  | next hd _ ih => simp [ne_underscore_of_isDigitOf hd, ih]
  | apart hd _ ih => simp [ne_underscore_of_isDigitOf hd, ih]

/-- The first character is the first digit. -/
theorem Spaced.head?_eq (h : Spaced base digits t) : t.head? = digits.head? := by
  cases h <;> rfl

theorem Spaced.head (h : Spaced base digits t) :
    ∃ c rest, t = c :: rest ∧ isDigitOf base c = true := by
  cases h with
  | one hd => exact ⟨_, _, rfl, hd⟩
  | next hd _ => exact ⟨_, _, rfl, hd⟩
  | apart hd _ => exact ⟨_, _, rfl, hd⟩

theorem Spaced.getLast?_ne (h : Spaced base digits t) : t.getLast? ≠ some '_' := by
  induction h with
  | one hd => simpa using ne_underscore_of_isDigitOf hd
  | next _ h ih =>
    obtain ⟨c, rest, rfl, -⟩ := h.head
    rwa [List.getLast?_cons_cons]
  | apart _ h ih =>
    obtain ⟨c, rest, rfl, -⟩ := h.head
    rwa [List.getLast?_cons_cons, List.getLast?_cons_cons]

/-- An underscore in front of something else is not the first of two. -/
theorem not_infix_underscore_cons {c : Char} {rest : Text} (hc : c ≠ '_')
    (h : ¬ "__".toList <:+: c :: rest) : ¬ "__".toList <:+: '_' :: c :: rest := by
  rw [List.infix_cons_iff, not_or]
  refine ⟨fun hprefix => hc ?_, h⟩
  have htail : ['_'] <+: c :: rest := (List.cons_prefix_cons.1 hprefix).2
  exact (List.cons_prefix_cons.1 htail).1.symm

/-- No two underscores stand side by side. -/
theorem Spaced.not_infix (h : Spaced base digits t) : ¬ "__".toList <:+: t := by
  have hdigit : ∀ {d : Char} {rest : Text}, isDigitOf base d = true →
      ¬ "__".toList <:+: rest → ¬ "__".toList <:+: d :: rest := by
    intro d rest hd hrest
    rw [List.infix_cons_iff, not_or]
    exact ⟨fun hprefix =>
      ne_underscore_of_isDigitOf hd (List.cons_prefix_cons.1 hprefix).1.symm, hrest⟩
  induction h with
  | one hd => exact hdigit hd (by decide)
  | next hd _ ih => exact hdigit hd ih
  | apart hd h ih =>
    obtain ⟨c, rest, rfl, hc⟩ := h.head
    exact hdigit hd (not_infix_underscore_cons (ne_underscore_of_isDigitOf hc) ih)

/-- Underscores between digits are where they may be. -/
theorem Spaced.separated (h : Spaced base digits t) (announced : Bool) :
    separated announced t = true := by
  refine separated_eq_true_iff.2 ⟨h.getLast?_ne, h.not_infix, Or.inr ?_⟩
  obtain ⟨c, rest, rfl, hc⟩ := h.head
  exact fun hhead => ne_underscore_of_isDigitOf hc (Option.some.inj hhead)

/-- One underscore may follow what announces a base. -/
theorem Spaced.separated_underscore (h : Spaced base digits t) :
    Integer.separated true ('_' :: t) = true := by
  have hlast := h.getLast?_ne
  have hdouble := h.not_infix
  obtain ⟨c, rest, rfl, hc⟩ := h.head
  refine separated_eq_true_iff.2 ⟨?_, ?_, Or.inl rfl⟩
  · rwa [List.getLast?_cons_cons]
  · exact not_infix_underscore_cons (ne_underscore_of_isDigitOf hc) hdouble

/-- Digits alone, without underscores. -/
theorem spaced_of_digits (hne : t ≠ []) (h : t.all (isDigitOf base) = true) : Spaced base t t := by
  induction t with
  | nil => exact absurd rfl hne
  | cons c cs ih =>
    rw [List.all_cons, Bool.and_eq_true] at h
    by_cases hcs : cs = []
    · rw [hcs]
      exact .one h.1
    · exact .next h.1 (ih hcs h.2)

/-- Behind a first underscore, more follows, and underscores are neither first nor last in it nor
side by side. -/
theorem behind_underscore (hlast : ('_' :: t).getLast? ≠ some '_')
    (hdouble : ¬ "__".toList <:+: '_' :: t) :
    t ≠ [] ∧ t.head? ≠ some '_' ∧ t.getLast? ≠ some '_' ∧ ¬ "__".toList <:+: t := by
  cases t with
  | nil => exact absurd rfl hlast
  | cons c cs =>
    refine ⟨List.cons_ne_nil c cs, ?_, ?_, fun h => hdouble (List.infix_cons h)⟩
    · intro hhead
      rw [Option.some.inj hhead] at hdouble
      exact hdouble ⟨[], cs, rfl⟩
    · rwa [List.getLast?_cons_cons] at hlast

/-- Where underscores are neither first nor last nor side by side and all else is digits, each
underscore stands between two digits. -/
theorem spaced_of_separated {t : Text} (hne : t ≠ []) (hhead : t.head? ≠ some '_')
    (hlast : t.getLast? ≠ some '_') (hdouble : ¬ "__".toList <:+: t)
    (hdigits : (t.filter (· != '_')).all (isDigitOf base) = true) :
    Spaced base (t.filter (· != '_')) t := by
  match t with
  | [] => exact absurd rfl hne
  | d :: rest =>
    have hd : d ≠ '_' := fun hd => hhead (congrArg some hd)
    have hinfix : ¬ "__".toList <:+: rest := fun hrest => hdouble (List.infix_cons hrest)
    rw [List.filter_cons_of_pos (by simpa using hd)] at hdigits ⊢
    obtain ⟨hdigit, hmore⟩ := Bool.and_eq_true_iff.1 hdigits
    match rest with
    | [] => exact .one hdigit
    | e :: rest =>
      rw [List.getLast?_cons_cons] at hlast
      by_cases he : e = '_'
      · subst he
        obtain ⟨hrest, hsecond, hend, hafter⟩ := behind_underscore hlast hinfix
        exact .apart hdigit (spaced_of_separated hrest hsecond hend hafter hmore)
      · exact .next hdigit (spaced_of_separated (List.cons_ne_nil e rest)
          (fun hsecond => he (Option.some.inj hsecond)) hlast hinfix hmore)

end

/-! ## Announcements -/

/-- An announcement is cut off in front of a digit of its base or an underscore. -/
theorem base_append {announcement w : Text} {r : Nat} {c : Char}
    (h : (announcement, r) ∈ announcements) (hhead : w.head? = some c)
    (hc : c = '_' ∨ isDigitOf r c = true) : base (announcement ++ w) = (r, true, w) := by
  obtain ⟨cs, rfl⟩ := List.head?_eq_some_iff.1 hhead
  simp only [announcements, List.mem_cons, Prod.mk.injEq, List.not_mem_nil, or_false] at h
  rcases h with ⟨rfl, rfl⟩ | ⟨rfl, rfl⟩ | ⟨rfl, rfl⟩ | ⟨rfl, rfl⟩ | ⟨rfl, rfl⟩ | ⟨rfl, rfl⟩ |
    ⟨rfl, rfl⟩
  case inr.inr.inr.inr.inr.inr =>
    -- The letters that announce a base are no octal digits.
    show base ('0' :: c :: cs) = _
    rw [base] <;> rintro rfl <;> exact absurd hc (by decide)
  all_goals rfl

/-- What is cut off a text is an announcement, or nothing. -/
theorem base_spec (u : Text) :
    (∃ announcement r w, (announcement, r) ∈ announcements ∧ u = announcement ++ w ∧
      base u = (r, true, w)) ∨
    ((∀ c w, u ≠ '0' :: c :: w) ∧ base u = (10, false, u)) := by
  unfold base
  split
  case h_1 => exact Or.inl ⟨"0x".toList, _, _, by decide, rfl, rfl⟩
  case h_2 => exact Or.inl ⟨"0X".toList, _, _, by decide, rfl, rfl⟩
  case h_3 => exact Or.inl ⟨"0o".toList, _, _, by decide, rfl, rfl⟩
  case h_4 => exact Or.inl ⟨"0O".toList, _, _, by decide, rfl, rfl⟩
  case h_5 => exact Or.inl ⟨"0b".toList, _, _, by decide, rfl, rfl⟩
  case h_6 => exact Or.inl ⟨"0B".toList, _, _, by decide, rfl, rfl⟩
  case h_7 => exact Or.inl ⟨"0".toList, _, _, by decide, rfl, rfl⟩
  case h_8 hzero => exact Or.inr ⟨fun c w => hzero c w, rfl⟩

/-! ## Literals without a sign -/

theorem Unsigned.head_isDigit {u digits : Text} {r : Nat} (h : Unsigned u r digits) :
    ∃ c rest, u = c :: rest ∧ c.isDigit = true := by
  cases h with
  | @announced announcement gap digits t base hbase hgap h =>
    have hzero : ∀ e ∈ announcements, e.1.head? = some '0' := by decide
    obtain ⟨rest, hrest⟩ := List.head?_eq_some_iff.1 (hzero _ hbase)
    exact ⟨'0', rest ++ (gap ++ t), by rw [← List.cons_append, ← hrest], by decide⟩
  | zero => exact ⟨'0', [], rfl, by decide⟩
  | decimal hd h =>
    obtain ⟨c, rest, rfl, hc⟩ := h.head
    exact ⟨c, rest, rfl, by rwa [isDigitOf_ten] at hc⟩

/-- A literal is read: behind what announces its base, the underscores are where they may be. -/
theorem Unsigned.reads {u digits : Text} {r : Nat} (h : Unsigned u r digits) :
    ∃ announced w, base u = (r, announced, w) ∧ separated announced w = true ∧
      w.filter (· != '_') = digits ∧ digits ≠ [] ∧ digits.all (isDigitOf r) = true := by
  cases h with
  | @announced announcement gap digits t base hbase hgap h =>
    obtain ⟨c, rest, rfl, hc⟩ := h.head
    rcases hgap with rfl | rfl
    · exact ⟨true, c :: rest, base_append hbase rfl (Or.inr hc), h.separated true, h.filter_eq,
        h.all_digits⟩
    · exact ⟨true, '_' :: c :: rest, base_append hbase rfl (Or.inl rfl), h.separated_underscore,
        h.filter_eq, h.all_digits⟩
  | zero => exact ⟨false, ['0'], rfl, by decide, by decide, by decide, by decide⟩
  | @decimal d digits t hd h =>
    obtain ⟨c, rest, rfl, hc⟩ := h.head
    obtain rfl : c = d := Option.some.inj h.head?_eq
    refine ⟨false, c :: rest, base_of_plain ?_, h.separated false, h.filter_eq, h.all_digits⟩
    rintro e w heq
    exact hd (List.cons.inj heq).1

/-- What is read is a literal. -/
theorem unsigned_of_separated {u w : Text} {r : Nat} {announced : Bool}
    (hbase : base u = (r, announced, w)) (hsep : separated announced w = true)
    (hne : w.filter (· != '_') ≠ []) (hall : (w.filter (· != '_')).all (isDigitOf r) = true) :
    Unsigned u r (w.filter (· != '_')) := by
  obtain ⟨hlast, hdouble, hhead⟩ := separated_eq_true_iff.1 hsep
  have hw : w ≠ [] := by
    rintro rfl
    exact hne rfl
  rcases base_spec u with ⟨announcement, r', w', hmem, rfl, heq⟩ | ⟨hplain, heq⟩
  · rw [hbase, Prod.mk.injEq, Prod.mk.injEq] at heq
    obtain ⟨rfl, rfl, rfl⟩ := heq
    -- One underscore may stand between the announcement and the first digit.
    by_cases hgap : w.head? = some '_'
    · obtain ⟨t, rfl⟩ := List.head?_eq_some_iff.1 hgap
      have hfilter : ('_' :: t).filter (· != '_') = t.filter (· != '_') := rfl
      rw [hfilter] at hall ⊢
      obtain ⟨ht, hsecond, hend, hafter⟩ := behind_underscore hlast hdouble
      exact .announced hmem (Or.inr rfl) (spaced_of_separated ht hsecond hend hafter hall)
    · exact .announced hmem (Or.inl rfl) (spaced_of_separated hw hgap hlast hdouble hall)
  · rw [hbase, Prod.mk.injEq, Prod.mk.injEq] at heq
    obtain ⟨rfl, rfl, rfl⟩ := heq
    have hspaced := spaced_of_separated hw (hhead.resolve_left Bool.false_ne_true) hlast hdouble
      hall
    obtain ⟨d, digits, hdigits⟩ := List.exists_cons_of_ne_nil hne
    have hfirst := hspaced.head?_eq
    rw [hdigits] at hspaced hfirst ⊢
    by_cases hd : d = '0'
    · obtain ⟨rest, rfl⟩ := List.head?_eq_some_iff.1 hfirst
      subst hd
      cases rest with
      | nil =>
        obtain ⟨-, rfl⟩ := List.cons.inj hdigits
        exact .zero
      | cons c w => exact absurd rfl (hplain c w)
    · exact .decimal hd hspaced

/-- **The grammar and its reading.** A text without a sign is a literal exactly where, behind what
announces its base, the underscores are where they may be and all else is digits. -/
theorem unsigned_iff {u digits : Text} {r : Nat} :
    Unsigned u r digits ↔ ∃ announced w, base u = (r, announced, w) ∧
      separated announced w = true ∧ w.filter (· != '_') = digits ∧
      digits ≠ [] ∧ digits.all (isDigitOf r) = true := by
  constructor
  · exact Unsigned.reads
  · rintro ⟨announced, w, hbase, hsep, rfl, hne, hall⟩
    exact unsigned_of_separated hbase hsep hne hall

/-! ## Literals -/

/-- A literal is a sign, or none, and a literal without one. -/
theorem isLiteral_iff {t digits : Text} {negative : Bool} {r : Nat} :
    IsLiteral t negative r digits ↔
      (signed t).1 = negative ∧ Unsigned (signed t).2 r digits := by
  constructor
  · rintro ⟨sign, body, rfl, hsign, hbody⟩
    obtain ⟨c, rest, rfl, hc⟩ := hbody.head_isDigit
    rw [signed_append_of_isDigit hsign hc rest]
    exact ⟨rfl, hbody⟩
  · rintro ⟨rfl, hbody⟩
    obtain ⟨sign, ht, hsign⟩ := exists_isSign t
    exact ⟨sign, _, ht, hsign, hbody⟩

/-- An integer literal begins with a sign or a digit. -/
theorem IsLiteral.head {t digits : Text} {negative : Bool} {r : Nat}
    (h : IsLiteral t negative r digits) :
    ∃ c rest, t = c :: rest ∧ (c = '-' ∨ c = '+' ∨ c.isDigit = true) := by
  obtain ⟨sign, body, rfl, hsign, hbody⟩ := h
  cases hsign with
  | none =>
    obtain ⟨c, rest, rfl, hc⟩ := hbody.head_isDigit
    exact ⟨c, rest, rfl, Or.inr (Or.inr hc)⟩
  | plus => exact ⟨'+', body, rfl, Or.inr (Or.inl rfl)⟩
  | minus => exact ⟨'-', body, rfl, Or.inl rfl⟩

/-- A text is read as the value of the digits of the literal that it is, with its sign. -/
theorem read?_eq_some_iff_unsigned {t : Text} {n : Int} :
    read? t = some n ↔ ∃ r digits, Unsigned (signed t).2 r digits ∧
      ofMagnitude? (signed t).1 (value r digits) = some n := by
  rcases hbase : base (signed t).2 with ⟨r, announced, w⟩
  have hread : read? t = if separated announced w then
      (toNat? r (w.filter (· != '_'))).bind (ofMagnitude? (signed t).1) else none := by
    rw [read?]
    simp only [hbase]
  rw [hread, Option.ite_none_right_eq_some, Option.bind_eq_some_iff]
  constructor
  · rintro ⟨hsep, m, hm, hn⟩
    obtain ⟨⟨hne, hall⟩, hvalue⟩ := Option.ite_none_right_eq_some.1 hm
    rw [← Option.some.inj hvalue] at hn
    exact ⟨r, _, unsigned_iff.2 ⟨announced, w, hbase, hsep, rfl, hne, hall⟩, hn⟩
  · rintro ⟨r', digits, hunsigned, hn⟩
    obtain ⟨announced', w', hbase', hsep, rfl, hne, hall⟩ := unsigned_iff.1 hunsigned
    rw [hbase, Prod.mk.injEq, Prod.mk.injEq] at hbase'
    obtain ⟨rfl, rfl, rfl⟩ := hbase'
    exact ⟨hsep, _, if_pos ⟨hne, hall⟩, hn⟩

/-- **Reading follows the grammar.** A text is read as an integer exactly where it is an integer
literal of that value. -/
theorem read?_eq_some_iff {t : Text} {n : Int} : read? t = some n ↔ Denotes t n := by
  rw [read?_eq_some_iff_unsigned]
  simp only [Denotes, isLiteral_iff, ← value_eq_ofDigits]
  constructor
  · rintro ⟨r, digits, hunsigned, hn⟩
    exact ⟨_, r, digits, ⟨rfl, hunsigned⟩, ofMagnitude?_eq_some_iff.1 hn⟩
  · rintro ⟨negative, r, digits, ⟨rfl, hunsigned⟩, hn⟩
    exact ⟨r, digits, hunsigned, ofMagnitude?_eq_some_iff.2 hn⟩

/-! ## Numerals in every base -/

/-- The letter in capitals or as it is. -/
def inCase (upper : Bool) (c : Char) : Char := if upper then c.toUpper else c

/-- The numeral of a number in a base, with its letters in either case. -/
def numeral (upper : Bool) (r n : Nat) : Text := (Nat.toDigits r n).map (inCase upper)

/-- Writes an integer in a base, behind the text that announces the base. -/
def writeIn (upper : Bool) (announcement : Text) (r : Nat) (n : Int) : Text :=
  (if n < 0 then ['-'] else []) ++ (announcement ++ numeral upper r n.natAbs)

theorem digitValue_inCase {d : Nat} (hd : d < 16) (upper : Bool) :
    digitValue (inCase upper d.digitChar) = some d := by
  have hall : ∀ upper : Bool, ∀ d < 16, digitValue (inCase upper d.digitChar) = some d := by
    decide
  exact hall upper d hd

section

variable {r : Nat}

/-- A numeral is that of the quotient by the base and a digit for the remainder. -/
theorem numeral_eq (hr : 1 < r) (upper : Bool) (n : Nat) :
    numeral upper r n =
      (if n < r then [] else numeral upper r (n / r)) ++ [inCase upper (n % r).digitChar] := by
  unfold numeral
  rw [Nat.toDigits_eq_if hr]
  split_ifs with hn
  · rw [Nat.mod_eq_of_lt hn]
    rfl
  · rw [List.map_append]
    rfl

/-- A numeral consists of digits of its base, which have the value of the number, and has no zero in
front of other digits. -/
structure IsNumeral (r n : Nat) (t : Text) : Prop where
  ne_nil : t ≠ []
  digits : t.all (isDigitOf r) = true
  value : Text.value r t = n
  head : t.head? = some '0' → t = ['0']

/-- Repeated division writes a numeral of the number. -/
theorem isNumeral_numeral (hr : 1 < r) (hmax : r ≤ 16) (upper : Bool) (n : Nat) :
    IsNumeral r n (numeral upper r n) := by
  induction n using Nat.strong_induction_on with
  | _ n ih =>
    have hlast : n % r < r := Nat.mod_lt n (by omega)
    have hdigit := digitValue_inCase (Nat.lt_of_lt_of_le hlast hmax) upper
    have hlastDigit : isDigitOf r (inCase upper (n % r).digitChar) = true := by
      rw [isDigitOf, hdigit, Option.any_some]
      exact decide_eq_true hlast
    have hlastValue : digit (inCase upper (n % r).digitChar) = n % r := by
      rw [digit, hdigit, Option.getD_some]
    rw [numeral_eq hr]
    by_cases hn : n < r
    · rw [if_pos hn, List.nil_append]
      rw [Nat.mod_eq_of_lt hn] at hlastDigit hlastValue ⊢
      refine ⟨List.cons_ne_nil _ _, by rw [List.all_cons, hlastDigit]; rfl, ?_,
        fun hzero => congrArg (· :: []) (Option.some.inj hzero)⟩
      rw [value_cons, hlastValue]
      simp
    · have hpos : 0 < n / r := Nat.div_pos (by omega) (by omega)
      obtain ⟨hne, hdigits, hvalue, hhead⟩ := ih (n / r) (Nat.div_lt_self (by omega) hr)
      rw [if_neg hn]
      refine ⟨by simp, by rw [List.all_append, hdigits, List.all_cons, hlastDigit]; rfl, ?_,
        fun hzero => ?_⟩
      · rw [value_concat, hvalue, hlastValue, Nat.mul_comm]
        exact Nat.div_add_mod n r
      · rw [List.head?_append_of_ne_nil _ hne] at hzero
        rw [hhead hzero, value_cons_zero, value_nil] at hvalue
        omega

end

/-- The bases in which integers are written, with the texts that announce them. Base ten has none.
-/
def bases : List (Text × Nat) := ([], 10) :: announcements

/-- A numeral behind the announcement of its base is a literal. -/
theorem unsigned_of_isNumeral {announcement t : Text} {r n : Nat}
    (hbase : (announcement, r) ∈ bases) (h : IsNumeral r n t) :
    Unsigned (announcement ++ t) r t := by
  have hspaced := spaced_of_digits h.ne_nil h.digits
  rcases List.mem_cons.1 hbase with hten | hannounced
  · obtain ⟨rfl, rfl⟩ := Prod.mk.inj hten
    obtain ⟨d, ds, rfl⟩ := List.exists_cons_of_ne_nil h.ne_nil
    by_cases hd : d = '0'
    · have hzero : d :: ds = ['0'] := h.head (congrArg some hd)
      rw [hzero]
      exact .zero
    · exact .decimal hd hspaced
  · exact .announced hannounced (Or.inl rfl) hspaced

/-- What is written for an integer in any base is a literal of it. -/
theorem denotes_writeIn (upper : Bool) {announcement : Text} {r : Nat}
    (hbase : (announcement, r) ∈ bases) {n : Int} (hleast : least ≤ n) (hgreatest : n ≤ greatest) :
    Denotes (writeIn upper announcement r n) n := by
  have hrange : ∀ e ∈ bases, 1 < e.2 ∧ e.2 ≤ 16 := by decide
  obtain ⟨hr, hmax⟩ := hrange _ hbase
  have hnumeral := isNumeral_numeral hr hmax upper n.natAbs
  refine ⟨decide (n < 0), r, numeral upper r n.natAbs, ⟨_, _, rfl, ?_,
    unsigned_of_isNumeral hbase hnumeral⟩, ?_, hleast, hgreatest⟩
  · by_cases hneg : n < 0
    · rw [if_pos hneg, decide_eq_true hneg]
      exact .minus
    · rw [if_neg hneg, decide_eq_false hneg]
      exact .none
  · rw [← value_eq_ofDigits, hnumeral.value, Duration.withSign_natAbs]

/-- **Integer literals.** A text is read as an integer exactly where it is a literal of that
integer: an optional sign and, behind what announces a base, digits of the base between which single
underscores may stand, or a decimal numeral without a zero in front, of which the positional value
with the sign is in range. So every integer in range reads back from what is written for it in any
of the bases. -/
theorem reads_exactly_literals :
    (∀ (t : Text) (n : Int), read? t = some n ↔
      ∃ negative base digits, IsLiteral t negative base digits ∧
        n = Duration.withSign negative (Nat.ofDigits base (digits.map digit).reverse) ∧
        least ≤ n ∧ n ≤ greatest) ∧
    (∀ (upper : Bool) (announcement : Text) (base : Nat), (announcement, base) ∈ bases →
      ∀ n : Int, least ≤ n → n ≤ greatest →
        read? (writeIn upper announcement base n) = some n) := by
  refine ⟨fun t n => read?_eq_some_iff, fun upper announcement base hbase n hleast hgreatest => ?_⟩
  exact read?_eq_some_iff.2 (denotes_writeIn upper hbase hleast hgreatest)

/-- The least integer, whose magnitude is out of range, reads back from sixteen digits. -/
theorem least_reads_back_in_hexadecimal :
    ("0X".toList, 16) ∈ bases ∧
      writeIn true "0X".toList 16 least = "-0X8000000000000000".toList ∧
      read? "-0X8000000000000000".toList = some least := by
  have hwrite : writeIn true "0X".toList 16 least = "-0X8000000000000000".toList := by
    decide +kernel
  have hbase : ("0X".toList, 16) ∈ bases := by decide
  refine ⟨hbase, hwrite, ?_⟩
  rw [← hwrite]
  exact reads_exactly_literals.2 true _ _ hbase least (by decide) (by decide)

end Integer

end HealthCheck
