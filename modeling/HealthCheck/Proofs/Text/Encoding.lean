import HealthCheck.Text.Utf8
import Mathlib.Algebra.Group.Nat.Defs
import Mathlib.Tactic.SplitIfs

/-!
# UTF-8 reads back

The bytes of a text are well-formed, and both readings of them give the text back. No other bytes
are well-formed (`decode?_eq_some_iff`).

The machine of `Text.Utf8` is followed through the bytes of one character, by its number of bytes:
the first byte leaves the character begun, each further one adds six bits, and the last one yields
it. The ranges of the second byte are where the scalar values matter. Back from the machine to the
bytes, `Begins` says of the bytes read so far which characters they are the first bytes of.
-/

namespace HealthCheck

/-- Reading item by item succeeds with the values that are read of the items in turn. -/
theorem mapM_eq_some_iff {α β : Type} {f : α → Option β} {items : List α} {values : List β} :
    items.mapM f = some values ↔ items.map f = values.map some := by
  induction items generalizing values with
  | nil => cases values <;> simp
  | cons item items ih =>
    rw [List.mapM_cons, List.map_cons]
    cases hitem : f item with
    | none => cases values <;> simp
    | some x =>
      cases values with
      | nil => simp [Option.bind_eq_some_iff]
      | cons y values => simpa [Option.bind_eq_some_iff, ih] using and_comm

namespace Utf8

/-! ## Single bytes -/

theorem toNat_ofNat {n : Nat} (h : n < 0x100) : (UInt8.ofNat n).toNat = n :=
  UInt8.toNat_ofNat_of_lt' h

theorem scan_first {n : Nat} (hn : n < 0x100) {p : Pending} (hlead : lead n = .more p)
    (bs : Bytes) : scan none (.ofNat n :: bs) = scan (some p) bs := by
  simp only [scan, step, stepFresh, toNat_ofNat hn, hlead, List.nil_append]

/-- A byte in range continues a character that needs more. -/
theorem scan_middle {value left low high n : Nat} (hn : n < 0x100) (hlow : low ≤ n)
    (hhigh : n ≤ high) (hleft : 1 < left) (bs : Bytes) :
    scan (some ⟨value, left, low, high⟩) (.ofNat n :: bs) =
      scan (some ⟨value * 0x40 + n % 0x40, left - 1, 0x80, 0xBF⟩) bs := by
  simp only [scan, step, toNat_ofNat hn, hlow, hhigh, and_self, if_true,
    if_neg (Nat.not_le.2 hleft), List.nil_append]

/-- A byte in range completes a character that needs one. -/
theorem scan_last {value left low high n : Nat} (hn : n < 0x100) (hlow : low ≤ n)
    (hhigh : n ≤ high) (hleft : left ≤ 1) (bs : Bytes) :
    scan (some ⟨value, left, low, high⟩) (.ofNat n :: bs) =
      some (Char.ofNat (value * 0x40 + n % 0x40)) :: scan none bs := by
  simp only [scan, step, toNat_ofNat hn, hlow, hhigh, and_self, if_true, if_pos hleft,
    List.singleton_append]

/-! ## First bytes -/

theorem lead_two {h : Nat} (hlow : 2 ≤ h) (hhigh : h < 0x20) :
    lead (0xC0 + h) = .more ⟨h, 1, 0x80, 0xBF⟩ := by
  unfold lead
  rw [if_neg (by omega), if_neg (by omega), if_pos (by omega), Nat.add_sub_cancel_left]

/-- The first of three bytes. The second byte is restricted after the first zero, where shorter
forms would do, and after D, where the surrogates are. -/
theorem lead_three {h : Nat} (hh : h < 0x10) :
    lead (0xE0 + h) =
      .more ⟨h, 2, if h = 0 then 0xA0 else 0x80, if h = 0xD then 0x9F else 0xBF⟩ := by
  unfold lead
  rw [if_neg (by omega), if_neg (by omega), if_neg (by omega)]
  by_cases hzero : h = 0
  · subst hzero
    rfl
  · by_cases hd : h = 0xD
    · subst hd
      rfl
    · rw [if_neg (by omega), if_neg (by omega), if_pos (by omega), if_neg hzero, if_neg hd,
        Nat.add_sub_cancel_left]

/-- The first of four bytes. The second byte is restricted after the first zero and after four,
where the scalar values end. -/
theorem lead_four {h : Nat} (hh : h < 5) :
    lead (0xF0 + h) = .more ⟨h, 3, if h = 0 then 0x90 else 0x80, if h = 4 then 0x8F else 0xBF⟩ := by
  have hcases : h = 0 ∨ h = 1 ∨ h = 2 ∨ h = 3 ∨ h = 4 := by omega
  rcases hcases with rfl | rfl | rfl | rfl | rfl <;> rfl

/-! ## Characters -/

theorem toNat_range (c : Char) : c.toNat < 0xD800 ∨ 0xDFFF < c.toNat ∧ c.toNat < 0x110000 := c.valid

/-- The bytes of a character yield it, whatever follows. -/
theorem scan_encodeChar (c : Char) (bs : Bytes) :
    scan none (encodeChar c ++ bs) = some c :: scan none bs := by
  have hrange := toNat_range c
  have hback : Char.ofNat c.toNat = c := Char.ofNat_toNat c
  simp only [encodeChar]
  generalize hn : c.toNat = n at hrange hback
  -- One byte to four, by the size of the scalar value.
  split_ifs with hone htwo hthree
  · have hlead : lead n = .char (Char.ofNat n) := by rw [lead, if_pos hone]
    simp only [List.singleton_append, scan, step, stepFresh, toNat_ofNat (show n < 0x100 by omega),
      hlead, hback]
  · rw [List.cons_append, scan_first (by omega) (lead_two (by omega) (by omega)),
      List.singleton_append, scan_last (by omega) (by omega) (by omega) (by decide)]
    have hvalue : n / 0x40 * 0x40 + (0x80 + n % 0x40) % 0x40 = n := by omega
    rw [hvalue, hback]
  · have hlow : (if n / 0x1000 = 0 then 0xA0 else 0x80) ≤ 0x80 + n / 0x40 % 0x40 := by
      split_ifs <;> omega
    have hhigh : 0x80 + n / 0x40 % 0x40 ≤ (if n / 0x1000 = 0xD then 0x9F else 0xBF) := by
      split_ifs <;> omega
    rw [List.cons_append, scan_first (by omega) (lead_three (by omega)), List.cons_append,
      scan_middle (by omega) hlow hhigh (by decide), List.singleton_append,
      scan_last (by omega) (by omega) (by omega) (by decide)]
    have hvalue : (n / 0x1000 * 0x40 + (0x80 + n / 0x40 % 0x40) % 0x40) * 0x40 +
        (0x80 + n % 0x40) % 0x40 = n := by omega
    rw [hvalue, hback]
  · have hlow : (if n / 0x40000 = 0 then 0x90 else 0x80) ≤ 0x80 + n / 0x1000 % 0x40 := by
      split_ifs <;> omega
    have hhigh : 0x80 + n / 0x1000 % 0x40 ≤ (if n / 0x40000 = 4 then 0x8F else 0xBF) := by
      split_ifs <;> omega
    rw [List.cons_append, scan_first (by omega) (lead_four (by omega)), List.cons_append,
      scan_middle (by omega) hlow hhigh (by decide), List.cons_append,
      scan_middle (by omega) (by omega) (by omega) (by decide),
      List.singleton_append,
      scan_last (by omega) (by omega) (by omega) (by decide)]
    have hvalue : ((n / 0x40000 * 0x40 + (0x80 + n / 0x1000 % 0x40) % 0x40) * 0x40 +
        (0x80 + n / 0x40 % 0x40) % 0x40) * 0x40 + (0x80 + n % 0x40) % 0x40 = n := by omega
    rw [hvalue, hback]

/-! ## Well-formed bytes -/

/-- The bytes for the lower bits of a scalar value, six bits each. -/
def tail : (count : Nat) → (n : Nat) → Bytes
  | 0, _ => []
  | count + 1, n => .ofNat (0x80 + n / 0x40 ^ count % 0x40) :: tail count n

/-- Bytes begin a character of which the upper bits have a value and which needs one byte in a range
and some more: every number that continues so is the scalar value of a character whose first bytes
these are. -/
structure Begins (front : Bytes) (value more low high : Nat) : Prop where
  low_ge : 0x80 ≤ low
  high_le : high ≤ 0xBF
  completes : ∀ n, n / 0x40 ^ (more + 1) = value → low ≤ 0x80 + n / 0x40 ^ more % 0x40 →
    0x80 + n / 0x40 ^ more % 0x40 ≤ high →
    ∃ c : Char, c.toNat = n ∧ encodeChar c = front ++ tail (more + 1) n

/-- Every code point that is no surrogate is a character. -/
theorem exists_char {n : Nat} (h : n < 0xD800 ∨ 0xDFFF < n ∧ n < 0x110000) :
    ∃ c : Char, c.toNat = n :=
  ⟨Char.ofNatAux n h, rfl⟩

/-- A first byte of a character of two bytes. -/
theorem begins_two {h : Nat} (hlow : 2 ≤ h) (hhigh : h < 0x20) :
    Begins [.ofNat (0xC0 + h)] h 0 0x80 0xBF := by
  refine ⟨Nat.le_refl _, Nat.le_refl _, fun n hvalue _ _ => ?_⟩
  simp only [Nat.zero_add, Nat.pow_one] at hvalue
  obtain ⟨c, hc⟩ := exists_char (n := n) (by omega)
  refine ⟨c, hc, ?_⟩
  simp only [encodeChar, hc]
  rw [if_neg (by omega), if_pos (by omega), hvalue]
  simp [tail]

/-- A first byte of a character of three bytes, which restricts the second one in two cases. -/
theorem begins_three {h : Nat} (hh : h < 0x10) :
    Begins [.ofNat (0xE0 + h)] h 1 (if h = 0 then 0xA0 else 0x80)
      (if h = 0xD then 0x9F else 0xBF) := by
  refine ⟨by split_ifs <;> decide, by split_ifs <;> decide, fun n hvalue hlow hhigh => ?_⟩
  simp only [Nat.reducePow, Nat.reduceAdd] at hvalue hlow hhigh
  have hrange : 0x800 ≤ n ∧ n < 0x10000 ∧ (n < 0xD800 ∨ 0xDFFF < n) := by
    split_ifs at hlow hhigh <;> omega
  obtain ⟨c, hc⟩ := exists_char (n := n) (by omega)
  refine ⟨c, hc, ?_⟩
  simp only [encodeChar, hc]
  rw [if_neg (by omega), if_neg (by omega), if_pos (by omega)]
  simp [tail, ← hvalue]

/-- A first byte of a character of four bytes, which restricts the second one in two cases. -/
theorem begins_four {h : Nat} (hh : h < 5) :
    Begins [.ofNat (0xF0 + h)] h 2 (if h = 0 then 0x90 else 0x80)
      (if h = 4 then 0x8F else 0xBF) := by
  refine ⟨by split_ifs <;> decide, by split_ifs <;> decide, fun n hvalue hlow hhigh => ?_⟩
  simp only [Nat.reducePow, Nat.reduceAdd] at hvalue hlow hhigh
  have hrange : 0x10000 ≤ n ∧ n < 0x110000 := by
    split_ifs at hlow hhigh <;> omega
  obtain ⟨c, hc⟩ := exists_char (n := n) (by omega)
  refine ⟨c, hc, ?_⟩
  simp only [encodeChar, hc]
  rw [if_neg (by omega), if_neg (by omega), if_neg (by omega)]
  simp [tail, ← hvalue]

/-- A byte in range takes a character that needs more a step further. -/
theorem Begins.next {front : Bytes} {value more low high : Nat}
    (h : Begins front value (more + 1) low high) {b : UInt8} (hlow : low ≤ b.toNat)
    (hhigh : b.toNat ≤ high) :
    Begins (front ++ [b]) (value * 0x40 + b.toNat % 0x40) more 0x80 0xBF := by
  have hlow_ge := h.low_ge
  have hhigh_le := h.high_le
  refine ⟨Nat.le_refl _, Nat.le_refl _, fun n hvalue _ _ => ?_⟩
  have hbits : 0x80 + n / 0x40 ^ (more + 1) % 0x40 = b.toNat := by omega
  have hupper : n / 0x40 ^ (more + 1 + 1) = value := by
    rw [Nat.pow_succ, ← Nat.div_div_eq_div_mul]
    omega
  obtain ⟨c, hc, hencode⟩ := h.completes n hupper (by omega) (by omega)
  refine ⟨c, hc, ?_⟩
  rw [hencode, tail, hbits, UInt8.ofNat_toNat, List.append_assoc, List.singleton_append]

/-- A byte in range completes a character that needs one. -/
theorem Begins.last {front : Bytes} {value low high : Nat} (h : Begins front value 0 low high)
    {b : UInt8} (hlow : low ≤ b.toNat) (hhigh : b.toNat ≤ high) :
    encodeChar (Char.ofNat (value * 0x40 + b.toNat % 0x40)) = front ++ [b] := by
  have hlow_ge := h.low_ge
  have hhigh_le := h.high_le
  have hbits : 0x80 + (value * 0x40 + b.toNat % 0x40) / 0x40 ^ 0 % 0x40 = b.toNat := by
    rw [Nat.pow_zero]
    omega
  have hupper : (value * 0x40 + b.toNat % 0x40) / 0x40 ^ (0 + 1) = value := by
    rw [Nat.zero_add, Nat.pow_one]
    omega
  obtain ⟨c, hc, hencode⟩ := h.completes _ hupper (by omega) (by omega)
  rw [← hc, Char.ofNat_toNat, hencode, tail, hbits, tail, UInt8.ofNat_toNat]

/-- Bytes have been read as the first of a character that the machine has begun. -/
def HasRead (front : Bytes) : Option Pending → Prop
  | none => front = []
  | some p => ∃ more, p.left = more + 1 ∧ Begins front p.value more p.low p.high

theorem lead_high {b : Nat} (h : 0xF5 ≤ b) : lead b = .bad := by
  unfold lead
  rw [if_neg (by omega), if_neg (by omega), if_neg (by omega), if_neg (by omega),
    if_neg (by omega), if_neg (by omega), if_neg (by omega), if_neg (by omega),
    if_neg (by omega)]

/-- A first byte leaves the characters that may come of it. -/
theorem hasRead_of_lead {b : UInt8} {p : Pending} (h : lead b.toNat = .more p) :
    HasRead [b] (some p) := by
  have hb : UInt8.ofNat b.toNat = b := UInt8.ofNat_toNat
  generalize b.toNat = m at h hb
  subst hb
  by_cases hone : m < 0xC2
  · unfold lead at h
    split_ifs at h
  by_cases htwo : m < 0xE0
  · obtain ⟨k, rfl⟩ := Nat.exists_eq_add_of_le (show 0xC0 ≤ m by omega)
    rw [lead_two (by omega) (by omega), Lead.more.injEq] at h
    exact h ▸ ⟨0, rfl, begins_two (by omega) (by omega)⟩
  by_cases hthree : m < 0xF0
  · obtain ⟨k, rfl⟩ := Nat.exists_eq_add_of_le (show 0xE0 ≤ m by omega)
    rw [lead_three (by omega), Lead.more.injEq] at h
    exact h ▸ ⟨1, rfl, begins_three (by omega)⟩
  by_cases hfour : m < 0xF5
  · obtain ⟨k, rfl⟩ := Nat.exists_eq_add_of_le (show 0xF0 ≤ m by omega)
    rw [lead_four (by omega), Lead.more.injEq] at h
    exact h ▸ ⟨2, rfl, begins_four (by omega)⟩
  rw [lead_high (by omega)] at h
  cases h

/-- A byte that is a character by itself is its encoding. -/
theorem encodeChar_of_lead {b : UInt8} {c : Char} (h : lead b.toNat = .char c) :
    encodeChar c = [b] := by
  have hsmall : b.toNat < 0x80 ∧ Char.ofNat b.toNat = c := by
    unfold lead at h
    split_ifs at h with hb
    exact ⟨hb, Lead.char.inj h⟩
  obtain ⟨d, hd⟩ := exists_char (n := b.toNat) (by omega)
  rw [← hsmall.2, ← hd, Char.ofNat_toNat]
  simp only [encodeChar, hd]
  rw [if_pos hsmall.1, UInt8.ofNat_toNat]

/-- One step that finds no gap: the character that it yields, if any, is written as what had been
read and the byte, and otherwise the byte has been read too. -/
theorem step_cases {q : Option Pending} {front : Bytes} (hread : HasRead front q) (b : UInt8)
    (hgap : none ∉ (step q b).1) :
    (∃ c, step q b = ([some c], none) ∧ encodeChar c = front ++ [b]) ∨
      ∃ p, step q b = ([], some p) ∧ HasRead (front ++ [b]) (some p) := by
  cases q with
  | none =>
    rw [show front = [] from hread, List.nil_append]
    simp only [step, stepFresh] at hgap ⊢
    cases hlead : lead b.toNat with
    | char c => exact Or.inl ⟨c, rfl, encodeChar_of_lead hlead⟩
    | more p => exact Or.inr ⟨p, rfl, hasRead_of_lead hlead⟩
    | bad => simp [hlead] at hgap
  | some p =>
    obtain ⟨more, hleft, hbegins⟩ := hread
    have hrange : p.low ≤ b.toNat ∧ b.toNat ≤ p.high :=
      Decidable.byContradiction fun hout => hgap (by simp [step, hout])
    cases more with
    | zero =>
      refine Or.inl ⟨_, ?_, hbegins.last hrange.1 hrange.2⟩
      simp [step, hrange, hleft]
    | succ more =>
      refine Or.inr ⟨⟨p.value * 0x40 + b.toNat % 0x40, p.left - 1, 0x80, 0xBF⟩, ?_, more, ?_,
        hbegins.next hrange.1 hrange.2⟩
      · simp [step, hrange, hleft]
      · simp [hleft]

/-- Bytes in which the machine finds no gap are those of the characters that it finds. -/
theorem eq_encode_of_scan {bs : Bytes} {q : Option Pending} {front : Bytes} {t : Text}
    (hread : HasRead front q) (hscan : scan q bs = t.map some) : front ++ bs = encode t := by
  induction bs generalizing q front t with
  | nil =>
    cases q with
    | none =>
      rw [scan, eq_comm, List.map_eq_nil_iff] at hscan
      rw [hscan, show front = [] from hread]
      rfl
    | some p => cases t <;> simp [scan] at hscan
  | cons b bs ih =>
    rw [scan] at hscan
    have hgap : none ∉ (step q b).1 := by
      intro hmem
      have hmem' : none ∈ t.map some := hscan ▸ List.mem_append_left _ hmem
      simp at hmem'
    rcases step_cases hread b hgap with ⟨c, hstep, hchar⟩ | ⟨p, hstep, hread'⟩
    · rw [hstep, List.singleton_append] at hscan
      cases t with
      | nil => cases hscan
      | cons d t =>
        obtain ⟨hd, hrest⟩ := List.cons.inj hscan
        have hbs : bs = encode t := ih (show HasRead [] none from rfl) hrest
        rw [encode, List.flatMap_cons, ← Option.some.inj hd, hchar, List.append_assoc,
          List.singleton_append]
        exact congrArg (front ++ b :: ·) hbs
    · rw [hstep, List.nil_append] at hscan
      rw [← ih hread' hscan, List.append_assoc, List.singleton_append]

/-! ## Texts -/

/-- The bytes of a text are read as its characters. -/
theorem scan_encode (t : Text) : scan none (encode t) = t.map some := by
  induction t with
  | nil => rfl
  | cons c cs ih =>
    show scan none (encodeChar c ++ encode cs) = _
    rw [scan_encodeChar, ih, List.map_cons]

/-- The strict reading accepts exactly the bytes of texts. -/
theorem decode?_eq_some_iff {bs : Bytes} {t : Text} : decode? bs = some t ↔ bs = encode t := by
  rw [decode?, mapM_eq_some_iff, List.map_id]
  constructor
  · exact eq_encode_of_scan (show HasRead [] none from rfl)
  · rintro rfl
    exact scan_encode t

/-- The bytes of a text are well-formed and read back as the text. -/
@[simp] theorem decode?_encode (t : Text) : decode? (encode t) = some t :=
  decode?_eq_some_iff.2 rfl

/-- The lossy reading finds nothing to replace in the bytes of a text. -/
@[simp] theorem decodeLossy_encode (t : Text) : decodeLossy (encode t) = t := by
  rw [decodeLossy, scan_encode, List.map_map]
  exact List.map_id t

/-- Nothing is lost in a lossy reading exactly where the bytes are those of a text. -/
theorem encode_decodeLossy_iff {bs : Bytes} :
    encode (decodeLossy bs) = bs ↔ (decode? bs).isSome = true := by
  rw [Option.isSome_iff_exists]
  constructor
  · intro h
    exact ⟨decodeLossy bs, decode?_eq_some_iff.2 h.symm⟩
  · rintro ⟨t, ht⟩
    rw [decode?_eq_some_iff.1 ht, decodeLossy_encode]

end Utf8

end HealthCheck
