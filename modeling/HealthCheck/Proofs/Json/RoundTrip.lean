import HealthCheck.Json.Writer
import HealthCheck.Proofs.Json.Shape
import HealthCheck.Proofs.Number.Numerals
import HealthCheck.Proofs.Text.Encoding
import Mathlib.Data.List.TakeWhile

/-!
# The compact form reads back

A document whose numbers are whole is what its compact form is read as: `parse?_compact`.

Each reader gives back what the writer wrote and leaves alone what follows. A numeral ends where
something follows that cannot go on with it, which is what `EndsNumeral` says; after every other
token anything may follow.
-/

namespace HealthCheck.Json

/-! ## Strings -/

theorem hex4?_hexDigit {n : Nat} (h : n < 0x20) :
    hex4? '0' '0' (hexDigit (n / 16)) (hexDigit (n % 16)) = some n := by
  revert n
  decide

/-- A control character reads back from its four hexadecimal digits. -/
theorem readStringFrom_unicode {n : Nat} (h : n < 0x20) (rest : Text) :
    readStringFrom none ("\\u00".toList ++ [hexDigit (n / 16), hexDigit (n % 16)] ++ rest) =
      consString (Char.ofNat n) (readStringFrom none rest) := by
  have hhigh : isHighSurrogate n = false := by
    simp only [isHighSurrogate, Bool.and_eq_false_iff, decide_eq_false_iff_not]
    omega
  have hlow : isLowSurrogate n = false := by
    simp only [isLowSurrogate, Bool.and_eq_false_iff, decide_eq_false_iff_not]
    omega
  show readStringFrom none
    ('\\' :: 'u' :: '0' :: '0' :: hexDigit (n / 16) :: hexDigit (n % 16) :: rest) = _
  rw [readStringFrom.eq_def]
  simp only [hex4?_hexDigit h, hhigh, hlow, Bool.false_eq_true, if_false]

/-- A character that needs no escape reads back as itself. -/
theorem readStringFrom_plain {c : Char} (hquote : c ≠ '"') (hbackslash : c ≠ '\\')
    (hcontrol : ¬ c.toNat < 0x20) (rest : Text) :
    readStringFrom none (c :: rest) = consString c (readStringFrom none rest) := by
  rw [readStringFrom]
  · rw [if_neg hcontrol]
  · exact fun _ _ _ _ _ hc => absurd hc hbackslash
  · exact fun hc => absurd hc hquote
  · exact fun _ _ hc => absurd hc hbackslash

/-- A character is read back from its escape. -/
theorem readStringFrom_escape (c : Char) (rest : Text) :
    readStringFrom none (escape c ++ rest) = consString c (readStringFrom none rest) := by
  unfold escape
  split
  case h_8 hquote hbackslash _ _ _ _ _ =>
    by_cases hcontrol : c.toNat < 0x20
    · rw [if_pos hcontrol, readStringFrom_unicode hcontrol, Char.ofNat_toNat]
    · rw [if_neg hcontrol, List.singleton_append, readStringFrom_plain _ _ hcontrol]
      · exact fun hc => hquote hc
      · exact fun hc => hbackslash hc
  all_goals simp [readStringFrom, unescape?]

/-- A string is read back from its escapes, up to the quote that closes it. -/
theorem readString_escaped (t rest : Text) :
    readString (t.flatMap escape ++ '"' :: rest) = some (t, rest) := by
  unfold readString
  induction t with
  | nil => rw [List.flatMap_nil, List.nil_append, readStringFrom]
  | cons c cs ih => rw [List.flatMap_cons, List.append_assoc, readStringFrom_escape, ih]; rfl

theorem quoted_append (t rest : Text) :
    quoted t ++ rest = '"' :: (t.flatMap escape ++ '"' :: rest) := by
  simp [quoted]

/-! ## Numbers -/

/-- What follows does not go on with a numeral. -/
def EndsNumeral (rest : Text) : Prop :=
  ∀ c, rest.head? = some c → c.isDigit = false ∧ c ≠ '.' ∧ c ≠ 'e' ∧ c ≠ 'E'

theorem endsNumeral_cons {c : Char} {rest : Text}
    (h : c.isDigit = false ∧ c ≠ '.' ∧ c ≠ 'e' ∧ c ≠ 'E') : EndsNumeral (c :: rest) := by
  intro d hd
  obtain rfl : c = d := Option.some.inj hd
  exact h

theorem endsNumeral_nil : EndsNumeral [] := fun _ h => by simp at h

theorem readFraction_of_ends {rest : Text} (h : EndsNumeral rest) :
    readFraction rest = some (none, rest) := by
  unfold readFraction
  split
  · exact absurd rfl (h '.' rfl).2.1
  · rfl

theorem readExponent_of_ends {rest : Text} (h : EndsNumeral rest) :
    readExponent rest = some (none, rest) := by
  unfold readExponent
  split
  · rfl
  · rename_i c cs
    obtain ⟨-, -, hlower, hupper⟩ := h c rfl
    rw [if_neg (by simp [hlower, hupper])]

/-- A numeral in decimal reads back up to where it ends. -/
theorem readNumeral_unsigned (negative : Bool) (n : Nat) {rest : Text} (h : EndsNumeral rest) :
    readNumeral ((if negative then ['-'] else []) ++ (Text.ofNat n ++ rest)) =
      some (⟨negative, Text.ofNat n, none, none⟩, rest) := by
  have hdigits := Text.span_digits (Text.all_isDigit_ofNat n) fun c hc => (h c hc).1
  have hnumeral : ¬ (Text.ofNat n = [] ∨
      ((Text.ofNat n).head? = some '0' ∧ (Text.ofNat n).length ≠ 1)) := by
    rintro (hnil | ⟨hhead, hlen⟩)
    · exact Text.ofNat_ne_nil n hnil
    · obtain ⟨u, hu⟩ := List.head?_eq_some_iff.1 hhead
      have hzero := Text.hasLeadingZero_ofNat n
      cases u with
      | nil => exact hlen (by rw [hu]; rfl)
      | cons c cs => rw [hu] at hzero; exact Bool.noConfusion hzero
  unfold readNumeral
  cases negative with
  | true =>
    simp only [if_true, List.singleton_append, hdigits, if_neg hnumeral, readFraction_of_ends h,
      readExponent_of_ends h, Option.bind_eq_bind, Option.bind_some, Option.pure_def]
  | false =>
    simp only [Bool.false_eq_true, if_false, List.nil_append]
    split
    · rename_i heq
      have hhead : (Text.ofNat n).head? = some '-' := by
        have happend : (Text.ofNat n ++ rest).head? = (Text.ofNat n).head? :=
          List.head?_append_of_ne_nil _ (Text.ofNat_ne_nil n)
        rw [← happend, heq]
        rfl
      exact absurd (Text.head?_ofNat_isDigit hhead) (by decide)
    · simp only [hdigits, if_neg hnumeral, readFraction_of_ends h, readExponent_of_ends h,
        Option.bind_eq_bind, Option.bind_some, Option.pure_def]

/-- The numeral of an integer is read as its digits. -/
theorem readNumeral_ofInt (k : Int) {rest : Text} (h : EndsNumeral rest) :
    readNumeral (Text.ofInt k ++ rest) =
      some (⟨decide (k < 0), Text.ofNat k.natAbs, none, none⟩, rest) := by
  cases k with
  | ofNat n =>
    rw [decide_eq_false (by simp)]
    exact readNumeral_unsigned false n h
  | negSucc n =>
    rw [decide_eq_true (Int.negSucc_lt_zero n)]
    exact readNumeral_unsigned true (n + 1) h

/-- The number is whole and fits a word of 64 bits, signed or not. -/
def IsWord (n : JsonNumber) : Prop := ∃ k : Int, n = .whole k ∧ -2 ^ 63 ≤ k ∧ k < 2 ^ 64

/-- A whole number is read back from its numeral. -/
theorem readNumber_ofInt {k : Int} (hlow : -2 ^ 63 ≤ k) (hhigh : k < 2 ^ 64) {rest : Text}
    (h : EndsNumeral rest) : readNumber (Text.ofInt k ++ rest) = some (.whole k, rest) := by
  have hnumber : (⟨decide (k < 0), Text.ofNat k.natAbs, none, none⟩ : Numeral).number? =
      some (.whole k) := by
    unfold Numeral.number?
    simp only [Text.value_ten_ofNat, Option.isNone_none, Bool.true_and]
    by_cases hneg : k < 0
    · have hpos : 0 < k.natAbs := by omega
      have hle : k.natAbs ≤ Nat.pow 2 63 := by
        show k.natAbs ≤ 2 ^ 63
        omega
      have hk : (-(k.natAbs : Int)) = k := by omega
      rw [if_neg (by simp [hneg]), if_pos (by simp [hneg, hpos, hle]), hk]
    · have hlt : k.natAbs < UInt64.size := by
        show k.natAbs < 2 ^ 64
        omega
      have hk : (k.natAbs : Int) = k := by omega
      rw [if_pos (by simp [hneg, hlt]), hk]
  rw [readNumber, readNumeral_ofInt k h]
  simp only [Option.bind_eq_bind, Option.bind_some, hnumber, Option.pure_def]

/-! ## Documents -/

theorem isSpace_of_isDigit {c : Char} (h : c.isDigit = true) : isSpace c = false := by
  rw [← Bool.not_eq_true]
  intro hspace
  simp only [isSpace, Bool.or_eq_true, beq_iff_eq] at hspace
  rcases hspace with ((rfl | rfl) | rfl) | rfl <;> exact absurd h (by decide)

/-- The first character of a compact form opens a value. -/
theorem exists_head_compact {d : Nat} {v : Json} (h : v.Shaped IsWord d) :
    ∃ c cs, v.compact = c :: cs ∧ isSpace c = false ∧ c ≠ ']' := by
  cases h with
  | null => exact ⟨'n', _, rfl, by decide, by decide⟩
  | bool _ b => cases b <;> exact ⟨_, _, rfl, by decide, by decide⟩
  | number _ hn =>
    obtain ⟨k, rfl, -, -⟩ := hn
    obtain ⟨c, cs, hcons, hc⟩ := Text.exists_head_ofInt k
    refine ⟨c, cs, hcons, ?_, ?_⟩
    · rcases hc with rfl | hc
      · decide
      · exact isSpace_of_isDigit hc
    · rintro rfl
      exact absurd hc (by decide)
  | string _ t => exact ⟨'"', _, rfl, by decide, by decide⟩
  | array _ => exact ⟨'[', _, rfl, by decide, by decide⟩
  | object _ _ => exact ⟨'\x7b', _, rfl, by decide, by decide⟩

/-- The reader gives a document back from its compact form, with fuel enough for it: two for every
character that is still to be read, of which a value that is an item or a field uses the second. -/
def ReadsBack (d : Nat) (v : Json) : Prop :=
  ∀ fuel rest, EndsNumeral rest → 2 * (v.compact ++ rest).length + 1 ≤ fuel →
    readValue fuel d (v.compact ++ rest) = some (v, rest)

/-- A value that begins like a number is read as one. -/
theorem readValue_number {c : Char} (hc : c = '-' ∨ c.isDigit = true) (fuel d : Nat) (t : Text) :
    readValue (fuel + 1) d (c :: t) =
      (readNumber (c :: t)).map fun (n, rest) => (.number n, rest) := by
  have hspace : isSpace c = false := by
    rcases hc with rfl | hdigit
    · decide
    · exact isSpace_of_isDigit hdigit
  have hskip : skipSpace (c :: t) = c :: t := by
    rw [skipSpace, List.dropWhile_cons_of_neg (by simp [hspace])]
  rw [readValue, hskip]
  -- No other token begins with a sign or a digit.
  split <;> rename_i heq
  case h_7 => rfl
  all_goals
    obtain ⟨rfl, -⟩ := List.cons.inj heq
    exact absurd hc (by decide)

/-- Items in compact form read back, given that each of them does. -/
theorem readItems_compact {d : Nat} {items : List Json} (hne : items ≠ [])
    (h : ∀ v ∈ items, ReadsBack d v) (fuel : Nat) (rest : Text)
    (hfuel : 2 * (compactItems items ++ ']' :: rest).length + 2 ≤ fuel) :
    readItems fuel d (compactItems items ++ ']' :: rest) = some (items, rest) := by
  induction items generalizing fuel with
  | nil => exact absurd rfl hne
  | cons v vs ih =>
    obtain ⟨fuel, rfl⟩ : ∃ f, fuel = f + 1 := ⟨fuel - 1, by omega⟩
    have hv : ReadsBack d v := h v List.mem_cons_self
    cases vs with
    | nil =>
      have hends : EndsNumeral (']' :: rest) := endsNumeral_cons (by decide)
      rw [compactItems] at hfuel ⊢
      rw [readItems, hv fuel _ hends (by omega)]
      rfl
    | cons w ws =>
      have hends : EndsNumeral (',' :: (compactItems (w :: ws) ++ ']' :: rest)) :=
        endsNumeral_cons (by decide)
      have hcompact : compactItems (v :: w :: ws) ++ ']' :: rest =
          v.compact ++ ',' :: (compactItems (w :: ws) ++ ']' :: rest) := by
        rw [compactItems, List.append_assoc, List.cons_append]
        exact fun heq => absurd heq (List.cons_ne_nil w ws)
      rw [hcompact] at hfuel ⊢
      have hrest := ih (List.cons_ne_nil w ws) (fun x hx => h x (List.mem_cons_of_mem v hx)) fuel
        (by simp only [List.length_append, List.length_cons] at hfuel ⊢; omega)
      rw [readItems, hv fuel _ hends (by omega)]
      show (readItems fuel d _).map _ = _
      rw [hrest]
      rfl

/-- A key and its value are read up to what closes or goes on with the object. -/
theorem readFields_field {d fuel : Nat} {v : Json} {tail : Text}
    (hv : readValue fuel d (v.compact ++ tail) = some (v, tail)) (k : Text) :
    readFields (fuel + 1) d (quoted k ++ ':' :: (v.compact ++ tail)) =
      match skipSpace tail with
      | '\x7d' :: rest => some ([(k, v)], rest)
      | ',' :: rest => (readFields fuel d rest).map (Prod.map ((k, v) :: ·) id)
      | _ => none := by
  rw [quoted_append, readFields]
  have hskip : skipSpace ('"' :: (k.flatMap escape ++ '"' :: ':' :: (v.compact ++ tail))) =
      '"' :: (k.flatMap escape ++ '"' :: ':' :: (v.compact ++ tail)) := rfl
  have hcolon : skipSpace (':' :: (v.compact ++ tail)) = ':' :: (v.compact ++ tail) := rfl
  simp only [hskip, readString_escaped, hcolon, hv]
  rfl

/-- Fields in compact form read back, given that each value does. -/
theorem readFields_compact {d : Nat} {fields : List (Text × Json)} (hne : fields ≠ [])
    (h : ∀ f ∈ fields, ReadsBack d f.2) (fuel : Nat) (rest : Text)
    (hfuel : 2 * (compactFields fields ++ '\x7d' :: rest).length + 2 ≤ fuel) :
    readFields fuel d (compactFields fields ++ '\x7d' :: rest) = some (fields, rest) := by
  induction fields generalizing fuel with
  | nil => exact absurd rfl hne
  | cons f fs ih =>
    obtain ⟨fuel, rfl⟩ : ∃ f, fuel = f + 1 := ⟨fuel - 1, by omega⟩
    obtain ⟨k, v⟩ := f
    have hv : ReadsBack d v := h (k, v) List.mem_cons_self
    cases fs with
    | nil =>
      have hends : EndsNumeral ('\x7d' :: rest) := endsNumeral_cons (by decide)
      have hcompact : compactFields [(k, v)] ++ '\x7d' :: rest =
          quoted k ++ ':' :: (v.compact ++ '\x7d' :: rest) := by
        rw [compactFields, List.append_assoc, List.cons_append]
      rw [hcompact] at hfuel ⊢
      rw [readFields_field (hv fuel _ hends
        (by simp only [List.length_append, List.length_cons] at hfuel ⊢; omega))]
      rfl
    | cons g gs =>
      have hends : EndsNumeral (',' :: (compactFields (g :: gs) ++ '\x7d' :: rest)) :=
        endsNumeral_cons (by decide)
      have hcompact : compactFields ((k, v) :: g :: gs) ++ '\x7d' :: rest =
          quoted k ++ ':' :: (v.compact ++ ',' :: (compactFields (g :: gs) ++ '\x7d' :: rest)) := by
        rw [compactFields]
        · simp only [List.append_assoc, List.cons_append]
        · exact fun heq => absurd heq (List.cons_ne_nil g gs)
      rw [hcompact] at hfuel ⊢
      simp only [List.length_append, List.length_cons] at hfuel
      have hrest := ih (List.cons_ne_nil g gs) (fun x hx => h x (List.mem_cons_of_mem (k, v) hx))
        fuel (by simp only [List.length_append, List.length_cons]; omega)
      rw [readFields_field (hv fuel _ hends
        (by simp only [List.length_append, List.length_cons]; omega))]
      show (readFields fuel d _).map _ = _
      rw [hrest]
      rfl

/-- Items begin with neither white space nor a closing bracket. -/
theorem exists_head_compactItems {d : Nat} {v : Json} (h : v.Shaped IsWord d) (vs : List Json) :
    ∃ c cs, compactItems (v :: vs) = c :: cs ∧ isSpace c = false ∧ c ≠ ']' := by
  obtain ⟨c, cs, hcons, hc⟩ := exists_head_compact h
  cases vs with
  | nil => exact ⟨c, cs, hcons, hc⟩
  | cons w ws =>
    refine ⟨c, cs ++ ',' :: compactItems (w :: ws), ?_, hc⟩
    rw [compactItems, hcons, List.cons_append]
    exact fun heq => absurd heq (List.cons_ne_nil w ws)

theorem exists_head_compactFields (f : Text × Json) (fs : List (Text × Json)) :
    ∃ cs, compactFields (f :: fs) = '"' :: cs := by
  cases fs with
  | nil => exact ⟨_, rfl⟩
  | cons g gs => exact ⟨_, rfl⟩

theorem readValue_array {fuel d : Nat} {c : Char} {cs rest : Text} {items : List Json}
    (hspace : isSpace c = false) (hclose : c ≠ ']')
    (hread : readItems fuel d (c :: cs ++ ']' :: rest) = some (items, rest)) :
    readValue (fuel + 1) (d + 1) ('[' :: (c :: cs ++ ']' :: rest)) = some (.array items, rest) := by
  have hskip : skipSpace (c :: cs ++ ']' :: rest) = c :: cs ++ ']' :: rest :=
    List.dropWhile_cons_of_neg (by simp [hspace])
  have hopen : skipSpace ('[' :: (c :: cs ++ ']' :: rest)) = '[' :: (c :: cs ++ ']' :: rest) := rfl
  rw [readValue, hopen]
  simp only [hskip]
  split
  · rename_i heq
    exact absurd (List.cons.inj heq).1 hclose
  · rw [hread]
    rfl

theorem readValue_object {fuel d : Nat} {cs rest : Text} {fields : List (Text × Json)}
    (hread : readFields fuel d ('"' :: cs ++ '\x7d' :: rest) = some (fields, rest)) :
    readValue (fuel + 1) (d + 1) ('\x7b' :: ('"' :: cs ++ '\x7d' :: rest)) =
      some (.object (Fields.ofList fields), rest) := by
  rw [readValue]
  show (readFields fuel d ('"' :: cs ++ '\x7d' :: rest)).map _ = _
  rw [hread]
  rfl

/-- An array reads back if its items do. -/
theorem readsBack_array {d : Nat} {items : List Json} (hitems : ∀ v ∈ items, v.Shaped IsWord d)
    (h : ∀ v ∈ items, ReadsBack d v) : ReadsBack (d + 1) (.array items) := by
  intro fuel rest _ hfuel
  obtain ⟨fuel, rfl⟩ : ∃ f, fuel = f + 1 := ⟨fuel - 1, by omega⟩
  have hcompact : (Json.array items).compact ++ rest =
      '[' :: (compactItems items ++ ']' :: rest) := by
    rw [compact, List.cons_append, List.append_assoc, List.singleton_append]
  rw [hcompact] at hfuel ⊢
  cases items with
  | nil => rfl
  | cons v vs =>
    obtain ⟨c, cs, hhead, hspace, hclose⟩ :=
      exists_head_compactItems (hitems v List.mem_cons_self) vs
    have hread := readItems_compact (List.cons_ne_nil v vs) h fuel rest
      (by rw [List.length_cons] at hfuel; omega)
    rw [hhead] at hread ⊢
    exact readValue_array hspace hclose hread

/-- An object reads back if its values do and its keys are unique. -/
theorem readsBack_object {d : Nat} {fields : List (Text × Json)}
    (hkeys : (Fields.keys fields).Nodup) (h : ∀ f ∈ fields, ReadsBack d f.2) :
    ReadsBack (d + 1) (.object fields) := by
  intro fuel rest _ hfuel
  obtain ⟨fuel, rfl⟩ : ∃ f, fuel = f + 1 := ⟨fuel - 1, by omega⟩
  have hcompact : (Json.object fields).compact ++ rest =
      '\x7b' :: (compactFields fields ++ '\x7d' :: rest) := by
    rw [compact, List.cons_append, List.append_assoc, List.singleton_append]
  rw [hcompact] at hfuel ⊢
  cases fields with
  | nil => rfl
  | cons f fs =>
    obtain ⟨cs, hhead⟩ := exists_head_compactFields f fs
    have hread := readFields_compact (List.cons_ne_nil f fs) h fuel rest
      (by rw [List.length_cons] at hfuel; omega)
    rw [hhead] at hread ⊢
    -- The reader puts the fields together one by one, which distinct keys leave as they are.
    rw [← Fields.ofList_of_nodup hkeys]
    exact readValue_object hread

/-- Every document of whole numbers reads back. The induction follows its shape, whose depth is the
one that the reader counts down. -/
theorem readsBack_of_shaped {d : Nat} {v : Json} (h : v.Shaped IsWord d) : ReadsBack d v := by
  induction h with
  | null d =>
    intro fuel rest _ hfuel
    obtain ⟨fuel, rfl⟩ : ∃ f, fuel = f + 1 := ⟨fuel - 1, by omega⟩
    rw [compact, readValue]
    rfl
  | bool d b =>
    intro fuel rest _ hfuel
    obtain ⟨fuel, rfl⟩ : ∃ f, fuel = f + 1 := ⟨fuel - 1, by omega⟩
    rw [compact, readValue]
    cases b <;> rfl
  | number d hn =>
    intro fuel rest hends hfuel
    obtain ⟨fuel, rfl⟩ : ∃ f, fuel = f + 1 := ⟨fuel - 1, by omega⟩
    obtain ⟨k, rfl, hlow, hhigh⟩ := hn
    obtain ⟨c, cs, hcons, hc⟩ := Text.exists_head_ofInt k
    have hread := readNumber_ofInt hlow hhigh hends
    show readValue (fuel + 1) d (Text.ofInt k ++ rest) = _
    rw [hcons] at hread ⊢
    rw [List.cons_append, readValue_number hc, ← List.cons_append, hread]
    rfl
  | string d t =>
    intro fuel rest _ hfuel
    obtain ⟨fuel, rfl⟩ : ∃ f, fuel = f + 1 := ⟨fuel - 1, by omega⟩
    rw [compact, quoted_append, readValue]
    show (readString _).map _ = _
    rw [readString_escaped]
    rfl
  | array hitems ih => exact readsBack_array hitems ih
  | object hkeys _ ih => exact readsBack_object hkeys ih

/-- The document that its compact form is read as is the document itself. -/
theorem parse?_compact {v : Json} (h : v.Shaped IsWord maxDepth) : parse? v.compact = some v := by
  have hread := readsBack_of_shaped h (2 * v.compact.length + 2) [] endsNumeral_nil
  rw [List.append_nil] at hread
  rw [parse?, hread (by omega)]
  rfl

/-- The bytes of the compact form are read as the document too. -/
theorem parseBytes?_compact {v : Json} (h : v.Shaped IsWord maxDepth) :
    parseBytes? (Utf8.encode v.compact) = some v := by
  rw [parseBytes?, Utf8.decode?_encode, Option.bind_some, parse?_compact h]

end HealthCheck.Json
