import HealthCheck.Proofs.Json.RoundTrip

/-!
# What the readers of tokens take

What a string or a number is read from is a piece of the text by itself. The rest behind it has no
say in what is read, as long as it does not go on with a numeral: `spells_of_readStringFrom` and
`exists_of_readNumber`.
-/

namespace HealthCheck.Json

/-! ## Strings -/

/-- After a surrogate that may be waiting, the text has the string in it that is read up to a quote
behind it. -/
def Spells (high : Option Nat) (w s : Text) : Prop :=
  ∀ rest, readStringFrom high (w ++ '"' :: rest) = some (s, rest)

theorem exists_of_consString {c : Char} {r : Option (Text × Text)} {s rest : Text}
    (h : consString c r = some (s, rest)) : ∃ s', s = c :: s' ∧ r = some (s', rest) := by
  obtain ⟨⟨s', rest'⟩, hr, heq⟩ := Option.map_eq_some_iff.1 h
  obtain ⟨rfl, rfl⟩ := Prod.mk.inj heq
  exact ⟨s', rfl, hr⟩

/-- A character in front. -/
theorem Spells.cons {high : Option Nat} {w s front : Text} {c : Char} (h : Spells none w s)
    (hfront : ∀ t, readStringFrom high (front ++ t) = consString c (readStringFrom none t)) :
    Spells high (front ++ w) (c :: s) := by
  intro rest
  rw [List.append_assoc, hfront, h]
  rfl

/-- An escape of one character stands for the character that it names. -/
theorem readStringFrom_unescape {c x : Char} (h : unescape? c = some x) (t : Text) :
    readStringFrom none ('\\' :: c :: t) = consString x (readStringFrom none t) := by
  have hc : c ≠ 'u' := by
    rintro rfl
    cases h
  rw [readStringFrom]
  · rw [h]
  · intro _ _ _ _ _ heq
    exact absurd heq hc

/-- A string that is read is spelled by what stands in front of its closing quote. -/
theorem spells_of_readStringFrom {high : Option Nat} {t s rest : Text}
    (h : readStringFrom high t = some (s, rest)) : ∃ w, t = w ++ '"' :: rest ∧ Spells high w s := by
  fun_induction readStringFrom high t generalizing s
  case case3 a b c d more high n hn hlow ih =>
    obtain ⟨s, rfl, hs⟩ := exists_of_consString h
    obtain ⟨w, rfl, hw⟩ := ih hs
    refine ⟨['\\', 'u', a, b, c, d] ++ w, rfl, hw.cons fun t => ?_⟩
    show readStringFrom (some high) ('\\' :: 'u' :: a :: b :: c :: d :: t) = _
    rw [readStringFrom.eq_def]
    simp only [hn, if_pos hlow]
  case case5 a b c d more n hn hhigh ih =>
    obtain ⟨w, rfl, hw⟩ := ih h
    refine ⟨['\\', 'u', a, b, c, d] ++ w, rfl, fun rest => ?_⟩
    show readStringFrom none ('\\' :: 'u' :: a :: b :: c :: d :: (w ++ '"' :: rest)) = _
    rw [readStringFrom.eq_def]
    simp only [hn, if_pos hhigh]
    exact hw rest
  case case7 a b c d more n hn hhigh hlow ih =>
    obtain ⟨s, rfl, hs⟩ := exists_of_consString h
    obtain ⟨w, rfl, hw⟩ := ih hs
    refine ⟨['\\', 'u', a, b, c, d] ++ w, rfl, hw.cons fun t => ?_⟩
    show readStringFrom none ('\\' :: 'u' :: a :: b :: c :: d :: t) = _
    rw [readStringFrom.eq_def]
    simp only [hn, if_neg hhigh, if_neg hlow]
  case case9 =>
    cases h
    exact ⟨[], rfl, fun rest => by rw [List.nil_append, readStringFrom]⟩
  case case10 c more _ x hx ih =>
    obtain ⟨s, rfl, hs⟩ := exists_of_consString h
    obtain ⟨w, rfl, hw⟩ := ih hs
    exact ⟨['\\', c] ++ w, rfl, hw.cons (readStringFrom_unescape hx)⟩
  case case13 c more _ hquote hbackslash hcontrol ih =>
    obtain ⟨s, rfl, hs⟩ := exists_of_consString h
    obtain ⟨w, rfl, hw⟩ := ih hs
    -- A backslash would have something behind it to escape.
    have hc : c ≠ '\\' := by
      obtain ⟨d, ds, hcons⟩ : ∃ d ds, w ++ '"' :: rest = d :: ds :=
        List.exists_cons_of_ne_nil (by simp)
      exact fun heq => hbackslash d ds heq hcons
    exact ⟨[c] ++ w, rfl, hw.cons (readStringFrom_plain hquote hc hcontrol)⟩
  all_goals cases h

/-! ## Numerals -/

/-- The text is what `x` is read from, whatever follows that ends it. There are no blanks in it. -/
structure IsToken {α : Type} (read : Text → Option (α × Text)) (ends : Text → Prop) (w : Text)
    (x : α) : Prop where
  noBlanks : ∀ c ∈ w, Text.isBlank c = false
  reads : ∀ {rest}, ends rest → read (w ++ rest) = some (x, rest)

/-- What follows does not go on with digits. -/
def EndsDigits (rest : Text) : Prop := ∀ c ∈ rest.head?, c.isDigit = false

/-- What follows goes on neither with digits nor with a fraction. -/
def EndsWhole (rest : Text) : Prop := ∀ c ∈ rest.head?, c.isDigit = false ∧ c ≠ '.'

theorem EndsWhole.endsDigits {rest : Text} (h : EndsWhole rest) : EndsDigits rest :=
  fun c hc => (h c hc).1

theorem EndsNumeral.endsWhole {rest : Text} (h : EndsNumeral rest) : EndsWhole rest :=
  fun c hc => ⟨(h c hc).1, (h c hc).2.1⟩

theorem all_takeWhile_digits (t : Text) : (t.takeWhile Char.isDigit).all Char.isDigit = true :=
  List.all_eq_true.2 fun _ hc => List.mem_takeWhile_imp hc

theorem isBlank_of_mem_digits {t : Text} {c : Char} (hc : c ∈ t.takeWhile Char.isDigit) :
    Text.isBlank c = false :=
  Text.isBlank_of_isDigit (List.mem_takeWhile_imp hc)

/-- What is read as a fraction is a token of its own: whatever may follow it, it is read alike. -/
theorem exists_of_readFraction {t rest : Text} {fraction : Option Text}
    (h : readFraction t = some (fraction, rest)) :
    ∃ w, t = w ++ rest ∧ IsToken readFraction EndsWhole w fraction ∧
      ∀ {more}, EndsWhole more → EndsDigits (w ++ more) := by
  unfold readFraction at h
  split at h
  · rename_i behind
    obtain ⟨hdigits, heq⟩ := Option.ite_none_left_eq_some.1 h
    cases heq
    refine ⟨'.' :: behind.takeWhile Char.isDigit, ?_, ⟨?_, fun {more} hmore => ?_⟩, ?_⟩
    · rw [List.cons_append, List.takeWhile_append_dropWhile]
    · exact List.forall_mem_cons.2 ⟨by decide, fun c hc => isBlank_of_mem_digits hc⟩
    · have hspan := Text.span_digits (all_takeWhile_digits behind) hmore.endsDigits
      rw [List.cons_append, readFraction]
      simp only [hspan, if_neg hdigits]
    · rintro more - c hc
      cases hc
      rfl
  · cases h
    refine ⟨[], rfl, ⟨fun c hc => absurd hc List.not_mem_nil, fun {more} hmore => ?_⟩,
      EndsWhole.endsDigits⟩
    rw [List.nil_append, readFraction]
    rintro behind rfl
    exact (hmore '.' rfl).2 rfl

theorem isBlank_of_isSign {sign : Text} {negative : Bool} (h : Text.IsSign sign negative) :
    ∀ c ∈ sign, Text.isBlank c = false := by
  cases h with
  | none => exact fun c hc => absurd hc List.not_mem_nil
  | plus => exact fun c hc => List.mem_singleton.1 hc ▸ rfl
  | minus => exact fun c hc => List.mem_singleton.1 hc ▸ rfl

/-- What is read as an exponent is a token of its own. -/
theorem exists_of_readExponent {t rest : Text} {exponent : Option Int}
    (h : readExponent t = some (exponent, rest)) :
    ∃ w, t = w ++ rest ∧ IsToken readExponent EndsNumeral w exponent ∧
      ∀ {more}, EndsNumeral more → EndsWhole (w ++ more) := by
  have hnone : IsToken readExponent EndsNumeral [] none :=
    ⟨fun c hc => absurd hc List.not_mem_nil, readExponent_of_ends⟩
  unfold readExponent at h
  split at h
  · cases h
    exact ⟨[], rfl, hnone, EndsNumeral.endsWhole⟩
  · rename_i letter behind
    by_cases hletter : letter = 'e' ∨ letter = 'E'
    · rw [if_pos hletter] at h
      dsimp only at h
      obtain ⟨hdigits, heq⟩ := Option.ite_none_left_eq_some.1 h
      cases heq
      obtain ⟨sign, hbehind, hsign⟩ := Text.exists_isSign behind
      set unsigned := (Text.signed behind).2
      obtain ⟨d, ds, hcons⟩ := List.exists_cons_of_ne_nil hdigits
      have hd : d.isDigit = true :=
        List.mem_takeWhile_imp (l := unsigned) (by rw [hcons]; exact List.mem_cons_self)
      refine ⟨letter :: (sign ++ unsigned.takeWhile Char.isDigit), ?_, ⟨?_, fun {more} hmore => ?_⟩,
        ?_⟩
      · rw [List.cons_append, List.append_assoc, List.takeWhile_append_dropWhile, ← hbehind]
      · refine List.forall_mem_cons.2 ⟨?_, List.forall_mem_append.2
          ⟨isBlank_of_isSign hsign, fun c hc => isBlank_of_mem_digits hc⟩⟩
        rcases hletter with rfl | rfl <;> decide
      · have hsigned : Text.signed (sign ++ (unsigned.takeWhile Char.isDigit ++ more)) =
            ((Text.signed behind).1, unsigned.takeWhile Char.isDigit ++ more) := by
          rw [hcons, List.cons_append]
          exact Text.signed_append_of_isDigit hsign hd (ds ++ more)
        have hspan :=
          Text.span_digits (all_takeWhile_digits unsigned) hmore.endsWhole.endsDigits
        rw [List.cons_append, List.append_assoc, readExponent, if_pos hletter]
        simp only [hsigned, hspan, if_neg hdigits]
      · rintro more - c hc
        cases hc
        rcases hletter with rfl | rfl <;> decide
    · rw [if_neg hletter] at h
      cases h
      exact ⟨[], rfl, hnone, EndsNumeral.endsWhole⟩

/-- Reads a numeral behind its sign. -/
def readUnsigned (negative : Bool) (t : Text) : Option (Numeral × Text) :=
  let whole := t.takeWhile Char.isDigit
  if whole = [] ∨ (whole.head? = some '0' ∧ whole.length ≠ 1) then none
  else do
    let (fraction, rest) ← readFraction (t.dropWhile Char.isDigit)
    let (exponent, rest) ← readExponent rest
    return (⟨negative, whole, fraction, exponent⟩, rest)

theorem readNumeral_minus (t : Text) : readNumeral ('-' :: t) = readUnsigned true t := rfl

/-- Without a minus sign a numeral is read as it stands. -/
theorem readNumeral_of_ne {t : Text} (h : ∀ rest, t ≠ '-' :: rest) :
    readNumeral t = readUnsigned false t := by
  unfold readNumeral
  split
  rename_i heq
  split at heq
  · exact absurd rfl (h _)
  · cases heq
    rfl

/-- What is read as a numeral without a sign is a token that begins with a digit. -/
theorem exists_of_readUnsigned {negative : Bool} {t rest : Text} {n : Numeral}
    (h : readUnsigned negative t = some (n, rest)) :
    ∃ d ds, t = d :: ds ++ rest ∧ d.isDigit = true ∧
      IsToken (readUnsigned negative) EndsNumeral (d :: ds) n := by
  obtain ⟨hwhole, h⟩ := Option.ite_none_left_eq_some.1 h
  obtain ⟨⟨fraction, behind⟩, hfraction, h⟩ := Option.bind_eq_some_iff.1 h
  obtain ⟨⟨exponent, _⟩, hexponent, heq⟩ := Option.bind_eq_some_iff.1 h
  cases heq
  obtain ⟨second, hsecond, hfractionToken, hsecondEnds⟩ := exists_of_readFraction hfraction
  obtain ⟨third, hthird, hexponentToken, hthirdEnds⟩ := exists_of_readExponent hexponent
  obtain ⟨d, ds, hcons⟩ := List.exists_cons_of_ne_nil fun hnil => hwhole (Or.inl hnil)
  have hparts : d :: (ds ++ (second ++ third)) = t.takeWhile Char.isDigit ++ (second ++ third) := by
    rw [hcons, List.cons_append]
  refine ⟨d, ds ++ (second ++ third), ?_, ?_, ?_⟩
  · rw [hparts, List.append_assoc, List.append_assoc, ← hthird, ← hsecond,
      List.takeWhile_append_dropWhile]
  · exact List.mem_takeWhile_imp (l := t) (by rw [hcons]; exact List.mem_cons_self)
  · rw [hparts]
    refine ⟨List.forall_mem_append.2 ⟨fun c hc => isBlank_of_mem_digits hc,
      List.forall_mem_append.2 ⟨hfractionToken.noBlanks, hexponentToken.noBlanks⟩⟩,
      fun {more} hmore => ?_⟩
    have hends : EndsWhole (third ++ more) := hthirdEnds hmore
    have hspan := Text.span_digits (all_takeWhile_digits t) (hsecondEnds hends)
    rw [List.append_assoc, List.append_assoc]
    unfold readUnsigned
    simp only [hspan, if_neg hwhole, hfractionToken.reads hends, Option.bind_eq_bind,
      Option.bind_some, hexponentToken.reads hmore, Option.pure_def]

/-- What is read as a numeral is a token that begins with a digit or a minus sign. -/
theorem exists_of_readNumeral {t rest : Text} {n : Numeral} (h : readNumeral t = some (n, rest)) :
    ∃ c cs, t = c :: cs ++ rest ∧ (c = '-' ∨ c.isDigit = true) ∧
      IsToken readNumeral EndsNumeral (c :: cs) n := by
  by_cases hminus : ∃ unsigned, t = '-' :: unsigned
  · obtain ⟨unsigned, rfl⟩ := hminus
    rw [readNumeral_minus] at h
    obtain ⟨d, ds, rfl, -, htoken⟩ := exists_of_readUnsigned h
    exact ⟨'-', d :: ds, rfl, Or.inl rfl,
      List.forall_mem_cons.2 ⟨by decide, htoken.noBlanks⟩, fun hmore => htoken.reads hmore⟩
  · rw [readNumeral_of_ne fun unsigned heq => hminus ⟨unsigned, heq⟩] at h
    obtain ⟨d, ds, rfl, hd, htoken⟩ := exists_of_readUnsigned h
    refine ⟨d, ds, rfl, Or.inr hd, htoken.noBlanks, fun hmore => ?_⟩
    rw [readNumeral_of_ne, htoken.reads hmore]
    rintro unsigned heq
    cases heq
    exact absurd hd (by decide)

/-- What is read as a number is a token that begins with a digit or a minus sign. -/
theorem exists_of_readNumber {t rest : Text} {n : JsonNumber} (h : readNumber t = some (n, rest)) :
    ∃ c cs, t = c :: cs ++ rest ∧ (c = '-' ∨ c.isDigit = true) ∧
      IsToken readNumber EndsNumeral (c :: cs) n := by
  unfold readNumber at h
  simp only [Option.bind_eq_bind, Option.pure_def] at h
  obtain ⟨⟨numeral, _⟩, hnumeral, h⟩ := Option.bind_eq_some_iff.1 h
  obtain ⟨m, hm, heq⟩ := Option.bind_eq_some_iff.1 h
  obtain ⟨rfl, rfl⟩ := Prod.mk.inj (Option.some.inj heq)
  obtain ⟨c, cs, ht, hc, htoken⟩ := exists_of_readNumeral hnumeral
  refine ⟨c, cs, ht, hc, htoken.noBlanks, fun hmore => ?_⟩
  unfold readNumber
  simp only [Option.bind_eq_bind, htoken.reads hmore, Option.bind_some, hm, Option.pure_def]

end HealthCheck.Json
