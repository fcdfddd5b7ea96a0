import HealthCheck.Equality
import HealthCheck.Proofs.Number.IntegerLiterals
import HealthCheck.Proofs.Text.Cutting

/-!
# Laws of equality of operands

Every text is equal to itself, calls included, and texts that are no calls are compared by value. An
equation of which exactly one side is a call is governed by it (`Call.Governs`): it holds when the
call holds of the other side.
-/

namespace HealthCheck

namespace Call

theorem argument?_eq_some_iff {call : Call} {t argument : Text} :
    call.argument? t = some argument ↔ t = call.opening ++ argument ++ ")".toList :=
  Text.between?_eq_some_iff

/-- What begins with neither a `p` nor an `a` is no call. -/
theorem argument?_eq_none_of_head {c : Char} (hp : c ≠ 'p') (ha : c ≠ 'a') (call : Call)
    (t : Text) : call.argument? (c :: t) = none := by
  cases h : call.argument? (c :: t) with
  | none => rfl
  | some argument =>
    have heq := argument?_eq_some_iff.1 h
    cases call with
    | pattern => exact absurd (List.cons.inj heq).1 hp
    | options => exact absurd (List.cons.inj heq).1 ha

/-- What begins as a numeral is no call. -/
theorem argument?_eq_none_of_numeral {c : Char} (hc : c = '-' ∨ c.isDigit = true) (call : Call)
    (t : Text) : call.argument? (c :: t) = none := by
  refine argument?_eq_none_of_head ?_ ?_ call t
  · rintro rfl; exact absurd hc (by decide)
  · rintro rfl; exact absurd hc (by decide)

/-- No numeral is a call. -/
theorem argument?_ofInt (call : Call) (n : Int) : call.argument? (Text.ofInt n) = none := by
  obtain ⟨c, cs, hcons, hc⟩ := Text.exists_head_ofInt n
  rw [hcons]
  exact argument?_eq_none_of_numeral hc call cs

theorem argument?_ofNat (call : Call) (n : Nat) : call.argument? (Text.ofNat n) = none :=
  argument?_ofInt call n

theorem argument?_ofBool (call : Call) (b : Bool) : call.argument? (Text.ofBool b) = none := by
  cases call <;> cases b <;> rfl

/-- A call decides nothing about two calls of its kind, nor about two other texts. -/
theorem decide?_self (call : Call) (t : Text) : call.decide? t t = none := by
  unfold decide?
  cases call.argument? t <;> rfl

/-- A call decides nothing between texts that are not written as one. -/
theorem decide?_eq_none {call : Call} {s t : Text} (hs : call.argument? s = none)
    (ht : call.argument? t = none) : call.decide? s t = none := by
  rw [decide?, hs, ht]

/-- A call with an argument governs an equation of two texts: it is one of them, and the other one,
of which it is to hold, is no call of its kind. -/
def Governs (call : Call) (argument other s t : Text) : Prop :=
  call.argument? other = none ∧
    (call.argument? s = some argument ∧ t = other ∨ call.argument? t = some argument ∧ s = other)

/-- A call that governs decides by its argument and the other text. -/
theorem decide?_of_governs {call : Call} {argument other s t : Text}
    (h : call.Governs argument other s t) :
    call.decide? s t = some (call.holds argument other) := by
  obtain ⟨hother, ⟨hcall, rfl⟩ | ⟨hcall, rfl⟩⟩ := h
  · rw [decide?, hcall, hother]
  · rw [decide?, hother, hcall]

theorem decide?_eq_none_of_not_governs {call : Call} {s t : Text}
    (h : ∀ argument other, ¬ call.Governs argument other s t) : call.decide? s t = none := by
  unfold decide?
  cases hs : call.argument? s with
  | none =>
    cases ht : call.argument? t with
    | none => rfl
    | some argument => exact absurd ⟨hs, Or.inr ⟨ht, rfl⟩⟩ (h argument s)
  | some argument =>
    cases ht : call.argument? t with
    | none => exact absurd ⟨ht, Or.inl ⟨hs, rfl⟩⟩ (h argument t)
    | some argument' => rfl

end Call

theorem sameValue_self (t : Text) : sameValue t t = true := by
  unfold sameValue
  cases Integer.read? t with
  | none => exact beq_self_eq_true t
  | some n => exact beq_self_eq_true n

theorem isEqual_self (t : Text) : isEqual t t = true := by
  rw [isEqual, Call.decide?_self, Call.decide?_self]
  exact sameValue_self t

/-- An equation that a pattern governs holds when the other side matches it. -/
theorem isEqual_of_pattern {argument other s t : Text}
    (h : Call.pattern.Governs argument other s t) :
    isEqual s t = Wildcard.accepts argument other := by
  rw [isEqual, Call.decide?_of_governs h]
  rfl

/-- An equation that options govern, and no pattern, holds when the other side is one of them. -/
theorem isEqual_of_options {argument other s t : Text}
    (hpattern : ∀ argument other, ¬ Call.pattern.Governs argument other s t)
    (h : Call.options.Governs argument other s t) :
    isEqual s t = (Text.segments ',' argument).any fun o => Text.trim o == other := by
  rw [isEqual, Call.decide?_eq_none_of_not_governs hpattern, Call.decide?_of_governs h]
  rfl

/-- An equation that no call governs is one of values. -/
theorem isEqual_of_not_governs {s t : Text}
    (h : ∀ (call : Call) (argument other : Text), ¬ call.Governs argument other s t) :
    isEqual s t = sameValue s t := by
  rw [isEqual, Call.decide?_eq_none_of_not_governs (h _),
    Call.decide?_eq_none_of_not_governs (h _)]

/-- Without calls, equality is equality of values. -/
theorem isEqual_eq_sameValue {s t : Text} (hs : ∀ call : Call, call.argument? s = none)
    (ht : ∀ call : Call, call.argument? t = none) : isEqual s t = sameValue s t := by
  rw [isEqual, Call.decide?_eq_none (hs _) (ht _), Call.decide?_eq_none (hs _) (ht _)]

theorem sameValue_of_read? {s t : Text} {m n : Int} (hs : Integer.read? s = some m)
    (ht : Integer.read? t = some n) : sameValue s t = true ↔ m = n := by
  rw [sameValue, hs, ht]
  exact beq_iff_eq

/-- Two texts stand for one value if they are equal or numerals of one number. -/
theorem sameValue_iff {s t : Text} :
    sameValue s t = true ↔
      s = t ∨ ∃ n, Integer.read? s = some n ∧ Integer.read? t = some n := by
  unfold sameValue
  split
  · rename_i m n hm hn
    rw [beq_iff_eq, hm, hn]
    constructor
    · rintro rfl
      exact Or.inr ⟨m, rfl, rfl⟩
    · rintro (rfl | ⟨k, hk, hk'⟩)
      · exact Option.some.inj (hm.symm.trans hn)
      · exact Option.some.inj (hk.trans hk'.symm)
  · rename_i hread
    rw [beq_iff_eq]
    constructor
    · exact Or.inl
    · rintro (rfl | ⟨n, hs, ht⟩)
      · rfl
      · exact (hread n n hs ht).elim

/-- Where the two are not integers of one value, only a text itself has its value. -/
theorem sameValue_iff_eq {s t : Text}
    (h : ∀ m, Integer.read? s = some m → Integer.read? t ≠ some m) :
    sameValue s t = true ↔ s = t := by
  constructor
  · intro heq
    unfold sameValue at heq
    split at heq
    · rename_i m n hm hn
      exact absurd (beq_iff_eq.1 heq ▸ hn) (h m hm)
    · exact beq_iff_eq.1 heq
  · rintro rfl
    exact sameValue_self s

/-! ## Exchanging the sides -/

/-- A call decides the same whichever side it is on. -/
theorem Call.decide?_comm (call : Call) (s t : Text) : call.decide? s t = call.decide? t s := by
  unfold decide?
  cases call.argument? s <;> cases call.argument? t <;> rfl

theorem sameValue_comm (s t : Text) : sameValue s t = sameValue t s := by
  rw [Bool.eq_iff_iff, sameValue_iff, sameValue_iff]
  constructor
  · rintro (rfl | ⟨n, hs, ht⟩)
    · exact Or.inl rfl
    · exact Or.inr ⟨n, ht, hs⟩
  · rintro (rfl | ⟨n, ht, hs⟩)
    · exact Or.inl rfl
    · exact Or.inr ⟨n, hs, ht⟩

/-- Equality does not depend on the side on which an operand stands. -/
theorem isEqual_comm (s t : Text) : isEqual s t = isEqual t s := by
  rw [isEqual, isEqual, Call.pattern.decide?_comm, Call.options.decide?_comm, sameValue_comm]

/-! ## Equality as a relation -/

namespace Call

/-- The call with an argument, as it is written. -/
def write (call : Call) (argument : Text) : Text := call.opening ++ argument ++ ")".toList

/-- The text is a call of this kind. -/
def IsWritten (call : Call) (t : Text) : Prop := ∃ argument, t = call.write argument

theorem argument?_write (call : Call) (argument : Text) :
    call.argument? (call.write argument) = some argument :=
  argument?_eq_some_iff.2 rfl

theorem argument?_eq_none_iff {call : Call} {t : Text} :
    call.argument? t = none ↔ ¬ call.IsWritten t := by
  rw [Option.eq_none_iff_forall_ne_some, IsWritten, not_exists]
  exact forall_congr' fun argument => not_congr argument?_eq_some_iff

/-- A call of one kind is none of the other. -/
theorem argument?_write_of_ne {call call' : Call} (h : call ≠ call') (argument : Text) :
    call'.argument? (call.write argument) = none := by
  rw [Option.eq_none_iff_forall_ne_some]
  intro inner hinner
  have heq := argument?_eq_some_iff.1 hinner
  cases call <;> cases call'
  · exact h rfl
  · cases (List.cons.inj heq).1
  · cases (List.cons.inj heq).1
  · exact h rfl

/-- A call is no integer literal. -/
theorem read?_write (call : Call) (argument : Text) :
    Integer.read? (call.write argument) = none := by
  rw [Option.eq_none_iff_forall_ne_some]
  intro n hn
  obtain ⟨negative, base, digits, hliteral, -⟩ := Integer.read?_eq_some_iff.1 hn
  obtain ⟨c, rest, heq, hc⟩ := hliteral.head
  have hhead : c = 'p' ∨ c = 'a' := by
    cases call with
    | pattern => exact Or.inl (List.cons.inj heq).1.symm
    | options => exact Or.inr (List.cons.inj heq).1.symm
  rcases hhead with rfl | rfl <;> exact absurd hc (by decide)

theorem write_injective (call : Call) : Function.Injective call.write := by
  intro a b h
  have hargument := call.argument?_write a
  rw [h, call.argument?_write b] at hargument
  exact (Option.some.inj hargument).symm

end Call

/-- The text is a call. -/
def IsCall (t : Text) : Prop := ∃ call : Call, call.IsWritten t

theorem argument?_of_not_isCall {t : Text} (h : ¬ IsCall t) (call : Call) :
    call.argument? t = none :=
  Call.argument?_eq_none_iff.2 fun hcall => h ⟨call, hcall⟩

/-- A text that begins with neither a `p` nor an `a` is no call. -/
theorem not_isCall_of_head {c : Char} (hp : c ≠ 'p') (ha : c ≠ 'a') (t : Text) :
    ¬ IsCall (c :: t) := by
  rintro ⟨call, hcall⟩
  exact Call.argument?_eq_none_iff.1 (Call.argument?_eq_none_of_head hp ha call t) hcall

/-- Standing for one value is transitive. -/
theorem sameValue_trans {s t u : Text} (hst : sameValue s t = true) (htu : sameValue t u = true) :
    sameValue s u = true := by
  rcases sameValue_iff.1 hst with rfl | ⟨m, hs, ht⟩
  · exact htu
  · rcases sameValue_iff.1 htu with rfl | ⟨n, ht', hu⟩
    · exact hst
    · rw [ht] at ht'
      exact sameValue_iff.2 (Or.inr ⟨m, hs, by rw [hu, ht']⟩)

/-- A pattern governs an equation with any text that is none. -/
theorem isEqual_write_pattern {argument other : Text} (h : ¬ Call.pattern.IsWritten other) :
    isEqual (Call.pattern.write argument) other = Wildcard.accepts argument other :=
  isEqual_of_pattern ⟨Call.argument?_eq_none_iff.2 h,
    Or.inl ⟨Call.pattern.argument?_write argument, rfl⟩⟩

/-- Options govern an equation with any text that is no call. -/
theorem isEqual_write_options {argument other : Text} (h : ¬ IsCall other) :
    isEqual (Call.options.write argument) other = true ↔
      other ∈ (Text.segments ',' argument).map Text.trim := by
  have hpattern : ∀ inner other', ¬ Call.pattern.Governs inner other'
      (Call.options.write argument) other := by
    rintro inner other' ⟨-, ⟨hcall, -⟩ | ⟨hcall, -⟩⟩
    · rw [Call.argument?_write_of_ne (by decide)] at hcall
      cases hcall
    · rw [argument?_of_not_isCall h] at hcall
      cases hcall
  rw [isEqual_of_options hpattern ⟨argument?_of_not_isCall h _,
    Or.inl ⟨Call.options.argument?_write argument, rfl⟩⟩, List.any_eq_true, List.mem_map]
  exact exists_congr fun o => and_congr_right fun _ => beq_iff_eq

/-- Two calls of one kind are compared as texts. -/
theorem isEqual_write_write (call : Call) (a b : Text) :
    isEqual (call.write a) (call.write b) = true ↔ a = b := by
  have hnone : ∀ call' : Call, call'.decide? (call.write a) (call.write b) = none := by
    intro call'
    by_cases h : call = call'
    · rw [← h, Call.decide?, call.argument?_write, call.argument?_write]
    · exact Call.decide?_eq_none (Call.argument?_write_of_ne h a) (Call.argument?_write_of_ne h b)
  rw [isEqual, hnone, hnone]
  show sameValue _ _ = true ↔ a = b
  rw [sameValue_iff_eq fun m hm => by rw [call.read?_write] at hm; cases hm]
  exact call.write_injective.eq_iff

/-- **Equality is an equality.** It is reflexive and symmetric on all texts. On those that are no
calls it is an equivalence, and two different ones are equal exactly where both are integer literals
of one value. A pattern is equal to the texts that match it, among them calls with options; options
are equal to what is one of them, trimmed; and it makes no difference on which side the call stands.
Two calls of one kind are equal only where they have the same argument. -/
theorem isEqual_is_equality :
    (∀ t : Text, isEqual t t = true) ∧
    (∀ s t : Text, isEqual s t = isEqual t s) ∧
    (Equivalence fun s t : {t : Text // ¬ IsCall t} => isEqual s.1 t.1 = true) ∧
    (∀ s t : Text, ¬ IsCall s → ¬ IsCall t → s ≠ t →
      (isEqual s t = true ↔ ∃ n, Integer.Denotes s n ∧ Integer.Denotes t n)) ∧
    (∀ argument other : Text, ¬ Call.pattern.IsWritten other →
      isEqual (Call.pattern.write argument) other = Wildcard.accepts argument other ∧
        isEqual other (Call.pattern.write argument) = Wildcard.accepts argument other) ∧
    (∀ argument other : Text, ¬ IsCall other →
      (isEqual (Call.options.write argument) other = true ↔
        other ∈ (Text.segments ',' argument).map Text.trim) ∧
      (isEqual other (Call.options.write argument) = true ↔
        other ∈ (Text.segments ',' argument).map Text.trim)) ∧
    (∀ (call : Call) (a b : Text),
      isEqual (call.write a) (call.write b) = true ↔ a = b) := by
  have hvalue : ∀ {s t : Text}, ¬ IsCall s → ¬ IsCall t → isEqual s t = sameValue s t :=
    fun hs ht => isEqual_eq_sameValue (argument?_of_not_isCall hs) (argument?_of_not_isCall ht)
  refine ⟨isEqual_self, isEqual_comm, ⟨fun t => isEqual_self t.1, ?_, ?_⟩, fun s t hs ht hne => ?_,
    fun argument other h => ⟨isEqual_write_pattern h, ?_⟩,
    fun argument other h => ⟨isEqual_write_options h, ?_⟩, isEqual_write_write⟩
  · intro s t hst
    rwa [isEqual_comm]
  · intro s t u hst htu
    rw [hvalue s.2 t.2] at hst
    rw [hvalue t.2 u.2] at htu
    rw [hvalue s.2 u.2]
    exact sameValue_trans hst htu
  · rw [hvalue hs ht, sameValue_iff]
    simp only [Integer.read?_eq_some_iff, hne, false_or]
  · rw [isEqual_comm]
    exact isEqual_write_pattern h
  · rw [isEqual_comm]
    exact isEqual_write_options h

/-- A literal in base sixteen equals a decimal one, a pattern takes a call with options for a text,
and options are trimmed. -/
theorem literals_and_calls_are_equal :
    (¬ IsCall "0xC8".toList ∧ ¬ IsCall "200".toList ∧
      isEqual "0xC8".toList "200".toList = true) ∧
    (¬ Call.pattern.IsWritten "any(b)".toList ∧
      isEqual "any(b)".toList "pat(a*)".toList = true) ∧
    isEqual "any(200, 204)".toList "204".toList = true := by
  have hhex : ¬ IsCall "0xC8".toList := not_isCall_of_head (by decide) (by decide) _
  have hdecimal : ¬ IsCall "200".toList := not_isCall_of_head (by decide) (by decide) _
  have hoption : ¬ IsCall "204".toList := not_isCall_of_head (by decide) (by decide) _
  have hcall : ¬ Call.pattern.IsWritten "any(b)".toList :=
    Call.argument?_eq_none_iff.1 (by decide)
  obtain ⟨-, -, -, hliterals, hpattern, hoptions, -⟩ := isEqual_is_equality
  refine ⟨⟨hhex, hdecimal, ?_⟩, ⟨hcall, ?_⟩, ?_⟩
  · refine (hliterals _ _ hhex hdecimal (by decide)).2 ⟨200, ?_, ?_⟩
    · exact Integer.read?_eq_some_iff.1 (by decide +kernel)
    · exact Integer.read?_eq_some_iff.1 (by decide +kernel)
  · have hmatches : Wildcard.accepts "a*".toList "any(b)".toList = true := by decide +kernel
    rw [← hmatches]
    exact (hpattern "a*".toList _ hcall).2
  · exact (hoptions "200, 204".toList _ hoption).1.2 (by decide)

end HealthCheck
