import HealthCheck.Proofs.Condition.Split
import HealthCheck.Proofs.Equality
import HealthCheck.Proofs.Number.Reading
import HealthCheck.Proofs.Suite.DataFlow

/-!
# Whether a captured value is equal to what it was captured from

Capturing gives a text a type, and reading the value back writes that type out. Integers are
captured in decimal notation, but operands are compared in the notation that detects a base, so a
leading zero changes the value, and numbers and truth values come back in one spelling only.
`Capture.Kept` describes the texts that survive, and `Capture.isEqual_typed_iff` shows that they are
the ones that a value captured from them is equal to.
-/

namespace HealthCheck

namespace Capture

/-- Capturing keeps the text: it comes back as it is, or it is a decimal integer without a zero in
front or of a single digit's value. -/
def Kept (t : Text) : Prop :=
  t = JsonPath.text (typed t) ∨
    ∃ n, Integer.decimal? t = some n ∧
      (Text.hasLeadingZero (Text.signed t).2 = false ∨ n.natAbs < 8)

/-! ## Calls are texts -/

/-- A call is captured as the text that it is. -/
theorem typed_of_argument? {call : Call} {t argument : Text}
    (h : call.argument? t = some argument) : typed t = .string t := by
  rw [Call.argument?_eq_some_iff.1 h]
  cases call with
  | pattern => rfl
  | options => rfl

/-! ## Integers -/

theorem decimal?_range {t : Text} {n : Int} (h : Integer.decimal? t = some n) :
    Integer.least ≤ n ∧ n ≤ Integer.greatest :=
  (Integer.ofMagnitude?_eq_some_iff.1 (Integer.decimal?_eq_some_iff.1 h).2).2

/-- A decimal integer has the value of its own numeral unless a zero in front makes it octal. -/
theorem sameValue_ofInt_iff {t : Text} {n : Int} (h : Integer.decimal? t = some n) :
    sameValue t (Text.ofInt n) = true ↔
      Text.hasLeadingZero (Text.signed t).2 = false ∨ n.natAbs < 8 := by
  have hnumeral : Integer.read? (Text.ofInt n) = some n := Integer.read?_ofInt (decimal?_range h)
  obtain ⟨⟨-, hdigits⟩, hmagnitude⟩ := Integer.decimal?_eq_some_iff.1 h
  cases hzero : Text.hasLeadingZero (Text.signed t).2 with
  | false =>
    have hread : Integer.read? t = some n := by rw [Integer.read?_eq_decimal? hdigits hzero, h]
    rw [sameValue_of_read? hread hnumeral]
    simp
  | true =>
    obtain ⟨w, hw, hne⟩ := Text.hasLeadingZero_eq_true hzero
    rw [hw, Text.value_cons_zero] at hmagnitude
    rw [hw, List.all_cons, Bool.and_eq_true] at hdigits
    have habs : n.natAbs = Text.value 10 w := Integer.natAbs_of_ofMagnitude? hmagnitude
    have hread := Integer.read?_of_leading_zero hw hne hdigits.2
    rw [habs]
    -- Behind a leading zero the digits are octal, or no integer at all.
    by_cases hoctal : w.all (Text.isDigitOf 8) = true
    · obtain ⟨m, hm, hiff⟩ :=
        Integer.exists_ofMagnitude?_of_le hmagnitude (Text.value_eight_le_value_ten w)
      rw [Text.toNat?, if_pos ⟨hne, hoctal⟩, Option.bind_some, hm] at hread
      rw [sameValue_of_read? hread hnumeral, hiff, Text.value_eight_eq_value_ten_iff hoctal]
      simp
    · rw [Text.toNat?, if_neg fun hall => hoctal hall.2, Option.bind_none] at hread
      have hlarge : ¬ Text.value 10 w < 8 := fun hlt =>
        hoctal (Text.all_isDigitOf_eight hdigits.2 hlt)
      have hspelling : t ≠ Text.ofInt n := by
        rintro rfl
        rw [Text.signed_ofInt, Text.hasLeadingZero_ofNat] at hzero
        exact Bool.noConfusion hzero
      rw [sameValue_iff_eq fun m hm => by rw [hread] at hm; exact absurd hm.symm (by simp)]
      simp [hspelling, hlarge]

/-! ## Values of every type -/

theorem argument?_write (call : Call) (x : Binary64) :
    call.argument? (Layout.alone.write x) = none := by
  obtain ⟨c, cs, hcons, hc⟩ := Layout.exists_head_alone_write x
  rw [hcons]
  exact Call.argument?_eq_none_of_numeral hc call cs

theorem read?_ofBool (b : Bool) : Integer.read? (Text.ofBool b) = none := by
  cases b <;> rfl

theorem text_bool (b : Bool) : JsonPath.text (.bool b) = Text.ofBool b := by
  simp only [JsonPath.text, Json.compact]

/-- Whatever is captured as something else than a text is no call. -/
theorem argument?_eq_none {t : Text} (h : typed t ≠ .string t) (call : Call) :
    call.argument? t = none := by
  cases hargument : call.argument? t with
  | none => rfl
  | some argument => exact absurd (typed_of_argument? hargument) h

/-- What is no decimal integer is kept exactly if it is shown as it was. -/
theorem kept_iff_of_decimal?_none {t : Text} (h : Integer.decimal? t = none) :
    Kept t ↔ t = JsonPath.text (typed t) := by
  unfold Kept
  rw [h]
  simp

/-- A captured value is equal to the text that it was captured from exactly when capturing keeps
the text. -/
theorem isEqual_typed_iff (t : Text) :
    isEqual t (JsonPath.text (typed t)) = true ↔ Kept t := by
  cases hdecimal : Integer.decimal? t with
  | some n =>
    have htyped : typed t = .int n := by rw [typed, hdecimal]
    have htext : JsonPath.text (typed t) = Text.ofInt n := by rw [htyped]; rfl
    have hcall := argument?_eq_none (t := t) (by rw [htyped]; exact Json.noConfusion)
    have hvalue := sameValue_ofInt_iff hdecimal
    rw [htext, isEqual_eq_sameValue hcall fun call => call.argument?_ofInt n, Kept, htext]
    constructor
    · exact fun heq => Or.inr ⟨n, hdecimal, hvalue.1 heq⟩
    · rintro (hspelling | ⟨m, hm, hkept⟩)
      · rw [← hspelling]
        exact sameValue_self t
      · obtain rfl := Option.some.inj (hdecimal.symm.trans hm)
        exact hvalue.2 hkept
  | none =>
    rw [kept_iff_of_decimal?_none hdecimal]
    cases hfinite : Reading.finite? t with
    | some x =>
      have htyped : typed t = .number (.binary x) := by simp only [typed, hdecimal, hfinite]
      have htext : JsonPath.text (typed t) = Layout.alone.write x := by rw [htyped]; rfl
      have hcall := argument?_eq_none (t := t) (by rw [htyped]; exact Json.noConfusion)
      rw [htext, isEqual_eq_sameValue hcall fun call => argument?_write call x]
      exact sameValue_iff_eq fun m hm => Reading.read?_write_ne hfinite hdecimal hm
    | none =>
      cases htruth : truth? t with
      | some b =>
        have htyped : typed t = .bool b := by simp only [typed, hdecimal, hfinite, htruth]
        have hcall := argument?_eq_none (t := t) (by rw [htyped]; exact Json.noConfusion)
        rw [htyped, text_bool, isEqual_eq_sameValue hcall fun call => call.argument?_ofBool b]
        refine sameValue_iff_eq fun m _ hread => ?_
        rw [read?_ofBool] at hread
        exact absurd hread.symm (Option.some_ne_none m)
      | none =>
        have htyped : typed t = .string t := by simp only [typed, hdecimal, hfinite, htruth]
        have htext : JsonPath.text (typed t) = t := by rw [htyped]; rfl
        rw [htext]
        exact ⟨fun _ => rfl, fun _ => isEqual_self t⟩

/-! ## Checks against what was captured -/

/-- What is captured is what the operand resolves to, with its type. -/
theorem eq_typed_of_value? {operand : Text} {p : Probe} {v : Json} (h : value? operand p = .ok v) :
    v = typed (Operand.resolve operand p none).text := by
  simp only [value?] at h
  split at h
  · exact absurd h (by simp)
  · exact (Except.ok.inj h).symm

/-- What was captured at a key is what a condition finds there. -/
theorem resolve_after_set {before after : Context} {key : Text} {v : Json}
    (hset : before.set key v = .ok after) (hend : ¬ Text.EndsBlank ("[CONTEXT].".toList ++ key))
    (p : Probe) :
    Operand.resolve ("[CONTEXT].".toList ++ key) p (some after) = .found (JsonPath.text v) := by
  unfold Context.set at hset
  split_ifs at hset with hkey
  rw [← Except.ok.inj hset]
  refine Operand.resolve_contextKey hkey (fun hblank => hend ?_) ?_ p
  · exact (Text.endsBlank_append hkey).2 hblank
  · exact Context.walk?_setAt_self (Context.segments_ne_nil key) v before

/-- **Fidelity.** A captured value is equal to the text that it was captured from exactly when
capturing keeps the text, and a later step with the same result that compares the two passes
exactly then. -/
theorem check_of_captured_passes_iff {operand : Text} {p : Probe} {v : Json}
    (hv : value? operand p = .ok v) :
    (isEqual (Operand.resolve operand p none).text (JsonPath.text v) = true ↔
        Kept (Operand.resolve operand p none).text) ∧
      ∀ (c : Condition) (d : Display) (q : Probe) (key : Text) (before after : Context),
        Placeholder.context.strip? (Operand.core operand) = none → p.SameObservations q →
        before.set key v = .ok after →
        c.split = some (.equal, Text.trim operand, "[CONTEXT].".toList ++ key) →
        ∃ holds, c.answer d (some after) q = .ok holds ∧
          (holds = true ↔ Kept (Operand.resolve operand p none).text) := by
  have hequal : isEqual (Operand.resolve operand p none).text (JsonPath.text v) = true ↔
      Kept (Operand.resolve operand p none).text := by
    rw [eq_typed_of_value? hv]
    exact isEqual_typed_iff _
  refine ⟨hequal, ?_⟩
  intro c d q key before after hoperand hsame hset hsplit
  obtain ⟨-, between, -, -, -, hsecond⟩ := Condition.exists_pieces_of_split hsplit
  have hend : ¬ Text.EndsBlank ("[CONTEXT].".toList ++ key) := by
    rw [hsecond]
    exact Text.not_endsBlank_trim between
  have hfirst : Operand.resolve (Text.trim operand) q (some after) =
      Operand.resolve operand p none := by
    rw [Operand.resolve_trim, Operand.resolve_of_strip?_none hoperand, hsame.resolve_eq]
  refine ⟨_, Condition.answer_equal hsplit d (some after) q, ?_⟩
  rw [hfirst, resolve_after_set hset hend]
  exact hequal

/-- A probe result whose body is the text `010`. -/
def zeroPadded : Probe := { body := [0x30, 0x31, 0x30] }

/-- The check of a captured `010` passes exactly when capturing keeps it. -/
theorem zeroPadded_check_iff :
    value? "[BODY]".toList zeroPadded = .ok (.int 10) ∧
      ∃ holds, (Condition.mk "[BODY] == [CONTEXT].k".toList).answer {}
          (some [("k".toList, .int 10)]) zeroPadded = .ok holds ∧
        (holds = true ↔ Kept (Operand.resolve "[BODY]".toList zeroPadded none).text) := by
  have hvalue : value? "[BODY]".toList zeroPadded = .ok (.int 10) := rfl
  exact ⟨hvalue, (check_of_captured_passes_iff hvalue).2 _ {} zeroPadded "k".toList [] _
    (by decide) (.refl zeroPadded) rfl (by decide +kernel)⟩

/-- The body `010` is captured as ten, which it is not equal to: in the notation of comparisons it
is eight. -/
theorem zeroPadded_ne_captured :
    value? "[BODY]".toList zeroPadded = .ok (.int 10) ∧
      isEqual (Operand.resolve "[BODY]".toList zeroPadded none).text (JsonPath.text (.int 10)) =
        false ∧
      (Condition.mk "[BODY] == [CONTEXT].k".toList).answer {}
          (some [("k".toList, .int 10)]) zeroPadded = .ok false :=
  ⟨rfl, by decide +kernel, by rfl⟩

end Capture

end HealthCheck
