import HealthCheck.Proofs.Condition.Sight
import HealthCheck.Proofs.Condition.Split
import HealthCheck.Proofs.Equality

/-!
# Equations between operands

The operands of an equation are compared after they have been resolved, and a resolved text of the
form `pat(...)` or `any(...)` is a call wherever it comes from. An operand that is not written as a
call comes to one only where it shows data as it is (`Operand.Copies`): the address, the response
code, the body, a value in the body or one of the context. Everything else an operand can come to is
a numeral, a truth value, the operand itself, or a failed lookup under `len`.

So a condition compares the texts or the integers of its operands unless what it was sent looks like
a call; then the call is applied to the other side, where that is no call of its kind.
-/

namespace HealthCheck

namespace Operand

/-! ## Operands that show data as it is -/

/-- The operand stands, without a wrapper, for a text that is shown as it was received or stored. -/
def Copies (operand : Text) (context : Option Context) : Prop :=
  wrapper operand = .none ∧
    (Placeholder.ofToken? (core operand) = some .ip ∨
      Placeholder.ofToken? (core operand) = some .dnsRcode ∨
      Placeholder.ofToken? (core operand) = some .body ∨
      (bodyPath? (core operand)).isSome = true ∨
      (context.isSome = true ∧ (Placeholder.context.strip? (core operand)).isSome = true))

/-- The placeholders that do not show data as it is stand for numbers and truth values. -/
theorem ofFixed_bare {ph : Placeholder} (hip : ph ≠ .ip) (hrcode : ph ≠ .dnsRcode)
    (hbody : ph ≠ .body) {p : Probe} {t : Text} (h : ofFixed .none p ph = some t) :
    (∃ n, t = Text.ofNat n) ∨ ∃ b, t = Text.ofBool b := by
  cases ph with
  | ip => exact absurd rfl hip
  | dnsRcode => exact absurd rfl hrcode
  | body => exact absurd rfl hbody
  | context => exact absurd h (by simp [ofFixed])
  | connected => exact Or.inr ⟨_, (Option.some.inj h).symm⟩
  | _ => exact Or.inl ⟨_, (Option.some.inj h).symm⟩

/-- Without a wrapper, what does not show data as it is comes to a number, a truth value or
itself. -/
theorem resolve_bare {operand : Text} {context : Option Context}
    (hcopies : ¬ Copies operand context) (hbare : wrapper operand = .none) (p : Probe) :
    (∃ n, resolve operand p context = .found (Text.ofNat n)) ∨
      (∃ b, resolve operand p context = .found (Text.ofBool b)) ∨
      resolve operand p context = .found (Text.trim operand) := by
  simp only [Copies, hbare, true_and, not_or] at hcopies
  obtain ⟨hip, hrcode, hbody, hpath, hcontext⟩ := hcopies
  cases route operand context with
  | context hcontext' hstrip => exact absurd ⟨by rw [hcontext']; rfl, by rw [hstrip]; rfl⟩ hcontext
  | @fixed ph htoken heq =>
    obtain ⟨t, hfixed, ht⟩ := Option.map_eq_some_iff.1 (heq p)
    rw [htoken] at hip hrcode hbody
    rw [hbare] at hfixed
    rcases ofFixed_bare (by simpa using hip) (by simpa using hrcode) (by simpa using hbody)
      hfixed with ⟨n, rfl⟩ | ⟨b, rfl⟩
    · exact Or.inl ⟨n, ht.symm⟩
    · exact Or.inr (Or.inl ⟨b, ht.symm⟩)
  | body hpath' => exact absurd (by rw [hpath']; rfl) hpath
  | nothing heq =>
    rw [heq, hbare]
    exact Or.inr (Or.inr rfl)

/-- What does not show data as it is comes to a number, a truth value, itself, or a failed lookup
under `len`. -/
theorem resolve_of_not_copies {operand : Text} {context : Option Context}
    (hcopies : ¬ Copies operand context) (p : Probe) :
    (∃ n, resolve operand p context = .found (Text.ofNat n)) ∨
      (∃ b, resolve operand p context = .found (Text.ofBool b)) ∨
      (wrapper operand = .none ∧ resolve operand p context = .found (Text.trim operand)) ∨
      (wrapper operand = .length ∧ resolve operand p context = .failed (Text.trim operand)) := by
  cases hw : wrapper operand with
  | none =>
    rcases resolve_bare hcopies hw p with hnumber | htruth | hitself
    · exact Or.inl hnumber
    · exact Or.inr (Or.inl htruth)
    · exact Or.inr (Or.inr (Or.inl ⟨rfl, hitself⟩))
  | presence => exact Or.inr (Or.inl (resolve_presence hw p context))
  | length =>
    rcases resolve_length hw p context with hnumber | hfailed
    · exact Or.inl hnumber
    · exact Or.inr (Or.inr (Or.inr ⟨rfl, hfailed⟩))

/-- Only data that is shown as it is makes a call of an operand that is not written as one. -/
theorem argument?_resolve {operand : Text} {context : Option Context}
    (hcopies : ¬ Copies operand context) {call : Call}
    (hwritten : call.argument? (Text.trim operand) = none) (p : Probe) :
    call.argument? (resolve operand p context).text = none := by
  rcases resolve_of_not_copies hcopies p with ⟨n, hn⟩ | ⟨b, hb⟩ | ⟨-, hitself⟩ | ⟨hw, hfailed⟩
  · rw [hn]
    exact call.argument?_ofNat n
  · rw [hb]
    exact call.argument?_ofBool b
  · rwa [hitself]
  · -- A failed lookup begins as the operand does, with the wrapper.
    rw [hfailed, Resolution.text, ← wrap_core operand, hw]
    exact Call.argument?_eq_none_of_head (c := 'l') (by decide) (by decide) call _

end Operand

/-! ## Equations -/

namespace Condition

/-- **Equations compare data, unless the data are calls.** The operands of an equation are compared
as texts or integers where no call governs what they come to; a pattern that governs it decides it
before options do; and an operand that is not written as a call comes to one only where it shows
data as it is. -/
theorem evaluate_equal_iff {c : Condition} {first second : Text}
    (hsplit : c.split = some (.equal, first, second))
    (hfirst : ∀ call : Call, call.argument? first = none)
    (hsecond : ∀ call : Call, call.argument? second = none)
    (d : Display) (context : Option Context) (p : Probe) {s t : Text}
    (hs : (Operand.resolve first p context).text = s)
    (ht : (Operand.resolve second p context).text = t) :
    ∃ holds, c.answer d context p = .ok holds ∧
      ((∀ (call : Call) (argument other : Text), ¬ call.Governs argument other s t) →
        (holds = true ↔
          s = t ∨ ∃ n, Integer.read? s = some n ∧ Integer.read? t = some n)) ∧
      (∀ argument other, Call.pattern.Governs argument other s t →
        (holds = true ↔ Wildcard.accepts argument other = true)) ∧
      ((∀ argument other, ¬ Call.pattern.Governs argument other s t) →
        ∀ argument other, Call.options.Governs argument other s t →
          (holds = true ↔ ∃ o ∈ Text.segments ',' argument, Text.trim o = other)) ∧
      (∀ call : Call,
        (call.argument? s ≠ none → Operand.Copies first context) ∧
          (call.argument? t ≠ none → Operand.Copies second context)) := by
  have hequal : c.answer d context p = .ok (isEqual s t) := by
    rw [answer_equal hsplit, hs, ht]
  obtain ⟨before, between, -, -, hbefore, hbetween⟩ := exists_pieces_of_split hsplit
  have hfirst' : ∀ call : Call, call.argument? (Text.trim first) = none := by
    intro call
    rw [hbefore, Text.trim_trim, ← hbefore, hfirst]
  have hsecond' : ∀ call : Call, call.argument? (Text.trim second) = none := by
    intro call
    rw [hbetween, Text.trim_trim, ← hbetween, hsecond]
  refine ⟨_, hequal, fun hplain => ?_, fun argument other hpattern => ?_,
    fun hpattern argument other hoptions => ?_, fun call => ⟨fun hcall => ?_, fun hcall => ?_⟩⟩
  · rw [isEqual_of_not_governs hplain]
    exact sameValue_iff
  · rw [isEqual_of_pattern hpattern]
  · rw [isEqual_of_options hpattern hoptions]
    simp [List.any_eq_true]
  · by_contra hcopies
    exact hcall (hs ▸ Operand.argument?_resolve hcopies (hfirst' call) p)
  · by_contra hcopies
    exact hcall (ht ▸ Operand.argument?_resolve hcopies (hsecond' call) p)

/-- A probe result whose body has the form of a pattern. -/
def patternProbe : Probe := { body := Utf8.encode "pat(*)".toList }

/-- A condition that compares the body with a text. -/
def bodyIsUp : Condition := ⟨"[BODY] == up".toList⟩

theorem split_bodyIsUp : bodyIsUp.split = some (.equal, "[BODY]".toList, "up".toList) := by
  decide +kernel

theorem resolve_patternProbe :
    (Operand.resolve "[BODY]".toList patternProbe none).text = "pat(*)".toList ∧
      (Operand.resolve "up".toList patternProbe none).text = "up".toList := by
  constructor <;> decide +kernel

/-- A body that is a pattern governs the equation in which it stands. -/
theorem pattern_body_governs :
    bodyIsUp.split = some (.equal, "[BODY]".toList, "up".toList) ∧
      (∀ call : Call, call.argument? "[BODY]".toList = none ∧ call.argument? "up".toList = none) ∧
      Call.pattern.Governs "*".toList "up".toList "pat(*)".toList "up".toList ∧
      ∃ holds, bodyIsUp.answer {} none patternProbe = .ok holds ∧
        (holds = true ↔ Wildcard.accepts "*".toList "up".toList = true) := by
  have hwritten : ∀ call : Call,
      call.argument? "[BODY]".toList = none ∧ call.argument? "up".toList = none := by
    intro call
    cases call <;> exact ⟨rfl, rfl⟩
  have hgoverns : Call.pattern.Governs "*".toList "up".toList "pat(*)".toList "up".toList :=
    ⟨rfl, Or.inl ⟨rfl, rfl⟩⟩
  obtain ⟨holds, hanswer, -, hpattern, -⟩ := evaluate_equal_iff split_bodyIsUp
    (fun call => (hwritten call).1) (fun call => (hwritten call).2) {} none patternProbe
    resolve_patternProbe.1 resolve_patternProbe.2
  exact ⟨split_bodyIsUp, hwritten, hgoverns, holds, hanswer, hpattern _ _ hgoverns⟩

/-- The body `pat(*)` is taken for equal to a text that it neither is nor has the value of. -/
theorem pattern_body_equals_everything :
    bodyIsUp.split = some (.equal, "[BODY]".toList, "up".toList) ∧
      (∀ call : Call, call.argument? "[BODY]".toList = none ∧ call.argument? "up".toList = none) ∧
      bodyIsUp.answer {} none patternProbe = .ok true ∧
      ¬ ((Operand.resolve "[BODY]".toList patternProbe none).text =
            (Operand.resolve "up".toList patternProbe none).text ∨
          ∃ n, Integer.read? (Operand.resolve "[BODY]".toList patternProbe none).text = some n ∧
            Integer.read? (Operand.resolve "up".toList patternProbe none).text = some n) := by
  refine ⟨split_bodyIsUp, fun call => by cases call <;> exact ⟨rfl, rfl⟩, by decide +kernel, ?_⟩
  rw [resolve_patternProbe.1, resolve_patternProbe.2]
  rintro (hsame | ⟨n, hn, -⟩)
  · exact absurd hsame (by decide)
  · exact absurd (hn.symm.trans (show Integer.read? "pat(*)".toList = none from rfl)) (by simp)

end Condition

end HealthCheck
