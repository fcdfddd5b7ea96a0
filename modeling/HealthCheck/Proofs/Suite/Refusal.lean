import HealthCheck.Proofs.Condition.Equations

/-!
# Which values are refused

A failed lookup shows as the operand and a mark behind it, and a value is refused where the resolved
text ends so. `Operand.resolve_eq_failed_iff` says which lookups fail when there is no context, and
`Capture.value?_tells_failures_iff` that these are refused, and with them every text that was found
and ends with the mark by itself. Such a text is data shown as it is, or an operand that stands for
itself.
-/

namespace HealthCheck

namespace Resolution

/-- The text ends the way a failed lookup does. -/
def Marked (t : Text) : Prop := ' ' :: mark <:+ t

theorem mem_of_marked {t : Text} (h : Marked t) : ')' ∈ t :=
  h.subset (by decide)

/-- No number is taken for a failed lookup. -/
theorem not_marked_ofNat (n : Nat) : ¬ Marked (Text.ofNat n) := by
  intro h
  have hdigit := List.all_eq_true.1 (Text.all_isDigit_ofNat n) ')' (mem_of_marked h)
  exact absurd hdigit (by decide)

theorem not_marked_ofBool (b : Bool) : ¬ Marked (Text.ofBool b) := by
  intro h
  have hparen := mem_of_marked h
  cases b <;> exact absurd hparen (by decide)

end Resolution

/-! ## Failed lookups -/

namespace Operand

/-- Without a context the lookup of an operand fails: what stands behind `[BODY]` leads nowhere, or
`len` is taken of a text that stands for nothing observed. -/
def LookupFails (operand : Text) (p : Probe) : Prop :=
  (wrapper operand ≠ .presence ∧ ∃ path e, bodyPath? (core operand) = some path ∧
      JsonPath.eval (dropDot path) p.body = .error e) ∨
    (wrapper operand = .length ∧ bodyPath? (core operand) = none ∧
      ∀ ph, Placeholder.ofToken? (core operand) = some ph → ph = .context)

theorem lookupBody_eq_none_iff {path : Text} {body : Bytes} :
    lookupBody path body = none ↔ ∃ e, JsonPath.eval (dropDot path) body = .error e := by
  unfold lookupBody
  cases JsonPath.eval (dropDot path) body <;> simp [Except.toOption]

theorem ofLookup_eq_failed_iff {w : Wrapper} {raw shown : Text} {r : Option (Text × Nat)} :
    ofLookup w raw r = .failed shown ↔ (w ≠ .presence ∧ r = none) ∧ shown = raw := by
  cases r <;> cases w <;> simp [ofLookup, eq_comm]

/-- **Failed lookups.** An operand comes to a failed lookup, which shows it as written, exactly
where its lookup fails. -/
theorem resolve_eq_failed_iff {operand raw : Text} {p : Probe} :
    resolve operand p none = .failed raw ↔ LookupFails operand p ∧ raw = Text.trim operand := by
  cases hpath : bodyPath? (core operand) with
  | some path =>
    rw [resolve_of_bodyPath? hpath, ofLookup_eq_failed_iff, lookupBody_eq_none_iff]
    simp only [LookupFails, hpath, Option.some.injEq, exists_and_left, exists_eq_left',
      reduceCtorEq, false_and, and_false, or_false]
  | none =>
    have hcontext : (Placeholder.ofToken? (core operand)).bind (ofFixed (wrapper operand) p) =
        none ↔ ∀ ph, Placeholder.ofToken? (core operand) = some ph → ph = .context := by
      simp only [Option.bind_eq_none_iff, ofFixed_eq_none_iff]
    simp only [LookupFails, hpath, reduceCtorEq, false_and, exists_false, and_false, false_or,
      true_and, ← hcontext]
    cases hfixed : (Placeholder.ofToken? (core operand)).bind (ofFixed (wrapper operand) p) with
    | some t =>
      rw [resolve_none]
      unfold resolveObserved
      rw [hfixed]
      simp
    | none =>
      rw [resolve_of_nothing hfixed hpath]
      cases wrapper operand <;> simp [eq_comm]

/-- Found texts that end with the mark are data shown as it is, or the operand itself. -/
theorem copies_or_itself_of_marked {operand t : Text} {p : Probe}
    (h : resolve operand p none = .found t) (hmarked : Resolution.Marked t) :
    Copies operand none ∨ (wrapper operand = .none ∧ t = Text.trim operand) := by
  by_contra hneither
  obtain ⟨hcopies, hitself⟩ := not_or.1 hneither
  rcases resolve_of_not_copies hcopies p with ⟨n, hn⟩ | ⟨b, hb⟩ | ⟨hw, hraw⟩ | ⟨-, hfailed⟩
  · rw [hn, Resolution.found.injEq] at h
    exact Resolution.not_marked_ofNat n (h ▸ hmarked)
  · rw [hb, Resolution.found.injEq] at h
    exact Resolution.not_marked_ofBool b (h ▸ hmarked)
  · rw [hraw, Resolution.found.injEq] at h
    exact hitself ⟨hw, h.symm⟩
  · rw [hfailed] at h
    exact absurd h (by simp)

end Operand

/-! ## Refusals -/

namespace Capture

open Operand Resolution

theorem value?_of_mark {operand path : Text} {p : Probe}
    (h : (resolve operand p none).text = path ++ ' ' :: mark) :
    value? operand p = .error (.invalidStorePath path) := by
  rw [value?, Text.before?_eq_some_iff.2 h]

/-- A text without the mark is captured. -/
theorem value?_of_not_marked {operand : Text} {p : Probe}
    (h : ¬ Marked (resolve operand p none).text) :
    value? operand p = .ok (typed (resolve operand p none).text) := by
  rw [value?]
  split
  · rename_i path hpath
    exact absurd ⟨path, (Text.before?_eq_some_iff.1 hpath).symm⟩ h
  · rfl

/-- A value is refused exactly when the text of the operand ends with the mark. -/
theorem exists_invalidStorePath_iff {operand : Text} {p : Probe} :
    (∃ path, value? operand p = .error (.invalidStorePath path)) ↔
      Marked (resolve operand p none).text := by
  constructor
  · rintro ⟨path, hpath⟩
    by_contra hmark
    rw [value?_of_not_marked hmark] at hpath
    exact absurd hpath (by simp)
  · rintro ⟨path, hpath⟩
    exact ⟨path, value?_of_mark hpath.symm⟩

theorem value?_of_lookupFails {operand : Text} {p : Probe} (h : LookupFails operand p) :
    value? operand p = .error (.invalidStorePath (Text.trim operand)) := by
  refine value?_of_mark ?_
  rw [resolve_eq_failed_iff.2 ⟨h, rfl⟩, Resolution.text]

theorem not_lookupFails_of_found {operand t : Text} {p : Probe}
    (h : resolve operand p none = .found t) : ¬ LookupFails operand p := by
  intro hfails
  rw [resolve_eq_failed_iff.2 ⟨hfails, rfl⟩] at h
  exact absurd h (by simp)

/-- **Which values are refused.** A refusal tells a failed lookup exactly when no text that was
found ends with the mark of one. A failed lookup is refused with the operand, a found text without
the mark is stored, and one with the mark is refused with what stands in front of the mark; that is
data shown as it is, or an operand that stands for itself. -/
theorem value?_tells_failures_iff (operand : Text) (p : Probe) :
    (((∃ path, value? operand p = .error (.invalidStorePath path)) ↔ LookupFails operand p) ↔
      ∀ t, resolve operand p none = .found t → ¬ Marked t) ∧
    (LookupFails operand p →
      value? operand p = .error (.invalidStorePath (Text.trim operand))) ∧
    ∀ t, resolve operand p none = .found t →
      (¬ Marked t → value? operand p = .ok (typed t)) ∧
      ∀ path, t = path ++ ' ' :: mark →
        value? operand p = .error (.invalidStorePath path) ∧
          (Copies operand none ∨ (wrapper operand = .none ∧ t = Text.trim operand)) := by
  refine ⟨⟨fun htells t ht hmarked => ?_, fun hplain => ?_⟩, value?_of_lookupFails,
    fun t ht => ⟨fun hplain => ?_, fun path hpath => ⟨?_, ?_⟩⟩⟩
  · have hrefused := exists_invalidStorePath_iff.2 (show Marked (resolve operand p none).text by
      rwa [ht])
    exact not_lookupFails_of_found ht (htells.1 hrefused)
  · rw [exists_invalidStorePath_iff]
    cases hresolve : resolve operand p none with
    | found t =>
      exact iff_of_false (hplain t hresolve) (not_lookupFails_of_found hresolve)
    | failed raw =>
      exact iff_of_true (List.suffix_append raw _) (resolve_eq_failed_iff.1 hresolve).1
  · have hvalue := value?_of_not_marked (show ¬ Marked (resolve operand p none).text by rwa [ht])
    rwa [ht] at hvalue
  · exact value?_of_mark (by rw [ht]; exact hpath)
  · exact copies_or_itself_of_marked ht ⟨path, hpath.symm⟩

/-- A probe result whose body ends like a failed lookup. -/
def markedProbe : Probe := { body := Utf8.encode "x (INVALID)".toList }

/-- A body that was found and a literal are refused because of how they end. -/
theorem marked_texts_are_refused :
    resolve "[BODY]".toList markedProbe none = .found "x (INVALID)".toList ∧
      ¬ LookupFails "[BODY]".toList markedProbe ∧
      value? "[BODY]".toList markedProbe = .error (.invalidStorePath "x".toList) ∧
      ¬ LookupFails "x (INVALID)".toList markedProbe ∧
      value? "x (INVALID)".toList markedProbe = .error (.invalidStorePath "x".toList) := by
  have hbody : resolve "[BODY]".toList markedProbe none = .found "x (INVALID)".toList := by
    decide +kernel
  have hliteral : resolve "x (INVALID)".toList markedProbe none =
      .found "x (INVALID)".toList := by decide +kernel
  exact ⟨hbody, not_lookupFails_of_found hbody, value?_of_mark (by rw [hbody]; rfl),
    not_lookupFails_of_found hliteral, value?_of_mark (by rw [hliteral]; rfl)⟩

end Capture

end HealthCheck
