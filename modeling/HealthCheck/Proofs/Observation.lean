import HealthCheck.Suite

/-!
# What operands read of a probe result

Of all that a probe result holds, an operand looks at one field at most: the one that its
placeholder stands for. `Operand.Reads` says which, `Probe.AgreesOn` says that two probe results
hold the same there, and `Operand.resolve_congr` that nothing else matters. It follows from the four
ways of resolving an operand, which `Operand.route` tells with what each comes to. What a condition
comes to and what a store mapping captures are functions of the resolved operands, so both inherit
it.
-/

namespace HealthCheck

/-- Two probe results hold the same under a placeholder. The context is no part of either. -/
def Probe.AgreesOn (p q : Probe) : Placeholder → Prop
  | .status => p.status = q.status
  | .ip => p.ip = q.ip
  | .responseTime => p.duration = q.duration
  | .dnsRcode => p.dnsRcode = q.dnsRcode
  | .connected => p.connected = q.connected
  | .certificateExpiration => p.certificateExpiration = q.certificateExpiration
  | .domainExpiration => p.domainExpiration = q.domainExpiration
  | .body => p.body = q.body
  | .context => True

/-- Two probe results observed the same. Names, errors, outcomes and points in time may differ. -/
def Probe.SameObservations (p q : Probe) : Prop := ∀ ph, p.AgreesOn q ph

namespace Operand

/-- The wrapper around an operand. -/
def wrapper (operand : Text) : Wrapper := (Wrapper.unwrap (Text.trim operand)).1

/-- What stands inside the wrapper of an operand. -/
def core (operand : Text) : Text := (Wrapper.unwrap (Text.trim operand)).2

theorem resolve_none (operand : Text) (p : Probe) :
    resolve operand p none =
      resolveObserved (wrapper operand) (Text.trim operand) (core operand) p := rfl

/-- With a context, whatever starts with its placeholder is looked up there. -/
theorem resolve_some_of_strip? {operand path : Text}
    (h : Placeholder.context.strip? (core operand) = some path) (p : Probe) (c : Context) :
    resolve operand p (some c) =
      ofLookup (wrapper operand) (Text.trim operand) (lookupContext path c) := by
  unfold core at h
  simp only [resolve, h, wrapper]

/-- A context does not matter to any other operand. -/
theorem resolve_of_strip?_none {operand : Text}
    (h : Placeholder.context.strip? (core operand) = none) (p : Probe)
    (context : Option Context) : resolve operand p context = resolve operand p none := by
  cases context with
  | none => rfl
  | some c =>
    unfold core at h
    simp only [resolve, h]

/-- The operand looks at the field that a placeholder stands for: it is the placeholder, or a path
into the body. -/
def Reads (operand : Text) (ph : Placeholder) : Prop :=
  Placeholder.ofToken? (core operand) = some ph ∨
    (ph = .body ∧ (bodyPath? (core operand)).isSome = true)

theorem ofFixed_congr {p q : Probe} {ph : Placeholder} (h : p.AgreesOn q ph) (w : Wrapper) :
    ofFixed w p ph = ofFixed w q ph := by
  cases ph <;> simp only [Probe.AgreesOn] at h <;>
    simp only [ofFixed, ofBody, Probe.bodyText, h]

theorem ofFixed_eq_none_iff {w : Wrapper} {p : Probe} {ph : Placeholder} :
    ofFixed w p ph = none ↔ ph = .context := by
  cases ph <;> simp [ofFixed]

/-! ## The ways of resolving an operand -/

/-- A lone placeholder comes to the field that it stands for. -/
theorem resolve_of_ofToken? {operand : Text} {ph : Placeholder}
    (h : Placeholder.ofToken? (core operand) = some ph) {p : Probe} {t : Text}
    (ht : ofFixed (wrapper operand) p ph = some t) : resolve operand p none = .found t := by
  rw [resolve_none]
  unfold resolveObserved
  rw [h, Option.bind_some, ht]

/-- An operand that stands for nothing observed stands for itself, and has no length. -/
theorem resolve_of_nothing {operand : Text} {p : Probe}
    (hfixed : (Placeholder.ofToken? (core operand)).bind (ofFixed (wrapper operand) p) = none)
    (hpath : bodyPath? (core operand) = none) :
    resolve operand p none =
      match wrapper operand with
      | .none => .found (Text.trim operand)
      | .length => .failed (Text.trim operand)
      | .presence => .found (Text.ofBool false) := by
  rw [resolve_none]
  unfold resolveObserved
  rw [hfixed, hpath]
  cases wrapper operand <;> rfl

/-- How an operand is resolved, with what it comes to. Which way it is depends on the operand and on
whether there is a context, and not on the probe result. -/
inductive Route (operand : Text) (context : Option Context) : Prop where
  | context {c : Context} {path : Text} (hcontext : context = some c)
      (hstrip : Placeholder.context.strip? (core operand) = some path)
      (heq : ∀ p, resolve operand p context =
        ofLookup (wrapper operand) (Text.trim operand) (lookupContext path c))
  | fixed {ph : Placeholder} (htoken : Placeholder.ofToken? (core operand) = some ph)
      (heq : ∀ p, (ofFixed (wrapper operand) p ph).map .found = some (resolve operand p context))
  | body {path : Text} (hpath : bodyPath? (core operand) = some path)
      (heq : ∀ p, resolve operand p context =
        ofLookup (wrapper operand) (Text.trim operand) (lookupBody path p.body))
  | nothing (heq : ∀ p, resolve operand p context =
      match wrapper operand with
      | .none => .found (Text.trim operand)
      | .length => .failed (Text.trim operand)
      | .presence => .found (Text.ofBool false))

/-- An operand is resolved as without a context, or looked up in it, whatever was observed. -/
theorem resolve_eq_none_or_lookup (operand : Text) (context : Option Context) :
    (∀ p, resolve operand p context = resolve operand p none) ∨
      ∃ c path, context = some c ∧ Placeholder.context.strip? (core operand) = some path ∧
        ∀ p, resolve operand p context =
          ofLookup (wrapper operand) (Text.trim operand) (lookupContext path c) := by
  cases hstrip : Placeholder.context.strip? (core operand) with
  | none => exact Or.inl fun p => resolve_of_strip?_none hstrip p context
  | some path =>
    cases context with
    | none => exact Or.inl fun _ => rfl
    | some c => exact Or.inr ⟨c, path, rfl, rfl, fun p => resolve_some_of_strip? hstrip p c⟩

/-- Every operand is resolved in one of these ways. -/
theorem route (operand : Text) (context : Option Context) : Route operand context := by
  rcases resolve_eq_none_or_lookup operand context with hnone | ⟨c, path, hcontext, hstrip, heq⟩
  · by_cases hfixed : ∃ ph, Placeholder.ofToken? (core operand) = some ph ∧ ph ≠ .context
    · obtain ⟨ph, htoken, hne⟩ := hfixed
      refine .fixed htoken fun p => ?_
      obtain ⟨t, ht⟩ := Option.ne_none_iff_exists'.1
        (mt (ofFixed_eq_none_iff (w := wrapper operand) (p := p)).1 hne)
      rw [ht, hnone, resolve_of_ofToken? htoken ht, Option.map_some]
    · have hbind : ∀ p, (Placeholder.ofToken? (core operand)).bind
          (ofFixed (wrapper operand) p) = none := by
        intro p
        rw [Option.bind_eq_none_iff]
        intro ph htoken
        exact ofFixed_eq_none_iff.2 (Classical.not_not.1 fun hne => hfixed ⟨ph, htoken, hne⟩)
      cases hpath : bodyPath? (core operand) with
      | some path =>
        refine .body hpath fun p => ?_
        rw [hnone, resolve_none]
        unfold resolveObserved
        rw [hbind, hpath]
      | none => exact .nothing fun p => by rw [hnone, resolve_of_nothing (hbind p) hpath]
  · exact .context hcontext hstrip heq

/-- An operand resolves alike on probe results that agree on what it looks at. -/
theorem resolve_congr {operand : Text} {p q : Probe}
    (h : ∀ ph, Reads operand ph → p.AgreesOn q ph) (context : Option Context) :
    resolve operand p context = resolve operand q context := by
  cases route operand context with
  | context _ _ heq => rw [heq, heq]
  | fixed htoken heq =>
    have hfixed := ofFixed_congr (h _ (Or.inl htoken)) (wrapper operand)
    exact Option.some.inj (by rw [← heq, ← heq, hfixed])
  | body hpath heq =>
    have hbody : p.body = q.body := h .body (Or.inr ⟨rfl, by rw [hpath]; rfl⟩)
    rw [heq, heq, hbody]
  | nothing heq => rw [heq, heq]

end Operand

namespace Probe.SameObservations

variable {p q : Probe}

theorem refl (p : Probe) : p.SameObservations p := by
  intro ph
  cases ph <;> simp only [Probe.AgreesOn]

/-- What an operand comes to is a matter of what was observed. -/
theorem resolve_eq (h : p.SameObservations q) (operand : Text) (context : Option Context) :
    Operand.resolve operand p context = Operand.resolve operand q context :=
  Operand.resolve_congr (fun ph _ => h ph) context

theorem value?_eq (h : p.SameObservations q) (operand : Text) :
    Capture.value? operand p = Capture.value? operand q := by
  unfold Capture.value?
  rw [h.resolve_eq]

/-- What mappings capture is a matter of what was observed. -/
theorem applyFrom_eq (h : p.SameObservations q) (mappings : List (Text × Text))
    (context : Context) (stored : Fields Json) (failures : List Error) :
    Capture.applyFrom p mappings context stored failures =
      Capture.applyFrom q mappings context stored failures := by
  induction mappings generalizing context stored failures with
  | nil => rfl
  | cons m rest ih =>
    simp only [Capture.applyFrom, h.value?_eq, ih]

/-- Store mappings capture the same from probe results that observed the same. -/
theorem apply_eq (h : p.SameObservations q) (mappings : StoreMappings) (context : Context) :
    Capture.apply mappings p context = Capture.apply mappings q context :=
  h.applyFrom_eq mappings.entries context [] []

end Probe.SameObservations

/-- Errors, outcomes and the verdict are not observed. -/
theorem Probe.sameObservations_record (p : Probe) (errors : List Text)
    (outcomes : List ConditionOutcome) (success : Bool) :
    { p with errors := errors, conditionOutcomes := outcomes, success := success }.SameObservations
      p := by
  intro ph
  exact SameObservations.refl p ph

end HealthCheck
