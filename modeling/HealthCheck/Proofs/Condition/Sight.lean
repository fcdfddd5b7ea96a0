import HealthCheck.Condition
import HealthCheck.Proofs.Json.Reach
import HealthCheck.Proofs.Observation
import HealthCheck.Proofs.Text.Cutting

/-!
# What an operator sees of a field

An operand may look at a field of a probe result and yet come to the same under an operator whatever
the field holds: a path that leads nowhere in any body always fails, `has(...)` of a number always
holds, and the ordering operators take both truth values for zero. `Operand.Sees` leaves these cases
out. An operator takes the same of an operand that does not see a field
(`view_eq_of_not_sees`), and something else for two values of a field that it does see
(`exists_one_two` and `exists_false_true`).
-/

namespace HealthCheck

/-! ## Probe results that differ in a field -/

namespace Probe

/-- The probe result without what a placeholder stands for. -/
def without (p : Probe) : Placeholder → Probe
  | .status => { p with status := 0 }
  | .ip => { p with ip := [] }
  | .responseTime => { p with duration := 0 }
  | .dnsRcode => { p with dnsRcode := [] }
  | .connected => { p with connected := false }
  | .certificateExpiration => { p with certificateExpiration := 0 }
  | .domainExpiration => { p with domainExpiration := 0 }
  | .body => { p with body := [] }
  | .context => p

/-- Two probe results differ only in what a placeholder stands for, if at all. -/
def DifferOnlyIn (p q : Probe) (ph : Placeholder) : Prop := p.without ph = q.without ph

variable {p q : Probe} {ph : Placeholder}

theorem agreesOn_without {ph' : Placeholder} (h : ph' ≠ ph) :
    (p.without ph).AgreesOn (q.without ph) ph' ↔ p.AgreesOn q ph' := by
  cases ph <;> cases ph' <;> first | exact absurd rfl h | exact Iff.rfl

theorem DifferOnlyIn.agreesOn (h : p.DifferOnlyIn q ph) {ph' : Placeholder} (hne : ph' ≠ ph) :
    p.AgreesOn q ph' := by
  rw [← agreesOn_without hne, show p.without ph = q.without ph from h]
  exact SameObservations.refl _ ph'

theorem DifferOnlyIn.errors (h : p.DifferOnlyIn q ph) : p.errors = q.errors := by
  have herrors : ∀ r : Probe, (r.without ph).errors = r.errors := by
    intro r
    cases ph <;> rfl
  rw [← herrors p, ← herrors q, show p.without ph = q.without ph from h]

theorem DifferOnlyIn.conditionOutcomes (h : p.DifferOnlyIn q ph) :
    p.conditionOutcomes = q.conditionOutcomes := by
  have houtcomes : ∀ r : Probe, (r.without ph).conditionOutcomes = r.conditionOutcomes := by
    intro r
    cases ph <;> rfl
  rw [← houtcomes p, ← houtcomes q, show p.without ph = q.without ph from h]

/-- An error is added behind the others, unless it is among them. -/
theorem errors_addError (p : Probe) (message : Text) :
    (p.addError message).errors =
      if message ∈ p.errors then p.errors else p.errors ++ [message] := by
  unfold addError
  split_ifs <;> rfl

theorem conditionOutcomes_addError (p : Probe) (message : Text) :
    (p.addError message).conditionOutcomes = p.conditionOutcomes := by
  unfold addError
  split_ifs <;> rfl

end Probe

/-! ## Wrappers and tokens -/

/-- A text inside a wrapper. -/
def Wrapper.wrap : Wrapper → Text → Text
  | none, t => t
  | length, t => "len(".toList ++ t ++ ")".toList
  | presence, t => "has(".toList ++ t ++ ")".toList

namespace Operand

/-- An operand is its core inside its wrapper. -/
theorem wrap_core (operand : Text) :
    (wrapper operand).wrap (core operand) = Text.trim operand := by
  unfold core wrapper Wrapper.unwrap
  split
  · rename_i inner h
    exact (Text.between?_eq_some_iff.1 h).symm
  · split
    · rename_i inner h
      exact (Text.between?_eq_some_iff.1 h).symm
    · rfl

/-- A wrapper adds five characters to what it wraps. -/
theorem length_core (operand : Text) :
    (Text.trim operand).length =
      (core operand).length + if wrapper operand = .none then 0 else 5 := by
  rw [← wrap_core]
  cases wrapper operand <;> simp [Wrapper.wrap]

end Operand

namespace Placeholder

theorem length_of_sameIgnoringCase {s t : Text} (h : Text.sameIgnoringCase s t = true) :
    s.length = t.length := by
  have hlength := congrArg List.length (beq_iff_eq.1 h)
  rwa [List.length_map, List.length_map] at hlength

theorem sameIgnoringCase_of_ofToken? {t : Text} {ph : Placeholder} (h : ofToken? t = some ph) :
    Text.sameIgnoringCase ph.token t = true :=
  List.find?_some (p := fun ph => Text.sameIgnoringCase (token ph) t) h

theorem length_of_ofToken? {t : Text} {ph : Placeholder} (h : ofToken? t = some ph) :
    t.length = ph.token.length :=
  (length_of_sameIgnoringCase (sameIgnoringCase_of_ofToken? h)).symm

theorem strip?_eq_some_iff {ph : Placeholder} {t rest : Text} :
    ph.strip? t = some rest ↔
      Text.sameIgnoringCase (t.take ph.token.length) ph.token = true ∧
        t.drop ph.token.length = rest := by
  simp only [strip?, Option.ite_none_right_eq_some, Option.some.injEq]

theorem length_of_strip? {ph : Placeholder} {t rest : Text} (h : ph.strip? t = some rest) :
    t.length = ph.token.length + rest.length := by
  obtain ⟨hsame, rfl⟩ := strip?_eq_some_iff.1 h
  have hlength := length_of_sameIgnoringCase hsame
  rw [List.length_take] at hlength
  rw [List.length_drop]
  omega

/-- The fields that a probe may leave out where no condition needs them. -/
def Deferrable (ph : Placeholder) : Prop := ph = .body ∨ ph = .ip ∨ ph = .domainExpiration

end Placeholder

namespace Operand

/-- A path into the body stands behind the token for the body. -/
theorem strip?_of_bodyPath? {t path : Text} (h : bodyPath? t = some path) :
    Placeholder.body.strip? t = some path ∧ path ≠ [] := by
  unfold bodyPath? at h
  split at h
  · rename_i heq
    cases h
    exact ⟨heq, List.cons_ne_nil _ _⟩
  · rename_i heq
    cases h
    exact ⟨heq, List.cons_ne_nil _ _⟩
  · cases h

theorem length_of_bodyPath? {t path : Text} (h : bodyPath? t = some path) : 7 ≤ t.length := by
  obtain ⟨hstrip, hne⟩ := strip?_of_bodyPath? h
  have hpos : 0 < path.length := List.length_pos_iff.2 hne
  rw [Placeholder.length_of_strip? hstrip]
  show 7 ≤ 6 + path.length
  omega

/-- A path behind a placeholder is no placeholder. -/
theorem ofToken?_of_bodyPath? {t path : Text} (h : bodyPath? t = some path) :
    Placeholder.ofToken? t = none := by
  have hlength := length_of_bodyPath? h
  obtain ⟨hstrip, -⟩ := Placeholder.strip?_eq_some_iff.1 (strip?_of_bodyPath? h).1
  have htake : (t.map Char.toLower).take 6 = "[body]".toList := by
    rw [← List.map_take]
    exact beq_iff_eq.1 hstrip
  cases htoken : Placeholder.ofToken? t with
  | none => rfl
  | some ph =>
    have hlower : ph.token.map Char.toLower = t.map Char.toLower :=
      beq_iff_eq.1 (Placeholder.sameIgnoringCase_of_ofToken? htoken)
    have htokenLength := Placeholder.length_of_ofToken? htoken
    rw [← hlower] at htake
    cases ph with
    | body => rw [htokenLength] at hlength; exact absurd hlength (by decide)
    | _ => exact absurd htake (by decide)

/-! ## Seeing a field -/

/-- An operand looks at what a placeholder stands for: it is the placeholder, or a path into the
body that leads to something in some body. -/
def Reaches (operand : Text) (ph : Placeholder) : Prop :=
  Placeholder.ofToken? (core operand) = some ph ∨
    (ph = .body ∧ ∃ path ss, bodyPath? (core operand) = some path ∧
      JsonPath.steps (dropDot path) = .ok ss ∧ JsonPath.Leads ss)

/-- What an operand comes to under an operator depends on what a placeholder stands for. Of
`has(...)` the ordering operators see nothing, and that a number is there is never in doubt. -/
def Sees (o : Operator) (operand : Text) (ph : Placeholder) : Prop :=
  Reaches operand ph ∧
    (wrapper operand = .presence → o.isOrdering = false ∧ ph ≠ .domainExpiration)

/-- A lookup in a body that finds something has steps that lead somewhere. -/
theorem leads_of_lookupBody {path : Text} {body : Bytes} {r : Text × Nat}
    (h : lookupBody path body = some r) :
    ∃ ss, JsonPath.steps (dropDot path) = .ok ss ∧ JsonPath.Leads ss := by
  unfold lookupBody at h
  cases heval : JsonPath.eval (dropDot path) body with
  | error e => rw [heval] at h; cases h
  | ok r' => exact JsonPath.leads_of_eval heval

/-- Without a context an operand comes to the same on probe results that differ in a field only
that it does not reach. -/
theorem resolve_eq_of_not_reaches {operand : Text} {ph : Placeholder} (h : ¬ Reaches operand ph)
    {p q : Probe} (hpq : p.DifferOnlyIn q ph) :
    resolve operand p none = resolve operand q none := by
  cases route operand none with
  | context hcontext => cases hcontext
  | @fixed ph' htoken heq =>
    have hagree : p.AgreesOn q ph' := by
      refine hpq.agreesOn ?_
      rintro rfl
      exact h (Or.inl htoken)
    exact Option.some.inj (by rw [← heq, ← heq, ofFixed_congr hagree])
  | @body path hpath heq =>
    by_cases hbody : ph = .body
    · have hnone : ∀ body, lookupBody path body = none := by
        intro body
        cases hlookup : lookupBody path body with
        | none => rfl
        | some r =>
          obtain ⟨ss, hsteps, hleads⟩ := leads_of_lookupBody hlookup
          exact absurd (Or.inr ⟨hbody, path, ss, hpath, hsteps, hleads⟩) h
      rw [heq, heq, hnone, hnone]
    · rw [heq, heq, show p.body = q.body from hpq.agreesOn (Ne.symm hbody)]
  | nothing heq => rw [heq, heq]

theorem ofFixed_presence {p : Probe} {ph : Placeholder} {t : Text}
    (h : ofFixed .presence p ph = some t) : ∃ b, t = Text.ofBool b := by
  cases ph <;> simp only [ofFixed, ofBody, Wrapper.apply, Option.some.injEq, reduceCtorEq] at h <;>
    exact ⟨_, h.symm⟩

/-- Asking for the length of a fixed field gives a number. -/
theorem ofFixed_length {p : Probe} {ph : Placeholder} {t : Text}
    (h : ofFixed .length p ph = some t) : ∃ n, t = Text.ofNat n := by
  cases ph with
  | context => exact absurd h (by simp [ofFixed])
  | body =>
    simp only [ofFixed, ofBody, Option.some.injEq] at h
    split at h <;> exact ⟨_, h.symm⟩
  | _ => exact ⟨_, (Option.some.inj h).symm⟩

theorem ofLookup_presence (raw : Text) (r : Option (Text × Nat)) :
    ofLookup .presence raw r = .found (Text.ofBool r.isSome) := by
  cases r <;> rfl

/-- Asking for a length gives a number or fails with the lookup. -/
theorem ofLookup_length (raw : Text) (r : Option (Text × Nat)) :
    (∃ n, ofLookup .length raw r = .found (Text.ofNat n)) ∨
      ofLookup .length raw r = .failed raw := by
  cases r with
  | none => exact Or.inr rfl
  | some r => exact Or.inl ⟨r.2, rfl⟩

/-- Under `has` everything is a truth value. -/
theorem resolve_presence {operand : Text} (h : wrapper operand = .presence) (p : Probe)
    (context : Option Context) :
    ∃ b, resolve operand p context = .found (Text.ofBool b) := by
  cases route operand context with
  | context _ _ heq =>
    rw [heq, h]
    exact ⟨_, ofLookup_presence _ _⟩
  | fixed _ heq =>
    obtain ⟨t, hfixed, ht⟩ := Option.map_eq_some_iff.1 (heq p)
    rw [h] at hfixed
    obtain ⟨b, rfl⟩ := ofFixed_presence hfixed
    exact ⟨b, ht.symm⟩
  | body _ heq =>
    rw [heq, h]
    exact ⟨_, ofLookup_presence _ _⟩
  | nothing heq =>
    rw [heq, h]
    exact ⟨false, rfl⟩

/-- Under `len` everything is a number, unless a lookup fails. -/
theorem resolve_length {operand : Text} (h : wrapper operand = .length) (p : Probe)
    (context : Option Context) :
    (∃ n, resolve operand p context = .found (Text.ofNat n)) ∨
      resolve operand p context = .failed (Text.trim operand) := by
  cases route operand context with
  | context _ _ heq =>
    rw [heq, h]
    exact ofLookup_length _ _
  | fixed _ heq =>
    obtain ⟨t, hfixed, ht⟩ := Option.map_eq_some_iff.1 (heq p)
    rw [h] at hfixed
    obtain ⟨n, rfl⟩ := ofFixed_length hfixed
    exact Or.inl ⟨n, ht.symm⟩
  | body _ heq =>
    rw [heq, h]
    exact ofLookup_length _ _
  | nothing heq =>
    rw [heq, h]
    exact Or.inr rfl

/-- An operand with a path into the body comes to what is found there. -/
theorem resolve_of_bodyPath? {operand path : Text} (h : bodyPath? (core operand) = some path)
    (p : Probe) :
    resolve operand p none =
      ofLookup (wrapper operand) (Text.trim operand) (lookupBody path p.body) := by
  rw [resolve_none]
  unfold resolveObserved
  rw [ofToken?_of_bodyPath? h, Option.bind_none, h]

/-- The presence of a number is never in doubt. -/
theorem resolve_presence_domainExpiration {operand : Text} (hw : wrapper operand = .presence)
    (h : Reaches operand .domainExpiration) (p : Probe) :
    resolve operand p none = .found (Text.ofBool true) := by
  rcases h with htoken | ⟨hbody, -⟩
  · refine resolve_of_ofToken? htoken ?_
    rw [hw, ofFixed, Wrapper.apply, bne_iff_ne.2 (Text.ofNat_ne_nil _)]
  · exact absurd hbody (by decide)

end Operand

/-- What an operator takes of the text of an operand: the text or its number. -/
def Operator.view (o : Operator) (t : Text) : Text ⊕ Except Abort Int :=
  if o.isOrdering then .inr t.toNumber else .inl t

namespace Operand

theorem toNumber_ofBool (b : Bool) : (Text.ofBool b).toNumber = .ok 0 := by
  cases b <;> decide +kernel

/-- An operator takes the same of an operand that does not see a field, whatever the field holds. -/
theorem view_eq_of_not_sees {o : Operator} {operand : Text} {ph : Placeholder}
    (h : ¬ Sees o operand ph) {p q : Probe} (hpq : p.DifferOnlyIn q ph)
    (context : Option Context) :
    o.view (resolve operand p context).text = o.view (resolve operand q context).text := by
  have hnone : o.view (resolve operand p none).text = o.view (resolve operand q none).text := by
    by_cases hreach : Reaches operand ph
    · -- What reaches a field without seeing it is under `has`.
      have hblind : wrapper operand = .presence ∧
          (o.isOrdering = true ∨ ph = .domainExpiration) := by
        by_contra hsight
        refine h ⟨hreach, fun hw => ⟨?_, ?_⟩⟩
        · exact Bool.eq_false_iff.2 fun hordering => hsight ⟨hw, Or.inl hordering⟩
        · exact fun hph => hsight ⟨hw, Or.inr hph⟩
      obtain ⟨hw, hordering | rfl⟩ := hblind
      · obtain ⟨b, hb⟩ := resolve_presence hw p none
        obtain ⟨b', hb'⟩ := resolve_presence hw q none
        rw [hb, hb', Operator.view, Operator.view, if_pos hordering, if_pos hordering]
        simp only [Resolution.text, toNumber_ofBool]
      · rw [resolve_presence_domainExpiration hw hreach,
          resolve_presence_domainExpiration hw hreach]
    · rw [resolve_eq_of_not_reaches hreach hpq]
  rcases resolve_eq_none_or_lookup operand context with hobserved | ⟨c, path, -, -, hlookup⟩
  · rw [hobserved, hobserved, hnone]
  · rw [hlookup, hlookup]

/-! ## Two values of a field -/

/-- A probe result that holds a number in such a field. -/
def holding (n : Nat) : Placeholder → Probe
  | .body => { body := Utf8.encode (Text.ofNat n) }
  | .ip => { ip := Text.ofNat n }
  | .domainExpiration => { domainExpiration := .ofNat n }
  | _ => {}

theorem differOnlyIn_holding {ph : Placeholder} (hph : ph.Deferrable) (n : Nat) :
    (holding n ph).DifferOnlyIn {} ph := by
  rcases hph with rfl | rfl | rfl <;> exact rfl

/-- The number that makes an operand two: by itself, or by the length of its text. -/
def two : Wrapper → Nat
  | .length => 22
  | _ => 2

theorem ofFixed_holding {w : Wrapper} (hw : w ≠ .presence) {ph : Placeholder}
    (hph : ph.Deferrable) :
    ofFixed w (holding 1 ph) ph = some "1".toList ∧
      ofFixed w (holding (two w) ph) ph = some "2".toList := by
  rcases hph with rfl | rfl | rfl <;> cases w <;> first | exact absurd rfl hw | decide +kernel

/-- A body that has a number where steps lead to. -/
def nesting (n : Nat) (ss : List JsonPath.Step) : Probe :=
  { body := Utf8.encode (JsonPath.nest ss (.int n)).compact }

/-- A body can be made to hold any number where a path leads. -/
theorem lookupBody_nesting {path : Text} {ss : List JsonPath.Step}
    (hsteps : JsonPath.steps (dropDot path) = .ok ss) (hleads : JsonPath.Leads ss) {n : Nat}
    (hn : n < 2 ^ 64) :
    lookupBody path (nesting n ss).body = some (Text.ofNat n, (Text.ofNat n).length) := by
  have hword : Json.IsWord (.whole n) := ⟨n, rfl, by omega, by omega⟩
  rw [lookupBody, nesting, JsonPath.eval_nest hsteps hleads hword]
  rfl

theorem ofLookup_two {w : Wrapper} (hw : w ≠ .presence) (raw : Text) :
    ofLookup w raw (some (Text.ofNat 1, (Text.ofNat 1).length)) = .found "1".toList ∧
      ofLookup w raw (some (Text.ofNat (two w), (Text.ofNat (two w)).length)) =
        .found "2".toList := by
  cases w with
  | none => exact ⟨rfl, rfl⟩
  | length => exact ⟨rfl, rfl⟩
  | presence => exact absurd rfl hw

/-- Where an operand reaches a field, a value of the field makes it one and another makes it two,
plain or as a length, on a probe result that is empty otherwise. -/
theorem exists_one_two {operand : Text} {ph : Placeholder} (hph : ph.Deferrable)
    (h : Reaches operand ph) (hw : wrapper operand ≠ .presence) :
    ∃ p q : Probe, p.DifferOnlyIn {} ph ∧ q.DifferOnlyIn {} ph ∧
      resolve operand p none = .found "1".toList ∧ resolve operand q none = .found "2".toList := by
  rcases h with htoken | ⟨rfl, path, ss, hpath, hsteps, hleads⟩
  · obtain ⟨hone, htwo⟩ := ofFixed_holding hw hph
    exact ⟨_, _, differOnlyIn_holding hph 1, differOnlyIn_holding hph (two (wrapper operand)),
      resolve_of_ofToken? htoken hone, resolve_of_ofToken? htoken htwo⟩
  · obtain ⟨hone, htwo⟩ := ofLookup_two hw (Text.trim operand)
    have hsmall : two (wrapper operand) < 2 ^ 64 := by
      cases wrapper operand <;> decide
    refine ⟨nesting 1 ss, nesting (two (wrapper operand)) ss, rfl, rfl, ?_, ?_⟩
    · rw [resolve_of_bodyPath? hpath, lookupBody_nesting hsteps hleads (by decide), hone]
    · rw [resolve_of_bodyPath? hpath, lookupBody_nesting hsteps hleads hsmall, htwo]

/-- Under `has`, a value of the field that is there and one that is not make the two truth
values. -/
theorem exists_false_true {operand : Text} {ph : Placeholder} (hph : ph.Deferrable)
    (h : Reaches operand ph) (hw : wrapper operand = .presence) (hne : ph ≠ .domainExpiration) :
    ∃ p q : Probe, p.DifferOnlyIn {} ph ∧ q.DifferOnlyIn {} ph ∧
      resolve operand p none = .found "false".toList ∧
      resolve operand q none = .found "true".toList := by
  rcases h with htoken | ⟨rfl, path, ss, hpath, hsteps, hleads⟩
  · rcases hph with rfl | rfl | rfl
    · exact ⟨{}, holding 1 .body, rfl, rfl, resolve_of_ofToken? htoken (by rw [hw]; decide +kernel),
        resolve_of_ofToken? htoken (by rw [hw]; decide +kernel)⟩
    · exact ⟨{}, holding 1 .ip, rfl, rfl, resolve_of_ofToken? htoken (by rw [hw]; decide +kernel),
        resolve_of_ofToken? htoken (by rw [hw]; decide +kernel)⟩
    · exact absurd rfl hne
  · refine ⟨{}, nesting 1 ss, rfl, rfl, ?_, ?_⟩
    · -- The empty body is no document, so that the lookup fails.
      have hmalformed : lookupBody path ({} : Probe).body = none := by
        rw [lookupBody, JsonPath.eval_of_steps hsteps]
        rfl
      rw [resolve_of_bodyPath? hpath, hmalformed, hw]
      rfl
    · rw [resolve_of_bodyPath? hpath, lookupBody_nesting hsteps hleads (by decide), hw]
      rfl

end Operand

end HealthCheck
