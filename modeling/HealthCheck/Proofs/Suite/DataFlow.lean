import HealthCheck.Proofs.Context.Paths
import HealthCheck.Proofs.Operand.Wrappers
import HealthCheck.Proofs.Suite.Run

/-!
# Data flow between the steps of a suite

What a step captures stays in the context until something is captured at an overlapping key, and
until then every later step reads it as `[CONTEXT].key`.

The mappings of a step fold into the context one by one (`Capture.context_applyFrom`), so a run is a
sequence of writes at paths. A write apart from a key leaves what stands there alone, hence the
value that was captured last at a key is what a walk along the key finds.
-/

namespace HealthCheck

/-! ## Mappings as writes -/

namespace Capture

/-- What a mapping does to a context: it writes the value that it captures, if any. -/
def write (p : Probe) (c : Context) (m : Text × Text) : Context :=
  match value? m.2 p with
  | .ok v => Context.setAt (Context.segments m.1) v c
  | .error _ => c

theorem write_congr {p q : Probe} (h : p.SameObservations q) : write p = write q := by
  funext c m
  unfold write
  rw [h.value?_eq]

/-- Without empty keys no mapping ends the work of the others. -/
theorem context_applyFrom {mappings : List (Text × Text)} (h : ∀ m ∈ mappings, m.1 ≠ [])
    (p : Probe) (c : Context) (stored : Fields Json) (failures : List Error) :
    (applyFrom p mappings c stored failures).context = mappings.foldl (write p) c := by
  induction mappings generalizing c stored failures with
  | nil => rfl
  | cons m rest ih =>
    have hrest : ∀ m' ∈ rest, m'.1 ≠ [] := fun m' hm' => h m' (List.mem_cons_of_mem m hm')
    have hkey : m.1 ≠ [] := h m List.mem_cons_self
    rw [List.foldl_cons, applyFrom, write]
    cases value? m.2 p with
    | ok v => simp only [Context.set, if_neg hkey, ih hrest]
    | error e => simp only [ih hrest]

/-- Mappings leave alone what stands at a key that no captured one overlaps. -/
theorem walk?_foldl_write {p : Probe} {key : Text} {mappings : List (Text × Text)}
    (h : ∀ m ∈ mappings, ∀ v, value? m.2 p = .ok v → ¬ Context.Overlap m.1 key) (c : Context) :
    Context.walk? (Context.segments key) (.object (mappings.foldl (write p) c)) =
      Context.walk? (Context.segments key) (.object c) := by
  induction mappings generalizing c with
  | nil => rfl
  | cons m rest ih =>
    rw [List.foldl_cons, ih fun m' hm' => h m' (List.mem_cons_of_mem m hm'), write]
    cases hv : value? m.2 p with
    | error e => rfl
    | ok v =>
      exact Context.walk?_setAt_of_apart
        (Context.apart_segments_iff.2 (h m List.mem_cons_self v hv)) v c

end Capture

/-! ## Operands for context keys -/

namespace Operand

/-- What stands at a key of a context is what a lookup of the key finds. -/
theorem lookupContext_key {key : Text} (hkey : key ≠ []) {c : Context} {v : Json}
    (h : Context.walk? (Context.segments key) (.object c) = some v) :
    lookupContext ('.' :: key) c = some (JsonPath.text v, contextLength v) := by
  simp only [lookupContext, dropDot, if_neg hkey, Context.get, h]

/-- `[CONTEXT].key` resolves to the text of what stands at the key. -/
theorem resolve_contextKey {key : Text} (hkey : key ≠ []) (hend : ¬ Text.EndsBlank key)
    {c : Context} {v : Json} (h : Context.walk? (Context.segments key) (.object c) = some v)
    (p : Probe) :
    resolve ("[CONTEXT].".toList ++ key) p (some c) = .found (JsonPath.text v) := by
  have hstarts : StartsWith ("[CONTEXT].".toList ++ key) .context ('.' :: key) :=
    ⟨"[CONTEXT]".toList, by decide, rfl⟩
  have hraw : Text.trim ("[CONTEXT].".toList ++ key) = "[CONTEXT].".toList ++ key :=
    Text.trim_of_ends (c := '[') rfl (by decide)
      (fun he => hend ((Text.endsBlank_append (s := "[CONTEXT].".toList) hkey).1 he))
  have hresolve := resolve_wrap_context (w := .none) hstarts (fun _ => hraw) p c
  rw [lookupContext_key hkey h] at hresolve
  exact hresolve

/-- `has([CONTEXT].key)` holds where something stands at the key. -/
theorem resolve_has_contextKey {key : Text} (hkey : key ≠ []) {c : Context} {v : Json}
    (h : Context.walk? (Context.segments key) (.object c) = some v) (p : Probe) :
    resolve ("has([CONTEXT].".toList ++ key ++ ")".toList) p (some c) =
      .found "true".toList := by
  have hstarts : StartsWith ("[CONTEXT].".toList ++ key) .context ('.' :: key) :=
    ⟨"[CONTEXT]".toList, by decide, rfl⟩
  have hresolve := resolve_wrap_context (w := .presence) hstarts (fun hw => nomatch hw) p c
  rw [lookupContext_key hkey h] at hresolve
  exact hresolve

end Operand

namespace Suite

/-! ## Captures in a run -/

/-- No store mapping of the suite has the empty key. -/
def HasStoreKeys (s : Suite) : Prop := ∀ e ∈ s.endpoints, ∀ m ∈ e.store.entries, m.1 ≠ []

/-- The step at position `i` runs, and its mapping at position `a`, which has the given key,
captures the given value from its result. -/
def Captures (s : Suite) (now : Timestamp) (i a : Nat) (key : Text) (v : Json) : Prop :=
  ∃ e p operand, s.endpoints[i]? = some e ∧ s.resultAt? now i = some p ∧
    e.store.entries[a]? = some (key, operand) ∧ Capture.value? operand p = .ok v

variable {s : Suite} {now : Timestamp} {i : Nat}

/-- A step that runs folds its mappings into the context. -/
theorem Reaches.of_ran (hs : s.HasStoreKeys) {c' : Context} (h : s.Reaches now (i + 1) c')
    {e : Endpoint} {p : Probe} (he : s.endpoints[i]? = some e) (hp : s.resultAt? now i = some p) :
    ∃ c, s.Reaches now i c ∧ c' = e.store.entries.foldl (Capture.write p) c := by
  obtain ⟨r', hr', rfl⟩ := h
  obtain ⟨r, hr, hstep⟩ := exists_advances he hr'
  have hkeys : ∀ m ∈ e.store.entries, m.1 ≠ [] := hs e (List.mem_of_getElem? he)
  rw [hp] at hstep
  refine ⟨r.context, ⟨r, hr, rfl⟩, ?_⟩
  cases hstep with
  | runs =>
    show (stepResult now r.context e).2 = _
    rw [Capture.write_congr (sameObservations_stepResult now r.context e)]
    exact Capture.context_applyFrom hkeys _ _ _ _

/-- A step that is skipped leaves the context alone, and so does the end of the suite. -/
theorem Reaches.of_skipped {c' : Context} (h : s.Reaches now (i + 1) c')
    (hp : s.resultAt? now i = none) : s.Reaches now i c' := by
  obtain ⟨r', hr', rfl⟩ := h
  cases he : s.endpoints[i]? with
  | none =>
    have hlen : s.endpoints.length ≤ i := List.getElem?_eq_none_iff.1 he
    rw [progressBefore, List.take_of_length_le (by omega),
      ← List.take_of_length_le hlen] at hr'
    exact ⟨r', hr', rfl⟩
  | some e =>
    obtain ⟨r, hr, hstep⟩ := exists_advances he hr'
    rw [hp] at hstep
    cases hstep with
    | skips => exact ⟨r', hr, rfl⟩

/-- A whole step leaves alone what stands at a key that none of its captures overlaps. -/
theorem Reaches.exists_walk?_eq (hs : s.HasStoreKeys) {c' : Context}
    (hc' : s.Reaches now (i + 1) c') {key : Text}
    (h : ∀ a k v, s.Captures now i a k v → ¬ Context.Overlap k key) :
    ∃ c, s.Reaches now i c ∧
      Context.walk? (Context.segments key) (.object c') =
        Context.walk? (Context.segments key) (.object c) := by
  cases hp : s.resultAt? now i with
  | none => exact ⟨c', hc'.of_skipped hp, rfl⟩
  | some p =>
    obtain ⟨-, e, -, he, -⟩ := resultAt?_eq_some_iff.1 hp
    obtain ⟨c, hc, rfl⟩ := hc'.of_ran hs he hp
    refine ⟨c, hc, Capture.walk?_foldl_write (fun m hm v hv => ?_) c⟩
    obtain ⟨a, ha⟩ := List.getElem?_of_mem hm
    exact h a m.1 v ⟨e, p, m.2, he, hp, ha, hv⟩

/-- Right after its step, a captured value stands at its key unless a later mapping of the step
captured at an overlapping one. -/
theorem Captures.walk?_eq (hs : s.HasStoreKeys) {a : Nat} {key : Text} {v : Json}
    (hv : s.Captures now i a key v)
    (h : ∀ b k w, s.Captures now i b k w → a < b → ¬ Context.Overlap k key) {c : Context}
    (hc : s.Reaches now (i + 1) c) :
    Context.walk? (Context.segments key) (.object c) = some v := by
  obtain ⟨e, p, operand, he, hp, ha, hv⟩ := hv
  obtain ⟨hlen, hget⟩ := List.getElem?_eq_some_iff.1 ha
  have hsplit : e.store.entries =
      e.store.entries.take a ++ (key, operand) :: e.store.entries.drop (a + 1) := by
    rw [← hget, List.getElem_cons_drop, List.take_append_drop]
  obtain ⟨c, -, rfl⟩ := hc.of_ran hs he hp
  rw [hsplit, List.foldl_append, List.foldl_cons, Capture.walk?_foldl_write, Capture.write, hv]
  · exact Context.walk?_setAt_self (Context.segments_ne_nil key) v _
  · intro m hm w hw
    obtain ⟨b, hb⟩ := List.getElem?_of_mem hm
    rw [List.getElem?_drop] at hb
    exact h (a + 1 + b) m.1 w ⟨e, p, m.2, he, hp, hb, hw⟩ (by omega)

/-- The conditions of a step that runs are evaluated in the context that the run has come to. -/
theorem Reaches.exists_evaluation {c : Context} (hc : s.Reaches now i c) {e : Endpoint} {p : Probe}
    (he : s.endpoints[i]? = some e) (hp : s.resultAt? now i = some p) :
    ∃ q, e.evaluateHealth now (some c) = .ok q ∧ p.conditionOutcomes = q.conditionOutcomes ∧
      p.success = q.success := by
  obtain ⟨r, hr, rfl⟩ := hc
  obtain ⟨r', e', hr', he', -, hover, rfl⟩ := resultAt?_eq_some_iff.1 hp
  obtain rfl := Option.some.inj (he.symm.trans he')
  obtain rfl := Except.ok.inj (hr.symm.trans hr')
  exact ⟨_, Endpoint.evaluateHealth_eq_ok_iff.2 ⟨hover, rfl⟩, evaluation_stepResult now r.context e⟩

/-- **Data flow.** What a step captured under a key is what every later step reads there, unless
something was captured at an overlapping key in between. The context in which it reads that is the
one in which its conditions are evaluated. -/
theorem captured_value_reaches_later_steps (hs : s.HasStoreKeys) {a j : Nat} {key : Text}
    {v : Json} (hv : s.Captures now i a key v) (hij : i < j) (hend : ¬ Text.EndsBlank key)
    (hclear : ∀ t b k w, s.Captures now t b k w → (t = i ∧ a < b ∨ i < t ∧ t < j) →
      ¬ Context.Overlap k key)
    {c : Context} (hc : s.Reaches now j c) :
    (∀ p : Probe,
      Operand.resolve ("[CONTEXT].".toList ++ key) p (some c) = .found (JsonPath.text v) ∧
      Operand.resolve ("has([CONTEXT].".toList ++ key ++ ")".toList) p (some c) =
        .found "true".toList) ∧
    ∀ e p, s.endpoints[j]? = some e → s.resultAt? now j = some p →
      ∃ q, e.evaluateHealth now (some c) = .ok q ∧
        p.conditionOutcomes = q.conditionOutcomes ∧ p.success = q.success := by
  have hkey : key ≠ [] := by
    obtain ⟨e, -, operand, he, -, ha, -⟩ := hv
    exact hs e (List.mem_of_getElem? he) (key, operand) (List.mem_of_getElem? ha)
  -- The induction is on the steps between: each of them keeps what stands at the key.
  have hwalk : ∀ n c, i + 1 + n ≤ j → s.Reaches now (i + 1 + n) c →
      Context.walk? (Context.segments key) (.object c) = some v := by
    intro n
    induction n with
    | zero =>
      intro c _ hc
      exact hv.walk?_eq hs (fun b k w hw hab => hclear i b k w hw (Or.inl ⟨rfl, hab⟩)) hc
    | succ n ih =>
      intro c hn hc
      have hc : s.Reaches now (i + 1 + n + 1) c := hc
      obtain ⟨c', hc', hkeeps⟩ := Reaches.exists_walk?_eq hs hc
        fun b k w hw => hclear _ b k w hw (Or.inr ⟨by omega, by omega⟩)
      rw [hkeeps]
      exact ih c' (by omega) hc'
  have hj : Context.walk? (Context.segments key) (.object c) = some v := by
    refine hwalk (j - (i + 1)) c (by omega) ?_
    rw [Nat.add_sub_of_le hij]
    exact hc
  exact ⟨fun p => ⟨Operand.resolve_contextKey hkey hend hj p,
    Operand.resolve_has_contextKey hkey hj p⟩, fun e p he hp => hc.exists_evaluation he hp⟩

/-- A step that fails after it has captured two neighbours. -/
def loginStep : Endpoint where
  name := "login".toList
  conditions := [⟨"[STATUS] == 201".toList⟩]
  store := ⟨[("session.id".toList, "[STATUS]".toList), ("session.ip".toList, "[IP]".toList)],
    by decide⟩
  result := { status := 200, ip := "10.0.0.1".toList }

/-- A step that would overwrite what `loginStep` captured. -/
def auditStep : Endpoint where
  name := "audit".toList
  conditions := [⟨"[STATUS] == 200".toList⟩]
  store := ⟨[("session".toList, "[IP]".toList)], by decide⟩
  result := { status := 200 }

/-- A step that reads what `loginStep` captured, after a failure too. -/
def logoutStep : Endpoint where
  name := "logout".toList
  conditions := [⟨"[CONTEXT].session.id == 200".toList⟩]
  store := ⟨[], List.nodup_nil⟩
  alwaysRun := true

/-- A failure, a step that is skipped for it, and a step that runs nevertheless. -/
def sessionSuite : Suite where
  name := "session".toList
  endpoints := [loginStep, auditStep, logoutStep]

/-- The context that `sessionSuite` has come to before its third step. -/
def sessionContext : Context :=
  [("session".toList, .object [("id".toList, .int 200), ("ip".toList, .string "10.0.0.1".toList)])]

/-- The third step of `sessionSuite` reads what the first one captured. -/
theorem sessionSuite_reads_id :
    sessionSuite.HasStoreKeys ∧
      sessionSuite.Captures sessionStart 0 0 "session.id".toList (.int 200) ∧
      sessionSuite.Reaches sessionStart 2 sessionContext ∧
      Operand.resolve ("[CONTEXT].".toList ++ "session.id".toList) {} (some sessionContext) =
        .found "200".toList ∧
      Operand.resolve ("has([CONTEXT].".toList ++ "session.id".toList ++ ")".toList) {}
        (some sessionContext) = .found "true".toList ∧
      ∃ p q, sessionSuite.resultAt? sessionStart 2 = some p ∧
        logoutStep.evaluateHealth sessionStart (some sessionContext) = .ok q ∧
        p.conditionOutcomes = q.conditionOutcomes ∧ p.success = q.success := by
  have hkeys : sessionSuite.HasStoreKeys := by unfold HasStoreKeys; decide
  have hcapture : sessionSuite.Captures sessionStart 0 0 "session.id".toList (.int 200) :=
    ⟨_, _, "[STATUS]".toList, rfl, rfl, rfl, rfl⟩
  have hreaches : sessionSuite.Reaches sessionStart 2 sessionContext := ⟨_, rfl, rfl⟩
  have hskipped : sessionSuite.resultAt? sessionStart 1 = none := rfl
  have hlast : sessionSuite.resultAt? sessionStart 2 = some _ := rfl
  have hend : ¬ Text.EndsBlank "session.id".toList := by
    rintro ⟨c, hc, hblank⟩
    obtain rfl : 'd' = c := Option.some.inj hc
    exact absurd hblank (by decide)
  have hclear : ∀ t b k w, sessionSuite.Captures sessionStart t b k w →
      (t = 0 ∧ 0 < b ∨ 0 < t ∧ t < 2) → ¬ Context.Overlap k "session.id".toList := by
    rintro t b k w ⟨e, p, operand, he, hp, hm, -⟩ (⟨rfl, hb⟩ | ⟨hlower, hupper⟩)
    · obtain rfl : loginStep = e := Option.some.inj he
      have hb2 : b < 2 := (List.getElem?_eq_some_iff.1 hm).1
      obtain rfl : b = 1 := by omega
      obtain rfl : "session.ip".toList = k := congrArg Prod.fst (Option.some.inj hm)
      unfold Context.Overlap
      decide
    · obtain rfl : t = 1 := by omega
      rw [hskipped] at hp
      exact absurd hp (Option.some_ne_none p).symm
  obtain ⟨hreads, hevaluates⟩ :=
    captured_value_reaches_later_steps hkeys hcapture (by decide) hend hclear hreaches
  obtain ⟨q, hq⟩ := hevaluates logoutStep _ rfl hlast
  exact ⟨hkeys, hcapture, hreaches, (hreads {}).1, (hreads {}).2, _, q, hlast, hq⟩

end Suite

end HealthCheck
