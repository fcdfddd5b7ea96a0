import HealthCheck.Proofs.Suite.Capture

/-!
# What mappings store and report

Mappings are applied one after the other. One whose value cannot be captured is remembered and
leaves the others alone, so that all failures are reported together. One that captures a value under
the empty key ends the work instead: what stands behind it is not stored, and the failures in front
of it are not reported. `Capture.apply_losesNothing_iff` says that this is the only loss.
-/

namespace HealthCheck

/-- The key for which a single cause says that its value could not be captured. -/
def Error.key? : Error → Option Text
  | .notCaptured key _ => some key
  | _ => none

/-- The keys for which an error says so, in order. -/
def Error.keys (e : Error) : List Text := e.causes.filterMap Error.key?

namespace Capture

/-- What a mapping is to store: the value that it captures, where its key is not empty. -/
def kept? (p : Probe) (m : Text × Text) : Option (Text × Json) :=
  match value? m.2 p with
  | .ok v => if m.1 = [] then none else some (m.1, v)
  | .error _ => none

/-- What is to be reported of a mapping whose value cannot be captured. -/
def refusal? (p : Probe) (m : Text × Text) : Option Error :=
  match value? m.2 p with
  | .ok _ => none
  | .error e => some (.notCaptured m.1 e)

/-- A mapping ends the work: it captures a value under the empty key. -/
def Blocks (p : Probe) (m : Text × Text) : Prop := m.1 = [] ∧ ∃ v, value? m.2 p = .ok v

/-- Writing the entries one after the other leads from one context to another. -/
def Stores (entries : Fields Json) (c c' : Context) : Prop :=
  entries.foldlM (fun c e => c.set e.1 e.2) c = .ok c'

/-- Everything that can be captured under a key is stored, and every mapping for which this is not
so is reported, in order. -/
structure LosesNothing (p : Probe) (mappings : List (Text × Text)) (c : Context) (r : Captured) :
    Prop where
  context : Stores (mappings.filterMap (kept? p)) c r.context
  ok_iff : (∃ fields, r.outcome = .ok fields) ↔ ∀ m ∈ mappings, Applies p m
  stored : ∀ fields, r.outcome = .ok fields → fields = mappings.filterMap (kept? p)
  reported : ∀ cause, r.outcome = .error cause →
    cause.keys = (mappings.filter fun m => (kept? p m).isNone).map Prod.fst

variable {p : Probe}

/-! ## One mapping -/

theorem kept?_of_error {m : Text × Text} {e : Error} (h : value? m.2 p = .error e) :
    kept? p m = none := by
  rw [kept?, h]

theorem kept?_of_ok {m : Text × Text} {v : Json} (hkey : m.1 ≠ []) (h : value? m.2 p = .ok v) :
    kept? p m = some (m.1, v) := by
  rw [kept?, h]
  exact if_neg hkey

theorem refusal?_of_error {m : Text × Text} {e : Error} (h : value? m.2 p = .error e) :
    refusal? p m = some (.notCaptured m.1 e) := by
  rw [refusal?, h]

theorem refusal?_of_ok {m : Text × Text} {v : Json} (h : value? m.2 p = .ok v) :
    refusal? p m = none := by
  rw [refusal?, h]

/-! ## Mappings that do not block -/

/-- Mappings that do not block are settled one by one, and the others go on from there. -/
theorem exists_applyFrom_append {front : List (Text × Text)} (h : ∀ m ∈ front, ¬ Blocks p m)
    (rest : List (Text × Text)) (c : Context) (stored : Fields Json) (failures : List Error) :
    ∃ c', Stores (front.filterMap (kept? p)) c c' ∧
      applyFrom p (front ++ rest) c stored failures =
        applyFrom p rest c' (stored ++ front.filterMap (kept? p))
          (failures ++ front.filterMap (refusal? p)) := by
  induction front generalizing c stored failures with
  | nil => exact ⟨c, rfl, by simp⟩
  | cons m front ih =>
    have hfront : ∀ m' ∈ front, ¬ Blocks p m' := fun m' hm' => h m' (List.mem_cons_of_mem m hm')
    rw [List.cons_append, applyFrom]
    cases hv : value? m.2 p with
    | error e =>
      obtain ⟨c', hstores, happly⟩ := ih hfront c stored (failures ++ [.notCaptured m.1 e])
      rw [List.filterMap_cons_none (kept?_of_error hv),
        List.filterMap_cons_some (refusal?_of_error hv)]
      exact ⟨c', hstores, by simpa using happly⟩
    | ok v =>
      have hkey : m.1 ≠ [] := fun hempty => h m List.mem_cons_self ⟨hempty, v, hv⟩
      have hset : c.set m.1 v = .ok (Context.setAt (Context.segments m.1) v c) := if_neg hkey
      obtain ⟨c', hstores, happly⟩ :=
        ih hfront (Context.setAt (Context.segments m.1) v c) (stored ++ [(m.1, v)]) failures
      rw [List.filterMap_cons_some (kept?_of_ok hkey hv),
        List.filterMap_cons_none (refusal?_of_ok hv)]
      refine ⟨c', ?_, ?_⟩
      · rw [Stores, List.foldlM_cons, hset]
        exact hstores
      · simp only [hset]
        simpa using happly

/-- Where no mapping blocks, all is stored that can be, and all else is reported. -/
theorem outcome_apply_of_not_blocks {mappings : StoreMappings}
    (h : ∀ m ∈ mappings.entries, ¬ Blocks p m) (c : Context) :
    Stores (mappings.entries.filterMap (kept? p)) c (apply mappings p c).context ∧
      (apply mappings p c).outcome =
        if mappings.entries.filterMap (refusal? p) = [] then
          .ok (mappings.entries.filterMap (kept? p))
        else .error (.several (mappings.entries.filterMap (refusal? p))) := by
  obtain ⟨c', hstores, happly⟩ := exists_applyFrom_append h [] c [] []
  rw [List.append_nil] at happly
  rw [apply, happly, applyFrom]
  exact ⟨hstores, by simp⟩

/-! ## Nothing is lost -/

/-- A mapping applies exactly if something is kept of it. -/
theorem applies_iff {m : Text × Text} : Applies p m ↔ (kept? p m).isSome = true := by
  unfold Applies kept?
  cases value? m.2 p with
  | error e => simp
  | ok v => by_cases hkey : m.1 = [] <;> simp [hkey]

/-- A mapping that does not block is applied or has a failure to be reported. -/
theorem applies_or_refused {m : Text × Text} (h : ¬ Blocks p m) :
    (Applies p m ∧ refusal? p m = none) ∨
      (¬ Applies p m ∧ ∃ e, refusal? p m = some (.notCaptured m.1 e)) := by
  cases hv : value? m.2 p with
  | error e =>
    refine Or.inr ⟨?_, e, refusal?_of_error hv⟩
    rw [applies_iff, kept?_of_error hv]
    exact Bool.false_ne_true
  | ok v =>
    have hkey : m.1 ≠ [] := fun hempty => h ⟨hempty, v, hv⟩
    exact Or.inl ⟨⟨hkey, v, hv⟩, refusal?_of_ok hv⟩

/-- Nothing is refused exactly if every mapping applies, where no key is empty. -/
theorem refusals_eq_nil_iff {mappings : List (Text × Text)} (h : ∀ m ∈ mappings, ¬ Blocks p m) :
    mappings.filterMap (refusal? p) = [] ↔ ∀ m ∈ mappings, Applies p m := by
  rw [List.filterMap_eq_nil_iff]
  refine forall₂_congr fun m hm => ?_
  rcases applies_or_refused (h m hm) with ⟨happlies, hnone⟩ | ⟨hfails, e, he⟩
  · simp [happlies, hnone]
  · simp [hfails, he]

/-- The failures of mappings that do not block name the keys of those that store nothing. -/
theorem keys_several_refusals {mappings : List (Text × Text)} (h : ∀ m ∈ mappings, ¬ Blocks p m) :
    (Error.several (mappings.filterMap (refusal? p))).keys =
      (mappings.filter fun m => (kept? p m).isNone).map Prod.fst := by
  induction mappings with
  | nil => rfl
  | cons m rest ih =>
    have hrest := ih fun m' hm' => h m' (List.mem_cons_of_mem m hm')
    rcases applies_or_refused (h m List.mem_cons_self) with ⟨happlies, hnone⟩ | ⟨hfails, e, he⟩
    · have hentry : (kept? p m).isNone = false :=
        Option.isNone_eq_false_iff.2 (applies_iff.1 happlies)
      rw [List.filterMap_cons_none hnone, hrest, List.filter_cons_of_neg (by simp [hentry])]
    · have hentry : (kept? p m).isNone = true :=
        Option.isNone_iff_eq_none.2
          (Option.not_isSome_iff_eq_none.1 fun hsome => hfails (applies_iff.2 hsome))
      rw [List.filterMap_cons_some he, List.filter_cons, if_pos hentry, List.map_cons, ← hrest]
      rfl

/-- Mappings of which none blocks lose nothing. -/
theorem losesNothing_of_not_blocks {mappings : StoreMappings}
    (h : ∀ m ∈ mappings.entries, ¬ Blocks p m) (c : Context) :
    LosesNothing p mappings.entries c (apply mappings p c) := by
  obtain ⟨hstores, houtcome⟩ := outcome_apply_of_not_blocks h c
  refine ⟨hstores, ?_, ?_, ?_⟩
  · rw [houtcome, ← refusals_eq_nil_iff h]
    split_ifs with hempty <;> simp [hempty]
  · intro fields hfields
    rw [houtcome] at hfields
    split_ifs at hfields
    exact (Except.ok.inj hfields).symm
  · intro cause hcause
    rw [houtcome] at hcause
    split_ifs at hcause
    rw [← Except.error.inj hcause, keys_several_refusals h]

/-! ## What an empty key loses -/

/-- No two mappings have the empty key, so that nothing blocks in front of one that does. -/
theorem not_blocks_of_mem_front {mappings : StoreMappings} {front behind : List (Text × Text)}
    {m : Text × Text} (hentries : mappings.entries = front ++ m :: behind) (hm : m.1 = []) :
    ∀ m' ∈ front, ¬ Blocks p m' := by
  rintro m' hm' ⟨hempty, -⟩
  have hdistinct := mappings.distinct
  rw [hentries, Fields.keys, List.map_append, List.nodup_append] at hdistinct
  exact hdistinct.2.2 m'.1 (List.mem_map_of_mem hm') m.1 List.mem_cons_self (hempty.trans hm.symm)

/-- A mapping that blocks stores what stands in front of it and is all that is reported. -/
theorem apply_of_blocks {mappings : StoreMappings} {front behind : List (Text × Text)}
    {m : Text × Text} (hentries : mappings.entries = front ++ m :: behind) (hm : Blocks p m)
    (c : Context) :
    Stores (front.filterMap (kept? p)) c (apply mappings p c).context ∧
      (apply mappings p c).outcome = .error .emptyPath := by
  obtain ⟨hkey, v, hv⟩ := hm
  obtain ⟨c', hstores, happly⟩ :=
    exists_applyFrom_append (not_blocks_of_mem_front hentries hkey) (m :: behind) c [] []
  have hset : c'.set m.1 v = .error .emptyPath := if_pos hkey
  rw [apply, hentries, happly, applyFrom]
  simp only [hv, hset]
  exact ⟨hstores, trivial⟩

/-- **A value captured under the empty key is the only loss.** Mappings lose nothing exactly when
none of them captures a value under the empty key. One that does is the end: the mappings in front
of it are stored, those behind it are not, and the error names no mapping. -/
theorem apply_losesNothing_iff (mappings : StoreMappings) (p : Probe) (c : Context) :
    (LosesNothing p mappings.entries c (apply mappings p c) ↔
      ∀ m ∈ mappings.entries, m.1 = [] → ∃ e, value? m.2 p = .error e) ∧
    ∀ front m behind, mappings.entries = front ++ m :: behind → Blocks p m →
      Stores (front.filterMap (kept? p)) c (apply mappings p c).context ∧
        (apply mappings p c).outcome = .error .emptyPath := by
  refine ⟨⟨?_, ?_⟩, fun front m behind hentries hm => apply_of_blocks hentries hm c⟩
  · intro hloses m hm hkey
    cases hv : value? m.2 p with
    | error e => exact ⟨e, rfl⟩
    | ok v =>
      obtain ⟨front, behind, hentries⟩ := List.append_of_mem hm
      have hreported := hloses.reported _ (apply_of_blocks hentries ⟨hkey, v, hv⟩ c).2
      -- The mapping itself stores nothing, and no key is named.
      have hunnamed : m ∈ mappings.entries.filter fun m => (kept? p m).isNone := by
        refine List.mem_filter.2 ⟨hm, ?_⟩
        rw [kept?, hv]
        simp [hkey]
      exact absurd (List.map_eq_nil_iff.1 hreported.symm) (List.ne_nil_of_mem hunnamed)
  · intro hfails
    refine losesNothing_of_not_blocks ?_ c
    rintro m hm ⟨hkey, v, hv⟩
    obtain ⟨e, he⟩ := hfails m hm hkey
    rw [hv] at he
    exact absurd he (by simp)

/-- Mappings with an empty key between a failure and a success. -/
def strayMappings : StoreMappings where
  entries := [("id".toList, "[BODY].id".toList), ([], "[STATUS]".toList),
    ("status".toList, "[STATUS]".toList)]
  distinct := by decide

/-- A probe result with a status and no body. -/
def bodilessProbe : Probe := { status := 200 }

/-- The status is not stored behind the empty key, and the failure in front of it is not
reported. -/
theorem empty_key_loses_neighbours :
    strayMappings.entries.filterMap (kept? bodilessProbe) = [("status".toList, .int 200)] ∧
      (apply strayMappings bodilessProbe []).context = [] ∧
      (apply strayMappings bodilessProbe []).outcome = .error .emptyPath ∧
      ¬ LosesNothing bodilessProbe strayMappings.entries []
        (apply strayMappings bodilessProbe []) := by
  have houtcome : (apply strayMappings bodilessProbe []).outcome = .error .emptyPath := rfl
  refine ⟨rfl, rfl, houtcome, fun hloses => ?_⟩
  exact absurd (hloses.reported _ houtcome) (by decide)

end Capture

end HealthCheck
