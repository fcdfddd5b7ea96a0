import HealthCheck.Manifest
import HealthCheck.Proofs.Endpoint.Redaction
import HealthCheck.Proofs.Text.Cutting

/-!
# Valid manifests

The check of an endpoint or a suite goes through its faults in order and finds the first one, while
that of a manifest goes on from one part to the next. Any of them stops where it comes to a
condition that stops as it is written. `Finds` says both of a search, and one lemma for each level
says it of the checks. Checks along a list carry the names seen so far (`faultsAlong`), which
amounts to the names being fresh and different from each other (`Fresh`).

A manifest that is valid evaluates cleanly: where no condition of an endpoint or step stops, none
records an error, whatever the probe observed and whatever the context holds, and none disturbs the
others. Every condition that is not valid is rejected whenever it is evaluated.
-/

namespace HealthCheck

/-! ## Fresh names -/

/-- The names differ from each other and from those seen before. -/
def Fresh (seen names : List Text) : Prop := names.Nodup ∧ ∀ n ∈ names, n ∉ seen

theorem fresh_nil (seen : List Text) : Fresh seen [] := ⟨List.nodup_nil, by simp⟩

theorem fresh_cons {seen names : List Text} {n : Text} :
    Fresh seen (n :: names) ↔ n ∉ seen ∧ Fresh (n :: seen) names := by
  simp only [Fresh, List.nodup_cons, List.mem_cons, not_or, forall_eq_or_imp]
  constructor
  · rintro ⟨⟨hn, hnodup⟩, hseen, hrest⟩
    refine ⟨hseen, hnodup, fun k hk => ⟨?_, hrest k hk⟩⟩
    rintro rfl
    exact hn hk
  · rintro ⟨hseen, hnodup, hrest⟩
    exact ⟨⟨fun hn => (hrest n hn).1 rfl, hnodup⟩, hseen, fun k hk => (hrest k hk).2⟩

/-! ## Checks along a list -/

/-- Faults along a list of named things, given the names before them: where a name is repeated the
error for that, then the faults of the thing itself. -/
def faultsAlong {α : Type} (name : α → Text) (repeated : Text → Error) (faults : α → List Error) :
    (seen : List Text) → List α → List Error
  | _, [] => []
  | seen, a :: as =>
    (if name a ∈ seen then [repeated (name a)] else []) ++ faults a ++
      faultsAlong name repeated faults (name a :: seen) as

/-- Nothing is wrong along a list exactly if all names are fresh and nothing is wrong with any
thing. -/
theorem faultsAlong_eq_nil_iff {α : Type} {name : α → Text} {repeated : Text → Error}
    {faults : α → List Error} {seen : List Text} {as : List α} :
    faultsAlong name repeated faults seen as = [] ↔
      Fresh seen (as.map name) ∧ ∀ a ∈ as, faults a = [] := by
  induction as generalizing seen with
  | nil => simp [faultsAlong, fresh_nil]
  | cons a as ih =>
    rw [faultsAlong, List.map_cons, fresh_cons, List.forall_mem_cons, List.append_eq_nil_iff,
      List.append_eq_nil_iff, ih]
    by_cases hseen : name a ∈ seen
    · simp [hseen]
    · rw [if_neg hseen]
      simp only [hseen, not_false_eq_true, true_and]
      exact and_left_comm

/-! ## Searches that may stop -/

/-- What a search for errors comes to: it stops, or finds errors. -/
structure Finds (search : Except Abort (List Error)) (stops : Prop) (errors : List Error) :
    Prop where
  stopped : stops → search = .error .overflow
  found : ¬ stops → search = .ok errors

open Manifest (problem)

namespace Finds

variable {search : Except Abort (List Error)} {r r' : Except Abort (Except Error Unit)}
  {stops stops' : Prop} {fs gs : List Error}

theorem of_iff (h : Finds search stops fs) (hiff : stops ↔ stops') : Finds search stops' fs :=
  ⟨fun hstops => h.stopped (hiff.2 hstops),
    fun hgoes => h.found fun hstops => hgoes (hiff.1 hstops)⟩

/-- A check succeeds exactly where it does not stop and there is nothing to be found. -/
theorem eq_ok_iff (h : Finds (r.map problem) stops (fs.take 1)) :
    r = .ok (.ok ()) ↔ ¬ stops ∧ fs = [] := by
  constructor
  · rintro rfl
    have hgoes : ¬ stops := fun hstops => nomatch h.stopped hstops
    refine ⟨hgoes, ?_⟩
    have hnone := Except.ok.inj (h.found hgoes)
    cases fs with
    | nil => rfl
    | cons e es => exact absurd hnone (List.cons_ne_nil e []).symm
  · rintro ⟨hgoes, rfl⟩
    obtain ⟨verdict, rfl, hnone⟩ := Abort.map_eq_ok_iff.1 (h.found hgoes)
    cases verdict with
    | ok u => rfl
    | error e => exact absurd hnone (List.cons_ne_nil e [])

/-- A check that looks for one thing before it goes on finds the first of all. -/
theorem guard {P : Prop} [Decidable P] (h : Finds (r.map problem) stops (fs.take 1)) (e : Error) :
    Finds ((if P then return .error e else r : Except Abort (Except Error Unit)).map problem)
      (¬ P ∧ stops) (((if P then [e] else []) ++ fs).take 1) := by
  split_ifs with hP
  · exact ⟨fun hstops => absurd hP hstops.1, fun _ => rfl⟩
  · exact h.of_iff (and_iff_right hP).symm

/-- A check that goes on where another has found nothing finds the first of all. -/
theorem andThen (h : Finds (r.map problem) stops (fs.take 1))
    (h' : Finds (r'.map problem) stops' (gs.take 1)) (f : Error → Error) :
    Finds (Except.map problem (do
        match ← r with
        | .error e => return .error (f e)
        | .ok () => r'))
      (stops ∨ fs = [] ∧ stops') ((fs.map f ++ gs).take 1) := by
  by_cases hstops : stops
  · have hr : r = .error .overflow := Abort.map_eq_error_iff.1 (h.stopped hstops)
    rw [hr]
    exact ⟨fun _ => rfl, fun hgoes => absurd (Or.inl hstops) hgoes⟩
  obtain ⟨verdict, rfl, hfirst⟩ := Abort.map_eq_ok_iff.1 (h.found hstops)
  cases verdict with
  | ok u =>
    obtain rfl : fs = [] := (h.eq_ok_iff.1 rfl).2
    exact h'.of_iff
      ⟨fun hstops' => Or.inr ⟨rfl, hstops'⟩, fun h => h.elim (absurd · hstops) And.right⟩
  | error e =>
    cases fs with
    | nil => exact absurd hfirst (List.cons_ne_nil e [])
    | cons e' es =>
      obtain rfl : e = e' := (List.cons.inj hfirst).1
      refine ⟨fun hor => ?_, fun _ => rfl⟩
      rcases hor with hstops' | ⟨hnil, -⟩
      · exact absurd hstops' hstops
      · cases hnil

end Finds

/-! ## Endpoints -/

/-- A condition is rejected by the error that names it. -/
theorem Condition.finds_validate (c : Condition) :
    Finds (c.validate.map problem) c.OverflowsAsWritten
      ((if c.split.isNone then [.invalidCondition c.text] else []).take 1) := by
  rw [validate_eq]
  refine ⟨fun hstops => by rw [if_pos hstops]; rfl, fun hgoes => ?_⟩
  rw [if_neg hgoes]
  cases c.split <;> rfl

namespace Endpoint

/-- The faults of an endpoint, in the order in which they are looked for. -/
def faults (e : Endpoint) : List Error :=
  (if Text.AllBlank e.name then [.namelessEndpoint] else []) ++
    ((if e.conditions = [] then [.noConditions e.name] else []) ++
      (e.conditions.filter (·.split.isNone)).map fun c => .invalidCondition c.text)

/-- Checking the endpoint stops: it has a name, and of the conditions in front of the first invalid
one, one stops as it is written. -/
def CheckStops (e : Endpoint) : Prop :=
  ¬ Text.AllBlank e.name ∧ ∃ c ∈ e.conditions.takeWhile (·.split.isSome), c.OverflowsAsWritten

/-- The check of conditions finds the first without an operator, unless one in front of it stops. -/
theorem finds_validateConditions (cs : List Condition) :
    Finds ((validateConditions cs).map problem)
      (∃ c ∈ cs.takeWhile (·.split.isSome), c.OverflowsAsWritten)
      (((cs.filter (·.split.isNone)).map fun c => .invalidCondition c.text).take 1) := by
  induction cs with
  | nil => exact ⟨fun ⟨_, hc, _⟩ => absurd hc List.not_mem_nil, fun _ => rfl⟩
  | cons c cs ih =>
    have hstep := c.finds_validate.andThen ih id
    have hfaults :
        ((c :: cs).filter (·.split.isNone)).map (fun c => Error.invalidCondition c.text) =
        (if c.split.isNone then [.invalidCondition c.text] else []).map id ++
          (cs.filter (·.split.isNone)).map fun c => .invalidCondition c.text := by
      rw [List.map_id, List.filter_cons]
      split_ifs <;> rfl
    rw [hfaults]
    refine hstep.of_iff ?_
    cases hsplit : c.split with
    | none =>
      have hgoes : ¬ c.OverflowsAsWritten := by
        rintro ⟨_, _, _, hsome, -⟩
        rw [hsplit] at hsome
        cases hsome
      simp [hsplit, hgoes]
    | some cut => simp [hsplit]

/-- **Endpoints.** The check of an endpoint finds its first fault, unless it stops. -/
theorem finds_validate (e : Endpoint) :
    Finds (e.validate.map problem) e.CheckStops (e.faults.take 1) := by
  unfold validate faults CheckStops
  simp only [Text.trim_eq_nil_iff]
  have hconditions := finds_validateConditions e.conditions
  refine ((hconditions.guard _).guard _).of_iff (and_congr_right fun _ => and_iff_right_of_imp ?_)
  rintro ⟨c, hc, -⟩ hnil
  rw [hnil] at hc
  exact List.not_mem_nil hc

/-- An endpoint has no faults exactly if it has a name and conditions, which all have operators. -/
theorem faults_eq_nil_iff {e : Endpoint} :
    e.faults = [] ↔ ¬ Text.AllBlank e.name ∧ e.conditions ≠ [] ∧
      ∀ c ∈ e.conditions, c.split.isSome = true := by
  simp [faults, Option.isSome_iff_ne_none]

/-- The check of an endpoint without faults stops at any condition that stops as it is written. -/
theorem checkStops_iff {e : Endpoint} (h : e.faults = []) :
    e.CheckStops ↔ ∃ c ∈ e.conditions, c.OverflowsAsWritten := by
  obtain ⟨hname, -, hsplit⟩ := faults_eq_nil_iff.1 h
  rw [CheckStops, and_iff_right hname, List.takeWhile_eq_self_iff.2 hsplit]

end Endpoint

/-! ## Suites -/

namespace Suite

/-- The faults of a suite, in the order in which they are looked for. -/
def faults (s : Suite) : List Error :=
  (if Text.AllBlank s.name then [.namelessSuite] else []) ++
    ((if s.endpoints = [] then [.noSteps s.name] else []) ++
      faultsAlong Endpoint.name (.duplicateStep s.name)
        (fun e => e.faults.map (.invalidStep s.name e.name)) [] s.endpoints)

/-- Checking steps stops, given the names before them: it comes to a step at which it stops, because
those in front of that have no faults and all names so far are fresh. -/
def StepsStop (seen : List Text) (es : List Endpoint) : Prop :=
  ∃ front e back, es = front ++ e :: back ∧ (∀ f ∈ front, f.faults = []) ∧
    Fresh seen ((front ++ [e]).map Endpoint.name) ∧ e.CheckStops

/-- Checking the suite stops: it has a name, and checking its steps stops. -/
def CheckStops (s : Suite) : Prop := ¬ Text.AllBlank s.name ∧ StepsStop [] s.endpoints

/-- Checking steps stops at the first of them, or behind it if that is without faults. -/
theorem stepsStop_cons {seen : List Text} {e : Endpoint} {es : List Endpoint} :
    StepsStop seen (e :: es) ↔
      e.name ∉ seen ∧ (e.CheckStops ∨ e.faults = [] ∧ StepsStop (e.name :: seen) es) := by
  constructor
  · rintro ⟨front, e', back, heq, hfront, hfresh, hstops⟩
    cases front with
    | nil =>
      obtain ⟨rfl, -⟩ := List.cons.inj heq
      exact ⟨(fresh_cons.1 hfresh).1, Or.inl hstops⟩
    | cons f front =>
      obtain ⟨rfl, rfl⟩ := List.cons.inj heq
      rw [List.forall_mem_cons] at hfront
      obtain ⟨hseen, hrest⟩ := fresh_cons.1 hfresh
      exact ⟨hseen, Or.inr ⟨hfront.1, front, e', back, rfl, hfront.2, hrest, hstops⟩⟩
  · rintro ⟨hseen, hstops | ⟨hfaults, front, e', back, rfl, hfront, hfresh, hstops⟩⟩
    · exact ⟨[], e, es, rfl, by simp, fresh_cons.2 ⟨hseen, fresh_nil _⟩, hstops⟩
    · exact ⟨e :: front, e', back, rfl, List.forall_mem_cons.2 ⟨hfaults, hfront⟩,
        fresh_cons.2 ⟨hseen, hfresh⟩, hstops⟩

/-- The check of steps finds the first repeated name or faulty step, unless it stops. -/
theorem finds_validateSteps (suite : Text) (seen : List Text) (es : List Endpoint) :
    Finds ((validateSteps suite seen es).map problem) (StepsStop seen es)
      ((faultsAlong Endpoint.name (.duplicateStep suite)
        (fun e => e.faults.map (.invalidStep suite e.name)) seen es).take 1) := by
  induction es generalizing seen with
  | nil =>
    refine ⟨?_, fun _ => rfl⟩
    rintro ⟨front, e, back, heq, -⟩
    exact absurd heq.symm (by simp)
  | cons e es ih =>
    rw [validateSteps, faultsAlong, List.append_assoc]
    exact ((e.finds_validate.andThen (ih (e.name :: seen)) _).guard _).of_iff stepsStop_cons.symm

/-- **Suites.** The check of a suite finds its first fault, unless it stops. -/
theorem finds_validate (s : Suite) :
    Finds (s.validate.map problem) s.CheckStops (s.faults.take 1) := by
  unfold validate faults CheckStops
  simp only [Text.trim_eq_nil_iff, List.isEmpty_iff]
  have hsteps := finds_validateSteps s.name [] s.endpoints
  refine ((hsteps.guard _).guard _).of_iff (and_congr_right fun _ => and_iff_right_of_imp ?_)
  rintro ⟨front, e, back, heq, -⟩ hnil
  rw [hnil] at heq
  exact absurd heq.symm (by simp)

/-- A suite has no faults exactly if it has a name and steps, which have none and different
names. -/
theorem faults_eq_nil_iff {s : Suite} :
    s.faults = [] ↔ ¬ Text.AllBlank s.name ∧ s.endpoints ≠ [] ∧
      (s.endpoints.map Endpoint.name).Nodup ∧ ∀ e ∈ s.endpoints, e.faults = [] := by
  simp [faults, faultsAlong_eq_nil_iff, Fresh]

/-- The check of a suite without faults stops at any step at which it would stop. -/
theorem checkStops_iff {s : Suite} (h : s.faults = []) :
    s.CheckStops ↔ ∃ e ∈ s.endpoints, e.CheckStops := by
  obtain ⟨hname, -, hnames, hsteps⟩ := faults_eq_nil_iff.1 h
  rw [CheckStops, and_iff_right hname]
  constructor
  · rintro ⟨front, e, back, heq, -, -, hstops⟩
    exact ⟨e, by rw [heq]; simp, hstops⟩
  · rintro ⟨e, he, hstops⟩
    obtain ⟨front, back, heq⟩ := List.append_of_mem he
    rw [heq] at hnames hsteps
    refine ⟨front, e, back, heq, fun f hf => hsteps f (by simp [hf]), ⟨?_, by simp⟩, hstops⟩
    have hsub : (front ++ [e]).Sublist (front ++ e :: back) :=
      (List.Sublist.refl front).append ((List.nil_sublist back).cons_cons e)
    exact hnames.sublist (hsub.map _)

end Suite

/-! ## Manifests -/

namespace Manifest

/-- Checking the manifest stops: so does checking one of its endpoints or suites. -/
def CheckStops (m : Manifest) : Prop :=
  (∃ e ∈ m.endpoints, e.CheckStops) ∨ ∃ s ∈ m.suites, s.CheckStops

/-- The faults of a manifest that its check finds: the repeated names and the first fault of each
endpoint and suite, in order. -/
def firstFaults (m : Manifest) : List Error :=
  faultsAlong Endpoint.name .duplicateEndpoint (fun e => e.faults.take 1) [] m.endpoints ++
    faultsAlong Suite.name .duplicateSuite (fun s => s.faults.take 1) [] m.suites

/-- A search through parts, in which the errors of one come in front of those of the others. -/
theorem finds_cons {α : Type} {own : Except Abort (Except Error Unit)}
    {others : Except Abort (List Error)} {part : α} {parts : List α} {stops : α → Prop}
    {repeated first rest : List Error} (hown : Finds (own.map problem) (stops part) first)
    (hothers : Finds others (∃ a ∈ parts, stops a) rest) :
    Finds (do
        let own := problem (← own)
        let others ← others
        return repeated ++ own ++ others)
      (∃ a ∈ part :: parts, stops a) (repeated ++ first ++ rest) := by
  by_cases hhere : stops part
  · rw [Abort.map_eq_error_iff.1 (hown.stopped hhere)]
    exact ⟨fun _ => rfl, fun hgoes => absurd ⟨part, List.mem_cons_self, hhere⟩ hgoes⟩
  obtain ⟨verdict, rfl, rfl⟩ := Abort.map_eq_ok_iff.1 (hown.found hhere)
  have hiff : (∃ a ∈ part :: parts, stops a) ↔ ∃ a ∈ parts, stops a := by simp [hhere]
  refine ⟨fun hstops => ?_, fun hgoes => ?_⟩
  · rw [hothers.stopped (hiff.1 hstops)]
    rfl
  · rw [hothers.found fun hstops => hgoes (hiff.2 hstops)]
    rfl

/-- The check of endpoints finds the first fault of each, unless it stops. -/
theorem finds_endpointProblems (seen : List Text) (es : List Endpoint) :
    Finds (endpointProblems seen es) (∃ e ∈ es, e.CheckStops)
      (faultsAlong Endpoint.name .duplicateEndpoint (fun e => e.faults.take 1) seen es) := by
  induction es generalizing seen with
  | nil => exact ⟨fun ⟨_, he, _⟩ => absurd he List.not_mem_nil, fun _ => rfl⟩
  | cons e es ih => exact finds_cons e.finds_validate (ih (e.name :: seen))

/-- The check of suites finds the first fault of each, unless it stops. -/
theorem finds_suiteProblems (seen : List Text) (ss : List Suite) :
    Finds (suiteProblems seen ss) (∃ s ∈ ss, s.CheckStops)
      (faultsAlong Suite.name .duplicateSuite (fun s => s.faults.take 1) seen ss) := by
  induction ss generalizing seen with
  | nil => exact ⟨fun ⟨_, hs, _⟩ => absurd hs List.not_mem_nil, fun _ => rfl⟩
  | cons s ss ih => exact finds_cons s.finds_validate (ih (s.name :: seen))

/-- **Manifests.** The check of a manifest finds its repeated names and the first fault of each
part, unless it stops. -/
theorem finds_problems (m : Manifest) : Finds m.problems m.CheckStops m.firstFaults := by
  have hendpoints := finds_endpointProblems [] m.endpoints
  have hsuites := finds_suiteProblems [] m.suites
  unfold problems CheckStops firstFaults
  by_cases hstops : ∃ e ∈ m.endpoints, e.CheckStops
  · rw [hendpoints.stopped hstops]
    exact ⟨fun _ => rfl, fun hgoes => absurd (Or.inl hstops) hgoes⟩
  · rw [hendpoints.found hstops, or_iff_right hstops]
    refine ⟨fun hstops' => ?_, fun hgoes => ?_⟩
    · rw [hsuites.stopped hstops']
      rfl
    · rw [hsuites.found hgoes]
      rfl

/-- Something is to be evaluated. -/
def Filled (m : Manifest) : Prop := m.endpoints ≠ [] ∨ m.suites ≠ []

theorem not_filled_iff {m : Manifest} :
    ¬ m.Filled ↔ (m.endpoints.isEmpty && m.suites.isEmpty) = true := by
  simp [Filled]

/-- A manifest with nothing to be evaluated is refused. -/
theorem validate_of_not_filled {m : Manifest} (h : ¬ m.Filled) :
    m.validate = .ok (.error .emptyManifest) := by
  unfold validate
  rw [if_pos (not_filled_iff.1 h)]
  rfl

/-- Where something is to be evaluated, what is found decides. -/
theorem validate_of_not_checkStops {m : Manifest} (h : m.Filled) (hgoes : ¬ m.CheckStops) :
    m.validate = .ok (verdict m.firstFaults) := by
  have hfilled : ¬ (m.endpoints.isEmpty && m.suites.isEmpty) = true :=
    fun hempty => not_filled_iff.2 hempty h
  unfold validate
  rw [if_neg hfilled, m.finds_problems.found hgoes]
  rfl

/-- The check has no result exactly where it stops. -/
theorem validate_eq_overflow_iff {m : Manifest} :
    m.validate = .error .overflow ↔ m.CheckStops := by
  constructor
  · intro herror
    by_contra hgoes
    by_cases h : m.Filled
    · rw [validate_of_not_checkStops h hgoes] at herror
      cases herror
    · rw [validate_of_not_filled h] at herror
      cases herror
  · intro hstops
    have hfilled : ¬ (m.endpoints.isEmpty && m.suites.isEmpty) = true := by
      rw [← not_filled_iff, not_not]
      rcases hstops with ⟨e, he, -⟩ | ⟨s, hs, -⟩
      · exact Or.inl (List.ne_nil_of_mem he)
      · exact Or.inr (List.ne_nil_of_mem hs)
    unfold validate
    rw [if_neg hfilled, m.finds_problems.stopped hstops]
    rfl

/-- A check succeeds exactly if it has found nothing. -/
theorem verdict_eq_ok_iff {es : List Error} : verdict es = .ok () ↔ es = [] := by
  match es with
  | [] => exact iff_of_true rfl rfl
  | [_] => exact iff_of_false nofun nofun
  | _ :: _ :: _ => exact iff_of_false nofun nofun

theorem firstFaults_eq_nil_iff {m : Manifest} :
    m.firstFaults = [] ↔
      ((m.endpoints.map Endpoint.name).Nodup ∧ ∀ e ∈ m.endpoints, e.faults = []) ∧
      ((m.suites.map Suite.name).Nodup ∧ ∀ s ∈ m.suites, s.faults = []) := by
  simp [firstFaults, faultsAlong_eq_nil_iff, Fresh]

/-- A check succeeds exactly if there is something to be evaluated, it does not stop, and there is
nothing wrong. -/
theorem validate_eq_ok_iff {m : Manifest} :
    m.validate = .ok (.ok ()) ↔ m.Filled ∧ ¬ m.CheckStops ∧ m.firstFaults = [] := by
  by_cases hstops : m.CheckStops
  · rw [validate_eq_overflow_iff.2 hstops]
    exact iff_of_false nofun fun h => h.2.1 hstops
  by_cases hfilled : m.Filled
  · rw [validate_of_not_checkStops hfilled hstops, and_iff_right hfilled, and_iff_right hstops,
      ← verdict_eq_ok_iff, Except.ok.injEq]
  · rw [validate_of_not_filled hfilled]
    exact iff_of_false nofun fun h => hfilled h.1

/-- The endpoint stands in the manifest, alone or as a step of a suite. -/
def Contains (m : Manifest) (e : Endpoint) : Prop :=
  e ∈ m.endpoints ∨ ∃ s ∈ m.suites, e ∈ s.endpoints

/-- Where nothing is found, nothing is wrong with any endpoint or step. -/
theorem faults_of_contains {m : Manifest} (h : m.firstFaults = []) {e : Endpoint}
    (he : m.Contains e) : e.faults = [] := by
  obtain ⟨⟨-, hendpoints⟩, -, hsuites⟩ := firstFaults_eq_nil_iff.1 h
  rcases he with he | ⟨s, hs, he⟩
  · exact hendpoints e he
  · obtain ⟨-, -, -, hsteps⟩ := Suite.faults_eq_nil_iff.1 (hsuites s hs)
    exact hsteps e he

/-- The check of a manifest without faults stops at any condition that stops as it is written. -/
theorem checkStops_iff {m : Manifest} (h : m.firstFaults = []) :
    m.CheckStops ↔ ∃ e, m.Contains e ∧ ∃ c ∈ e.conditions, c.OverflowsAsWritten := by
  obtain ⟨⟨-, hendpoints⟩, -, hsuites⟩ := firstFaults_eq_nil_iff.1 h
  constructor
  · rintro (⟨e, he, hstops⟩ | ⟨s, hs, hstops⟩)
    · exact ⟨e, Or.inl he, (Endpoint.checkStops_iff (hendpoints e he)).1 hstops⟩
    · obtain ⟨e, he, hstops⟩ := (Suite.checkStops_iff (hsuites s hs)).1 hstops
      have hcontains : m.Contains e := Or.inr ⟨s, hs, he⟩
      exact ⟨e, hcontains, (Endpoint.checkStops_iff (faults_of_contains h hcontains)).1 hstops⟩
  · rintro ⟨e, hcontains, hover⟩
    have hstops := (Endpoint.checkStops_iff (faults_of_contains h hcontains)).2 hover
    rcases hcontains with he | ⟨s, hs, he⟩
    · exact Or.inl ⟨e, he, hstops⟩
    · exact Or.inr ⟨s, hs, (Suite.checkStops_iff (hsuites s hs)).2 ⟨e, he, hstops⟩⟩

end Manifest

/-! ## Clean evaluation -/

/-- A result that evaluating an endpoint on a probe result comes to when all goes well: no errors
are added, each condition has the outcome that it has alone, and the verdict is that of the recorded
errors and the conditions. -/
structure Endpoint.Clean (e : Endpoint) (p : Probe) (context : Option Context) (q : Probe) :
    Prop where
  errors : q.errors = p.errors
  length : q.conditionOutcomes.length = e.conditions.length
  outcome : ∀ (i : Nat) (c : Condition), e.conditions[i]? = some c →
    ∃ o, q.conditionOutcomes[i]? = some o ∧
      c.evaluate e.ui.display context p = .ok (p.addOutcome o, o.success)
  success : q.success = true ↔
    p.errors = [] ∧ ∀ c ∈ e.conditions, c.answer e.ui.display context p = .ok true

/-- Where all conditions have operators and none stops, an endpoint evaluates cleanly. -/
theorem Endpoint.clean_openResult {e : Endpoint} (h : ∀ c ∈ e.conditions, c.split.isSome = true)
    {p : Probe} {context : Option Context} (hover : ∀ c ∈ e.conditions, ¬ c.Overflows context p) :
    e.Clean p context ({ e with result := p }.openResult context) := by
  have houtcomes := map_some_outcomes_of_valid h e.ui.display context p
  constructor
  · exact foldl_recordRejection_of_valid h p.errors
  · have hlength := congrArg List.length houtcomes
    rwa [List.length_map, List.length_map] at hlength
  · intro i c hc
    have hmem : c ∈ e.conditions := List.mem_of_getElem? hc
    have hi : ((e.conditions.filterMap (·.exactOutcome e.ui.display context p))[i]?).map some =
        some (c.exactOutcome e.ui.display context p) := by
      rw [← List.getElem?_map, houtcomes, List.getElem?_map, hc]
      rfl
    obtain ⟨o, ho, heq⟩ := Option.map_eq_some_iff.1 hi
    refine ⟨o, ho, ?_⟩
    rw [Condition.evaluate_of_not_overflows (hover c hmem), Condition.appendTo,
      Condition.recordRejection_of_valid (h c hmem), ← c.any_success_exactOutcome e.ui.display,
      ← heq]
    rfl
  · have hgoes : ¬ Overflows { e with result := p } context := by
      rintro ⟨c, hc, hstops⟩
      exact hover c hc hstops
    rw [success_openResult_iff hgoes]
    exact ⟨fun h => ⟨h.errors, h.conditions⟩, fun h => ⟨h.1, h.2⟩⟩

/-- **A valid manifest evaluates cleanly**, unless a component overflows in what an operand comes
to. Before redaction, evaluating an endpoint or step of it on any probe result in any context adds
no errors and gives every condition the outcome that it has alone, and redacting that is the
evaluation. Where one of the conditions stops on the probe result, the evaluation stops. A condition
that is not valid never holds, has no outcome and is recorded as an error. -/
theorem Manifest.evaluates_cleanly (p : Probe) (context : Option Context) :
    (∀ m : Manifest, m.validate = .ok (.ok ()) → ∀ e, m.Contains e →
      ((∃ c ∈ e.conditions, c.Overflows context p) → ∀ now,
        { e with result := p }.evaluateOpenly context = .error .overflow ∧
          { e with result := p }.evaluateHealth now context = .error .overflow) ∧
      ((∀ c ∈ e.conditions, ¬ c.Overflows context p) →
        ∃ q, { e with result := p }.evaluateOpenly context = .ok q ∧ e.Clean p context q ∧
          ∀ now, { e with result := p }.evaluateHealth now context =
            .ok (Endpoint.redact e.ui { q with timestamp := some now }))) ∧
    (∀ (c : Condition) (cause : Error), c.validate = .ok (.error cause) → ∀ d : Display,
      c.evaluate d context p =
        .ok ({ p with
            errors :=
              if "invalid condition: ".toList ++ c.text ∈ p.errors then p.errors
              else p.errors ++ ["invalid condition: ".toList ++ c.text] },
          false)) := by
  constructor
  · intro m hm e he
    have hfaults := faults_of_contains (validate_eq_ok_iff.1 hm).2.2 he
    obtain ⟨-, -, hsplit⟩ := Endpoint.faults_eq_nil_iff.1 hfaults
    refine ⟨fun hover now => ⟨?_, ?_⟩, fun hover => ?_⟩
    · exact (Endpoint.evaluateOpenly_eq _ context).trans (if_pos hover)
    · exact (Endpoint.evaluateHealth_eq _ now context).trans (if_pos hover)
    · have hgoes : ¬ Endpoint.Overflows { e with result := p } context :=
        fun ⟨c, hc, hstops⟩ => hover c hc hstops
      refine ⟨_, Endpoint.evaluateOpenly_eq_ok_iff.2 ⟨hgoes, rfl⟩,
        Endpoint.clean_openResult hsplit hover, fun now => ?_⟩
      exact Endpoint.evaluateHealth_eq_ok_iff.2 ⟨hgoes, rfl⟩
  · intro c cause hcause d
    have hsplit := Condition.split_eq_none_of_validate hcause
    have houtcome : ∀ d : Display, c.exactOutcome d context p = none := by
      intro d
      rw [← Option.not_isSome_iff_eq_none, Condition.isSome_exactOutcome, hsplit]
      exact Bool.false_ne_true
    rw [Condition.evaluate_of_not_overflows (Condition.not_overflows_of_split hsplit),
      Condition.appendTo, Condition.recordRejection_of_split hsplit, Condition.holds, houtcome,
      houtcome, Option.toList_none, List.append_nil]
    rfl

/-- A step that compares what the probe observed with the context. -/
def Manifest.tokenStep : Endpoint where
  name := "token".toList
  conditions := [⟨"[STATUS] == 200".toList⟩, ⟨"[BODY].token == [CONTEXT].token".toList⟩]
  store := ⟨[], List.nodup_nil⟩

/-- A manifest with one suite of one step. -/
def Manifest.tokenManifest : Manifest where
  suites := [{ name := "flow".toList, endpoints := [tokenStep] }]

/-- A probe result with an error and no body. -/
def Manifest.refusedProbe : Probe := { errors := ["connection refused".toList] }

/-- The step evaluates cleanly although no lookup of it succeeds, and a lone placeholder is
rejected. -/
theorem Manifest.tokenManifest_evaluates_cleanly :
    tokenManifest.validate = .ok (.ok ()) ∧ tokenManifest.Contains tokenStep ∧
      (∀ c ∈ tokenStep.conditions, ¬ c.Overflows (some []) refusedProbe) ∧
      (∃ q, { tokenStep with result := refusedProbe }.evaluateOpenly (some []) = .ok q ∧
        tokenStep.Clean refusedProbe (some []) q ∧
        ∀ now, { tokenStep with result := refusedProbe }.evaluateHealth now (some []) =
          .ok (Endpoint.redact tokenStep.ui { q with timestamp := some now })) ∧
      (⟨"[STATUS]".toList⟩ : Condition).validate =
        .ok (.error (.invalidCondition "[STATUS]".toList)) ∧
      (⟨"[STATUS]".toList⟩ : Condition).evaluate {} (some []) refusedProbe =
        .ok ({ refusedProbe with
            errors := ["connection refused".toList, "invalid condition: [STATUS]".toList] },
          false) := by
  have hvalid : tokenManifest.validate = .ok (.ok ()) := rfl
  have hcontains : tokenManifest.Contains tokenStep :=
    Or.inr ⟨_, List.mem_singleton_self _, List.mem_singleton_self _⟩
  have hgoes : ∀ c ∈ tokenStep.conditions, ¬ c.Overflows (some []) refusedProbe := by
    decide +kernel
  have hrejected : (⟨"[STATUS]".toList⟩ : Condition).validate =
      .ok (.error (.invalidCondition "[STATUS]".toList)) := rfl
  obtain ⟨hevaluates, hreject⟩ := evaluates_cleanly refusedProbe (some [])
  refine ⟨hvalid, hcontains, hgoes, (hevaluates tokenManifest hvalid tokenStep hcontains).2 hgoes,
    hrejected, ?_⟩
  exact hreject ⟨"[STATUS]".toList⟩ _ hrejected {}

/-- A step with a condition on the body, which is valid. -/
def Manifest.gaugeStep : Endpoint where
  name := "gauge".toList
  conditions := [⟨"[BODY] > 0".toList⟩]
  store := ⟨[], List.nodup_nil⟩

/-- A valid manifest whose step has no result on a body in which a component overflows. -/
theorem Manifest.valid_step_stops :
    ({ endpoints := [gaugeStep] } : Manifest).validate = .ok (.ok ()) ∧
      { gaugeStep with
          result := { body := Utf8.encode Duration.widestMicros } }.evaluateOpenly none =
        .error .overflow := by
  constructor
  · rfl
  · decide +kernel

end HealthCheck
