import HealthCheck.Proofs.Condition.Evaluation
import Mathlib.Data.List.Forall2

/-!
# The lists of a probe result

Two things are done to a probe result that has been recorded: conditions are evaluated on it and
errors are added to it. What one such update does is said once, by `Update.run_eq`: it adds the
error that it calls for, unless it is there already, and the outcome of its condition, and leaves
the rest alone. Neither list is observed, so an update does and answers the same after others as on
its own, and a run of any length is known from its updates taken one by one (`Update.runAll_eq`).

Hence both lists only grow, and no error is ever added twice (`Update.lists_only_grow`). A run stops
where one of its updates would stop on its own.
-/

namespace HealthCheck.Probe

/-! ## Errors in order -/

/-- Errors with one more, unless it is among them. -/
def withError (errors : List Text) (error : Text) : List Text :=
  if error ∈ errors then errors else errors ++ [error]

/-- Errors added one after the other come behind those that were there. Of each that was not, there
is one. -/
theorem exists_foldl_withError (errors new : List Text) :
    ∃ added, new.foldl withError errors = errors ++ added ∧ added.Nodup ∧
      ∀ error, error ∈ added ↔ error ∈ new ∧ error ∉ errors := by
  induction new generalizing errors with
  | nil => exact ⟨[], by simp, List.nodup_nil, by simp⟩
  | cons first rest ih =>
    by_cases hfirst : first ∈ errors
    · obtain ⟨added, heq, hnodup, hmem⟩ := ih errors
      refine ⟨added, ?_, hnodup, fun error => ?_⟩
      · rw [List.foldl_cons, withError, if_pos hfirst, heq]
      · rw [hmem, List.mem_cons, or_and_right]
        have hnot : ¬ (error = first ∧ error ∉ errors) := by
          rintro ⟨rfl, hnew⟩
          exact hnew hfirst
        exact (or_iff_right hnot).symm
    · obtain ⟨added, heq, hnodup, hmem⟩ := ih (errors ++ [first])
      have hfresh : first ∉ added := by simp [hmem]
      refine ⟨first :: added, ?_, List.nodup_cons.2 ⟨hfresh, hnodup⟩, fun error => ?_⟩
      · rw [List.foldl_cons, withError, if_neg hfirst, heq, List.append_assoc]
        rfl
      · by_cases herror : error = first
        · simp [herror, hfirst]
        · simp [herror, hmem]

/-- How often an error is there after others have been added. -/
theorem count_foldl_withError (errors new : List Text) (error : Text) :
    (new.foldl withError errors).count error =
      if error ∈ errors then errors.count error else if error ∈ new then 1 else 0 := by
  obtain ⟨added, heq, hnodup, hmem⟩ := exists_foldl_withError errors new
  rw [heq, List.count_append, hnodup.count]
  by_cases herror : error ∈ errors
  · simp [herror, hmem]
  · simp [herror, hmem, List.count_eq_zero_of_not_mem herror]

/-- Errors that differ from each other still do after others have been added. -/
theorem nodup_foldl_withError {errors : List Text} (h : errors.Nodup) (new : List Text) :
    (new.foldl withError errors).Nodup := by
  obtain ⟨added, heq, hnodup, hmem⟩ := exists_foldl_withError errors new
  rw [heq]
  refine List.nodup_append.2 ⟨h, hnodup, ?_⟩
  rintro error herror _ hadded rfl
  exact ((hmem error).1 hadded).2 herror

/-! ## Updates -/

/-- What is done to a probe result that has been recorded. -/
inductive Update where
  /-- A condition is evaluated. -/
  | evaluate (c : Condition) (d : Display) (context : Option Context)
  /-- An error is added. -/
  | addError (error : Text)

namespace Update

/-- The probe result after an update, with the answer where a condition was evaluated. -/
def run : Update → Probe → Except Abort (Probe × Option Bool)
  | evaluate c d context, p => do
    let (q, holds) ← c.evaluate d context p
    return (q, some holds)
  | addError error, p => return (p.addError error, none)

/-- The probe result after updates in order, with the answer to each of them. -/
def runAll : List Update → Probe → Except Abort (Probe × List (Option Bool))
  | [], p => return (p, [])
  | u :: us, p => do
    let (q, answer) ← u.run p
    let (r, answers) ← runAll us q
    return (r, answer :: answers)

/-- The update evaluates a condition that stops on the probe result. -/
def Overflows (p : Probe) (u : Update) : Prop :=
  ∃ c d context, u = evaluate c d context ∧ c.Overflows context p

/-- The error that an update calls for: the one to be added, or the rejection of a condition
without an operator. -/
def error? : Update → Option Text
  | evaluate c _ _ => if c.split.isSome then none else some c.rejection
  | addError error => some error

/-- The update evaluates a condition that has an operator. -/
def splits : Update → Bool
  | evaluate c _ _ => c.split.isSome
  | addError _ => false

/-- The outcome that an update of a probe result has. -/
def outcome? (p : Probe) : Update → Option ConditionOutcome
  | evaluate c d context => c.exactOutcome d context p
  | addError _ => none

/-- The answer of an update of a probe result that does not stop. -/
def answer? (p : Probe) : Update → Option Bool
  | evaluate c _ context => some (c.holds context p)
  | addError _ => none

/-- What updates that do not stop make of a probe result: the errors that they call for are added,
and the outcomes that they have on the probe result. -/
def appendAll (us : List Update) (p : Probe) : Probe :=
  { p with
    errors := (us.filterMap error?).foldl withError p.errors
    conditionOutcomes := p.conditionOutcomes ++ us.filterMap (outcome? p) }

/-! ## One update -/

variable {p q : Probe}

theorem overflows_evaluate_iff {c : Condition} {d : Display} {context : Option Context} :
    (evaluate c d context).Overflows p ↔ c.Overflows context p := by
  constructor
  · rintro ⟨_, _, _, heq, hover⟩
    cases heq
    exact hover
  · exact fun hover => ⟨c, d, context, rfl, hover⟩

theorem not_overflows_addError (error : Text) : ¬ (addError error).Overflows p := by
  rintro ⟨_, _, _, heq, -⟩
  cases heq

/-- An update has an outcome exactly if it evaluates a condition with an operator. -/
theorem isSome_outcome? (p : Probe) (u : Update) : (u.outcome? p).isSome = u.splits := by
  cases u with
  | evaluate c d context => exact c.isSome_exactOutcome d context p
  | addError error => rfl

/-- The outcome of an update is a matter of what was observed. -/
theorem outcome?_congr (h : p.SameObservations q) : outcome? p = outcome? q := by
  funext u
  cases u with
  | evaluate c d context => exact Condition.exactOutcome_of_sameObservations h
  | addError error => rfl

/-- The answer of an update is a matter of what was observed. -/
theorem answer?_congr (h : p.SameObservations q) : answer? p = answer? q := by
  funext u
  cases u with
  | evaluate c d context => exact congrArg some (Condition.holds_of_sameObservations h)
  | addError error => rfl

/-- Whether an update stops is a matter of what was observed. -/
theorem overflows_congr (h : p.SameObservations q) (u : Update) :
    u.Overflows p ↔ u.Overflows q := by
  cases u with
  | evaluate c d context =>
    rw [overflows_evaluate_iff, overflows_evaluate_iff]
    exact Condition.overflows_of_sameObservations h
  | addError error =>
    exact iff_of_false (not_overflows_addError error) (not_overflows_addError error)

/-- **One update.** It stops, or adds the error that it calls for and the outcome that it has, and
changes nothing else. -/
theorem run_of_not_overflows {u : Update} (h : ¬ u.Overflows p) :
    u.run p = .ok (appendAll [u] p, u.answer? p) := by
  cases u with
  | evaluate c d context =>
    rw [overflows_evaluate_iff] at h
    rw [run, Condition.evaluate_of_not_overflows h, Condition.appendTo, appendAll]
    cases hsplit : c.split with
    | none =>
      have hnone : c.exactOutcome d context p = none := by
        rw [Condition.exactOutcome, Condition.outcomeBy, hsplit]
        rfl
      simp [error?, outcome?, answer?, hsplit, hnone, withError, Condition.recordRejection]
    | some cut =>
      obtain ⟨outcome, houtcome⟩ : ∃ outcome, c.exactOutcome d context p = some outcome := by
        rw [← Option.isSome_iff_exists, Condition.isSome_exactOutcome, hsplit]
        rfl
      simp [error?, outcome?, answer?, hsplit, houtcome, Condition.recordRejection]
  | addError error =>
    rw [run, addError_eq, appendAll, List.filterMap_cons_none (show outcome? p _ = none from rfl),
      List.filterMap_nil, List.append_nil]
    rfl

/-- An update stops where its condition does. -/
theorem run_of_overflows {u : Update} (h : u.Overflows p) : u.run p = .error .overflow := by
  obtain ⟨c, d, context, rfl, hover⟩ := h
  rw [run, Condition.evaluate_eq_overflow_iff.2 hover]
  rfl

theorem sameObservations_appendAll (us : List Update) (p : Probe) :
    (appendAll us p).SameObservations p :=
  fun ph => SameObservations.refl p ph

/-- An update with an outcome that does not stop does nothing but append it, and answers by it. -/
theorem run_of_outcome? {u : Update} {outcome : ConditionOutcome} (hover : ¬ u.Overflows p)
    (h : u.outcome? p = some outcome) :
    u.answer? p = some outcome.success ∧
      u.run p = .ok (p.addOutcome outcome, some outcome.success) := by
  cases u with
  | addError error => cases h
  | evaluate c d context =>
    have hsplit : c.split.isSome = true := by
      rw [← c.isSome_exactOutcome d context p, show c.exactOutcome d context p = _ from h]
      rfl
    have hanswer : c.holds context p = outcome.success := by
      rw [← c.any_success_exactOutcome d, show c.exactOutcome d context p = _ from h]
      rfl
    have herror : (evaluate c d context).error? = none := if_pos hsplit
    refine ⟨congrArg some hanswer, ?_⟩
    rw [run_of_not_overflows hover, appendAll, List.filterMap_cons_none herror,
      List.filterMap_cons_some h, answer?, hanswer]
    rfl

/-! ## Runs -/

/-- **Updates in order.** Each of them adds and answers what it would on its own, and stops where it
would on its own. -/
theorem runAll_eq_ok_iff {us : List Update} {p : Probe} {r : Probe × List (Option Bool)} :
    runAll us p = .ok r ↔
      (∀ u ∈ us, ¬ u.Overflows p) ∧ r = (appendAll us p, us.map (answer? p)) := by
  induction us generalizing p r with
  | nil =>
    show Except.ok (p, []) = _ ↔ _
    simp [appendAll, eq_comm]
  | cons u us ih =>
    by_cases hover : u.Overflows p
    · rw [runAll, run_of_overflows hover]
      exact iff_of_false nofun fun h => h.1 u List.mem_cons_self hover
    · have hsame := sameObservations_appendAll [u] p
      have hrest : appendAll us (appendAll [u] p) = appendAll (u :: us) p := by
        have herrors : (u :: us).filterMap error? =
            [u].filterMap error? ++ us.filterMap error? := List.filterMap_append (l := [u])
        have houtcomes : (u :: us).filterMap (outcome? p) =
            [u].filterMap (outcome? p) ++ us.filterMap (outcome? p) :=
          List.filterMap_append (l := [u])
        rw [appendAll, outcome?_congr hsame, appendAll, appendAll, herrors, houtcomes,
          List.foldl_append, ← List.append_assoc]
      rw [runAll, run_of_not_overflows hover, Abort.ok_bind]
      show (runAll us (appendAll [u] p) >>= fun s => pure (s.1, u.answer? p :: s.2)) = _ ↔ _
      simp only [Abort.bind_eq_ok_iff, ih, overflows_congr hsame, answer?_congr hsame, hrest,
        List.forall_mem_cons, and_iff_right hover, List.map_cons]
      constructor
      · rintro ⟨_, ⟨hus, rfl⟩, hr⟩
        exact ⟨hus, (Except.ok.inj hr).symm⟩
      · rintro ⟨hus, rfl⟩
        exact ⟨_, ⟨hus, rfl⟩, rfl⟩

/-- The outcomes of updates are those of the conditions that have an operator, one for each and in
order. -/
theorem forall₂_outcomes (us : List Update) (p : Probe) :
    List.Forall₂ (fun u outcome => u.outcome? p = some outcome) (us.filter splits)
      (us.filterMap (outcome? p)) := by
  induction us with
  | nil => exact List.Forall₂.nil
  | cons u us ih =>
    have hsome := isSome_outcome? p u
    cases h : u.outcome? p with
    | none =>
      rw [h] at hsome
      rw [List.filter_cons_of_neg (by rw [← hsome]; exact Bool.false_ne_true),
        List.filterMap_cons_none h]
      exact ih
    | some outcome =>
      rw [h] at hsome
      rw [List.filter_cons_of_pos hsome.symm, List.filterMap_cons_some h]
      exact List.Forall₂.cons h ih

/-- The same beside the answers: an update with an outcome answers by it and does nothing else. -/
theorem forall₂_answers {us : List Update} (h : ∀ u ∈ us, ¬ u.Overflows p) :
    List.Forall₂ (fun (u, answer) outcome =>
        answer = some outcome.success ∧ u.run p = .ok (p.addOutcome outcome, answer))
      ((us.zip (us.map (answer? p))).filter fun (u, _) => u.splits)
      (us.filterMap (outcome? p)) := by
  have hzip : us.zip (us.map (answer? p)) = us.map fun u => (u, u.answer? p) := by
    rw [← List.zip_map', List.map_id']
  rw [hzip, List.filter_map, List.forall₂_map_left_iff]
  have hnone : ∀ u ∈ us.filter splits, ¬ u.Overflows p :=
    fun u hu => h u (List.mem_of_mem_filter hu)
  refine ((List.forall₂_and_left _ _).2 ⟨hnone, forall₂_outcomes us p⟩).imp ?_
  rintro u outcome ⟨hover, houtcome⟩
  obtain ⟨hanswer, hrun⟩ := run_of_outcome? hover houtcome
  exact ⟨hanswer, by rw [hrun, hanswer]⟩

/-- What updates have made of a probe result `p` when they have answered: its lists have grown into
those of `q`, and all else is as it was. -/
structure Grown (us : List Update) (p q : Probe) (answers : List (Option Bool)) : Prop where
  errors_prefix : p.errors <+: q.errors
  /-- An error that was not there is there once if an update calls for it, and else not at all. -/
  count_error : ∀ error, q.errors.count error =
    if error ∈ p.errors then p.errors.count error
    else if error ∈ us.filterMap error? then 1 else 0
  errors_nodup : p.errors.Nodup → q.errors.Nodup
  /-- Each update that evaluates a condition with an operator has added one outcome, which tells its
  answer and is all that the update does on its own. -/
  outcomes : ∃ added, q.conditionOutcomes = p.conditionOutcomes ++ added ∧
    List.Forall₂ (fun (u, answer) outcome =>
        answer = some outcome.success ∧ u.run p = .ok (p.addOutcome outcome, answer))
      ((us.zip answers).filter fun (u, _) => u.splits) added
  answers_alone : answers.map Except.ok = us.map fun u => (u.run p).map Prod.snd
  unchanged : q = { p with errors := q.errors, conditionOutcomes := q.conditionOutcomes }

/-- **The lists of a probe result only grow.** Updates of any number and in any order stop exactly
if one of them evaluates a condition that stops on the probe result. Otherwise the errors and the
outcomes that were there are there still, in front. Behind them stands each error once that was
called for and not there, and the outcome of each condition with an operator, in the order of
evaluation. Nothing else has changed, and each update has answered as on its own. -/
theorem lists_only_grow (us : List Update) (p : Probe) :
    (runAll us p = .error .overflow ↔
      ∃ c d context, evaluate c d context ∈ us ∧ c.Overflows context p) ∧
    ∀ q answers, runAll us p = .ok (q, answers) → Grown us p q answers := by
  refine ⟨?_, fun q answers hrun => ?_⟩
  · have hok : (∃ r, runAll us p = .ok r) ↔ ∀ u ∈ us, ¬ u.Overflows p := by
      simp [runAll_eq_ok_iff]
    rw [Abort.eq_error_iff, hok]
    push Not
    constructor
    · rintro ⟨_, hmem, c, d, context, rfl, hover⟩
      exact ⟨c, d, context, hmem, hover⟩
    · rintro ⟨c, d, context, hmem, hover⟩
      exact ⟨_, hmem, c, d, context, rfl, hover⟩
  · obtain ⟨hover, heq⟩ := runAll_eq_ok_iff.1 hrun
    obtain ⟨rfl, rfl⟩ := Prod.mk.inj heq
    constructor
    · obtain ⟨added, heq, -⟩ := exists_foldl_withError p.errors (us.filterMap error?)
      rw [appendAll, heq]
      exact List.prefix_append p.errors added
    · exact count_foldl_withError p.errors (us.filterMap error?)
    · intro h
      exact nodup_foldl_withError h (us.filterMap error?)
    · exact ⟨us.filterMap (outcome? p), rfl, forall₂_answers hover⟩
    · rw [List.map_map]
      refine List.map_congr_left fun u hu => ?_
      rw [run_of_not_overflows (hover u hu)]
      rfl
    · rfl

/-- Four updates, of which two evaluate a condition without an operator. -/
def fourUpdates : List Update :=
  [.evaluate ⟨"[STATUS] ? 201".toList⟩ {} none,
    .evaluate ⟨"[STATUS] == 201".toList⟩ {} none,
    .addError "timeout".toList,
    .evaluate ⟨"[STATUS] ? 201".toList⟩ {} none]

/-- A condition without an operator is rejected once, however often it is evaluated, and has no
outcome. -/
theorem fourUpdates_grow :
    ∃ q answers, runAll fourUpdates { status := 201 } = .ok (q, answers) ∧
      Grown fourUpdates { status := 201 } q answers ∧
      q.errors = ["invalid condition: [STATUS] ? 201".toList, "timeout".toList] ∧
      q.conditionOutcomes = [⟨"[STATUS] == 201".toList, true⟩] ∧
      answers = [some false, some true, none, some false] := by
  have hrun : runAll fourUpdates { status := 201 } =
      .ok ({ status := 201
             errors := ["invalid condition: [STATUS] ? 201".toList, "timeout".toList]
             conditionOutcomes := [⟨"[STATUS] == 201".toList, true⟩] },
        [some false, some true, none, some false]) := by
    decide +kernel
  obtain ⟨-, hgrown⟩ := lists_only_grow fourUpdates { status := 201 }
  exact ⟨_, _, hrun, hgrown _ _ hrun, rfl, rfl, rfl⟩

/-- Evaluating a condition with an operator adds no outcome and answers nothing where a component
overflows in the body. -/
theorem overflowing_body_adds_nothing :
    (evaluate ⟨"[BODY] > 0".toList⟩ {} none).splits = true ∧
      runAll [evaluate ⟨"[BODY] > 0".toList⟩ {} none]
        { body := Utf8.encode Duration.widestMicros } = .error .overflow := by
  constructor <;> decide +kernel

end Update

end HealthCheck.Probe
