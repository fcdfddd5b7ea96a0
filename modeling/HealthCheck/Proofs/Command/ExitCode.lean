import HealthCheck.Command
import HealthCheck.Proofs.Manifest.Validation
import HealthCheck.Proofs.Suite.DataFlow

/-!
# What exit codes tell

A manifest is healthy when its endpoints are, by the recorded errors and the conditions alone, and
when every step of its suites runs and succeeds. The verdict of a report says neither more nor less
(`Manifest.success_iff_of_evaluate`): hiding parts of a result does not change it, and the verdict
of a suite is that of all its steps, those that were skipped included.

The exit code of an evaluation is 5 where no manifest could be loaded, and else 0 or 19 by that
verdict, however the report is printed. Validation agrees with it on what can be loaded and on what
is said of the rest. A command that stops midway has no exit code of these: loading stops where the
check of the manifest does (`Command.loaded_eq_overflow_iff`), and the evaluation where a condition
does (`Manifest.evaluate_eq_overflow_iff`).
-/

namespace HealthCheck

/-! ## Health -/

/-- The endpoints that stand alone are healthy, and every step of every suite runs and succeeds. -/
structure Manifest.Healthy (m : Manifest) (now : Timestamp) : Prop where
  endpoints : ∀ e ∈ m.endpoints, e.Healthy none
  steps : ∀ s ∈ m.suites, ∀ i < s.endpoints.length, s.Passed now i

/-- A condition stops that is evaluated of an endpoint that stands alone or in the run of a
suite. -/
def Manifest.Overflows (m : Manifest) (now : Timestamp) : Prop :=
  (∃ e ∈ m.endpoints, e.Overflows none) ∨
    ∃ s ∈ m.suites, ∃ i < s.endpoints.length, s.StopsAt now i

namespace Endpoint

/-- An endpoint that stands alone has an outcome where none of its conditions stops: its result,
under its name. -/
theorem outcome_eq_ok_iff {e : Endpoint} {now : Timestamp} {p : Probe} :
    e.outcome now = .ok p ↔
      ¬ e.Overflows none ∧ p = { e.healthResult now none with name := e.name } := by
  unfold outcome
  simp only [Abort.bind_eq_ok_iff, evaluateHealth_eq_ok_iff]
  constructor
  · rintro ⟨_, ⟨hover, rfl⟩, hp⟩
    exact ⟨hover, (Except.ok.inj hp).symm⟩
  · rintro ⟨hover, rfl⟩
    exact ⟨_, ⟨hover, rfl⟩, rfl⟩

theorem outcome_eq_overflow_iff {e : Endpoint} {now : Timestamp} :
    e.outcome now = .error .overflow ↔ e.Overflows none := by
  rw [Abort.eq_error_iff]
  simp [outcome_eq_ok_iff]

/-- Neither redaction nor naming changes the verdict of an endpoint. -/
theorem success_iff_of_outcome {e : Endpoint} {now : Timestamp} {p : Probe}
    (h : e.outcome now = .ok p) : p.success = true ↔ e.Healthy none := by
  obtain ⟨hover, rfl⟩ := outcome_eq_ok_iff.1 h
  exact success_healthResult_iff hover now

end Endpoint

namespace Manifest

variable {m : Manifest} {now : Timestamp}

/-- The report has the results of the endpoints and of the suites, in order. -/
theorem evaluate_eq_ok_iff {r : Report} :
    m.evaluate now = .ok r ↔
      m.endpoints.mapM (Endpoint.outcome now) = .ok r.endpoints ∧
        m.suites.mapM (Suite.execute · now) = .ok r.suites ∧
        r.success = (r.endpoints.all (·.success) && r.suites.all (·.success)) := by
  unfold evaluate
  simp only [Abort.bind_eq_ok_iff]
  constructor
  · rintro ⟨endpoints, hendpoints, suites, hsuites, hr⟩
    obtain rfl := Except.ok.inj hr
    exact ⟨hendpoints, hsuites, rfl⟩
  · rintro ⟨hendpoints, hsuites, hsuccess⟩
    refine ⟨_, hendpoints, _, hsuites, ?_⟩
    rw [← hsuccess]
    rfl

/-- An evaluation stops exactly where a condition does. -/
theorem evaluate_eq_overflow_iff : m.evaluate now = .error .overflow ↔ m.Overflows now := by
  have hendpoints : m.endpoints.mapM (Endpoint.outcome now) = .error .overflow ↔
      ∃ e ∈ m.endpoints, e.Overflows none := by
    rw [Abort.mapM_eq_error_iff]
    simp only [Endpoint.outcome_eq_overflow_iff]
  have hsuites : m.suites.mapM (Suite.execute · now) = .error .overflow ↔
      ∃ s ∈ m.suites, ∃ i < s.endpoints.length, s.StopsAt now i := by
    rw [Abort.mapM_eq_error_iff]
    simp only [Suite.execute_eq_overflow_iff]
  unfold evaluate Overflows
  rw [← hendpoints, ← hsuites]
  cases m.endpoints.mapM (Endpoint.outcome now) with
  | error a =>
    rw [a.eq_overflow]
    exact iff_of_true rfl (Or.inl rfl)
  | ok endpoints =>
    cases m.suites.mapM (Suite.execute · now) with
    | error a =>
      rw [a.eq_overflow]
      exact iff_of_true rfl (Or.inr rfl)
    | ok suites => exact iff_of_false nofun fun h => h.elim nofun nofun

/-- The verdict of a report is that the manifest is healthy. -/
theorem success_iff_of_evaluate {r : Report} (h : m.evaluate now = .ok r) :
    r.success = true ↔ m.Healthy now := by
  obtain ⟨hendpoints, hsuites, hsuccess⟩ := evaluate_eq_ok_iff.1 h
  rw [hsuccess, Bool.and_eq_true,
    Abort.all_iff_of_mapM hendpoints fun e p => Endpoint.success_iff_of_outcome,
    Abort.all_iff_of_mapM hsuites fun s r => Suite.success_iff_of_execute]
  constructor
  · intro h
    exact ⟨h.1, h.2⟩
  · intro h
    exact ⟨h.endpoints, h.steps⟩

end Manifest

/-! ## Outcomes -/

namespace Command

/-- What standard error says of one cause. -/
def complaint (cause : Error) : Text := "Error: ".toList ++ cause.message ++ ['\n']

variable {input : Except Error Bytes}

/-- Loading stops exactly where a manifest can be read and its check stops. -/
theorem loaded_eq_overflow_iff :
    loaded input = .error .overflow ↔
      ∃ bytes t m, input = .ok bytes ∧ Utf8.decode? bytes = some t ∧
        Manifest.ofText? t = some m ∧ m.CheckStops := by
  cases input with
  | error e => exact iff_of_false nofun fun ⟨_, _, _, h, _⟩ => nomatch h
  | ok bytes =>
    unfold loaded Manifest.load
    cases hbytes : Utf8.decode? bytes with
    | none => simp [hbytes, pure, Except.pure]
    | some t =>
      cases ht : Manifest.ofText? t with
      | none => simp [hbytes, ht, pure, Except.pure]
      | some m => simp [hbytes, ht, Abort.bind_eq_error_iff, pure, Except.pure,
          Manifest.validate_eq_overflow_iff]

theorem run_of_stop (h : loaded input = .error .overflow) (c : Command) (now : Timestamp)
    (coloured : Bool) : c.run now coloured input = .error .overflow := by
  unfold run
  rw [h]
  rfl

/-- Where the manifest cannot be loaded, no command does more than say why. -/
theorem run_of_error {e : Error} (h : loaded input = .ok (.error e)) (c : Command)
    (now : Timestamp) (coloured : Bool) : c.run now coloured input = .ok (refuse e) := by
  unfold run
  rw [h]
  rfl

/-- Where the manifest is loaded, the command acts on it. -/
theorem run_of_ok {m : Manifest} (h : loaded input = .ok (.ok m)) (c : Command) (now : Timestamp)
    (coloured : Bool) : c.run now coloured input = act now coloured m c.action := by
  unfold run
  rw [h]
  rfl

/-- An evaluation prints the report and has the code of its verdict, in every format. -/
theorem act_evaluate_eq_ok_iff {m : Manifest} {now : Timestamp} {coloured : Bool}
    {format : Format} {o : Outcome} :
    act now coloured m (.evaluate format) = .ok o ↔
      ∃ r, m.evaluate now = .ok r ∧ o.code = (if r.success then .healthy else .unhealthy) ∧
        o.output = print format coloured m r ∧ o.errors = [] := by
  unfold act
  rw [Abort.bind_eq_ok_iff]
  refine exists_congr fun r => and_congr_right fun _ => ?_
  constructor
  · intro h
    obtain rfl := Except.ok.inj h
    exact ⟨rfl, rfl, rfl⟩
  · rintro ⟨hcode, houtput, herrors⟩
    show Except.ok _ = Except.ok o
    rw [← hcode, ← houtput, ← herrors]

/-- An evaluation has no outcome exactly where the manifest has no report. -/
theorem act_evaluate_eq_overflow_iff {m : Manifest} {now : Timestamp} {coloured : Bool}
    {format : Format} :
    act now coloured m (.evaluate format) = .error .overflow ↔ m.Overflows now := by
  unfold act
  rw [Abort.bind_eq_error_iff, Manifest.evaluate_eq_overflow_iff]
  exact or_iff_left fun ⟨_, _, h⟩ => nomatch h

/-- The code of an evaluation that comes to its end is that of the manifest's health. -/
theorem number_of_act {m : Manifest} {now : Timestamp} {coloured : Bool} {format : Format}
    {o : Outcome} (h : act now coloured m (.evaluate format) = .ok o) :
    (o.code.number = 0 ↔ m.Healthy now) ∧ (o.code.number = 19 ↔ ¬ m.Healthy now) ∧
      o.code.number ≠ 5 ∧ o.errors = [] := by
  obtain ⟨r, hr, hcode, -, herrors⟩ := act_evaluate_eq_ok_iff.1 h
  rw [← Manifest.success_iff_of_evaluate hr, hcode]
  cases r.success <;> exact ⟨by decide, by decide, by decide, herrors⟩

/-- The outcomes of an evaluation and of a validation tell what loading the manifest came to, and
whether it is healthy. -/
structure Tells (loaded : Except Error Manifest) (now : Timestamp)
    (evaluated validated : Outcome) : Prop where
  unusable : evaluated.code.number = 5 ↔ ∃ e, loaded = .error e
  /-- Each of several causes has an entry on standard error, in order. -/
  several_complaints : ∀ causes, loaded = .error (.several causes) →
    evaluated.output = [] ∧ evaluated.errors = (causes.map complaint).flatten
  /-- A cause that does not stand for several has the only entry. -/
  one_complaint : ∀ e, loaded = .error e → (∀ causes, e ≠ .several causes) →
    evaluated.output = [] ∧ evaluated.errors = complaint e
  healthy : evaluated.code.number = 0 ↔ ∃ m, loaded = .ok m ∧ m.Healthy now
  unhealthy : evaluated.code.number = 19 ↔ ∃ m, loaded = .ok m ∧ ¬ m.Healthy now
  validation_unusable : validated.code.number = 5 ↔ evaluated.code.number = 5
  validation_usable : validated.code.number = 0 ↔ evaluated.code.number ≠ 5
  validation_errors : validated.errors = evaluated.errors

/-- Where nothing is loaded, the complaints are all that there is. -/
theorem tells_refuse (e : Error) (now : Timestamp) :
    Tells (.error e) now (refuse e) (refuse e) := by
  have hcode : (refuse e).code.number = 5 := rfl
  constructor
  · exact iff_of_true hcode ⟨e, rfl⟩
  · intro causes h
    obtain rfl := Except.error.inj h
    exact ⟨rfl, rfl⟩
  · intro e' h hone
    obtain rfl := Except.error.inj h
    have hcauses : e.causes = [e] := by
      cases e with
      | several causes => exact absurd rfl (hone causes)
      | _ => rfl
    refine ⟨rfl, ?_⟩
    show e.causes.flatMap complaint = complaint e
    rw [hcauses, List.flatMap_singleton]
  · refine iff_of_false (by rw [hcode]; decide) ?_
    rintro ⟨m, h, -⟩
    cases h
  · refine iff_of_false (by rw [hcode]; decide) ?_
    rintro ⟨m, h, -⟩
    cases h
  · exact Iff.rfl
  · exact iff_of_false (by rw [hcode]; decide) (fun h => h hcode)
  · rfl

/-- Where a manifest is loaded and its evaluation comes to an end, its health decides. -/
theorem tells_act {m : Manifest} {now : Timestamp} {coloured : Bool} {format : Format}
    {evaluated validated : Outcome}
    (hevaluated : act now coloured m (.evaluate format) = .ok evaluated)
    (hvalidated : act now coloured m .validate = .ok validated) :
    Tells (.ok m) now evaluated validated := by
  obtain rfl := Except.ok.inj hvalidated
  obtain ⟨hzero, hnineteen, hfive, herrors⟩ := number_of_act hevaluated
  have hvalid : ExitCode.healthy.number ≠ 5 := by decide
  constructor
  · refine iff_of_false hfive ?_
    rintro ⟨e, h⟩
    cases h
  · intro causes h
    cases h
  · intro e h
    cases h
  · rw [hzero]
    simp
  · rw [hnineteen]
    simp
  · exact iff_of_false hvalid hfive
  · exact iff_of_true rfl hfive
  · exact herrors.symm

/-- **Exit codes tell the truth**, of commands that come to an end. An evaluation does unless
loading the manifest stops or, once that is loaded, a condition does, and a validation unless
loading stops. On any input and in any format the evaluation then returns 5 if no manifest can be
loaded, with nothing on standard output and one complaint for each cause on standard error; 0 if the
manifest is healthy; and 19 if it is not. On the same input a validation returns 5 if the evaluation
does, 0 otherwise, and complains of the same. -/
theorem run_tells (input : Except Error Bytes) (now : Timestamp) (coloured : Bool)
    (format : Format) (config : Option Text) (verbosity : Nat) :
    (run ⟨.evaluate format, config, verbosity⟩ now coloured input = .error .overflow ↔
      loaded input = .error .overflow ∨ ∃ m, loaded input = .ok (.ok m) ∧ m.Overflows now) ∧
    (run ⟨.validate, config, verbosity⟩ now coloured input = .error .overflow ↔
      loaded input = .error .overflow) ∧
    (∀ validated, run ⟨.validate, config, verbosity⟩ now coloured input = .ok validated →
      (validated.code.number = 5 ↔ ∃ e, loaded input = .ok (.error e)) ∧
      (validated.code.number = 0 ↔ ∃ m, loaded input = .ok (.ok m))) ∧
    ∀ evaluated validated,
      run ⟨.evaluate format, config, verbosity⟩ now coloured input = .ok evaluated →
      run ⟨.validate, config, verbosity⟩ now coloured input = .ok validated →
        ∃ result, loaded input = .ok result ∧ Tells result now evaluated validated := by
  match hloaded : loaded input with
  | .error a =>
    have hstop : loaded input = .error .overflow := by rw [hloaded, a.eq_overflow]
    rw [run_of_stop hstop, run_of_stop hstop, a.eq_overflow]
    exact ⟨iff_of_true rfl (Or.inl rfl), iff_of_true rfl rfl, nofun, nofun⟩
  | .ok (.error e) =>
    rw [run_of_error hloaded, run_of_error hloaded]
    refine ⟨iff_of_false nofun ?_, iff_of_false nofun nofun, fun validated h => ?_,
      fun evaluated validated hevaluated hvalidated => ⟨.error e, rfl, ?_⟩⟩
    · rintro (h | ⟨m, h, -⟩)
      · cases h
      · cases h
    · obtain rfl := Except.ok.inj h
      have hcode : ExitCode.unusable.number ≠ 0 := by decide
      exact ⟨iff_of_true rfl ⟨e, rfl⟩, iff_of_false hcode fun ⟨_, h⟩ => nomatch h⟩
    · obtain rfl := Except.ok.inj hevaluated
      obtain rfl := Except.ok.inj hvalidated
      exact tells_refuse e now
  | .ok (.ok m) =>
    rw [run_of_ok hloaded, run_of_ok hloaded]
    refine ⟨?_, iff_of_false nofun nofun, fun validated h => ?_,
      fun evaluated validated hevaluated hvalidated =>
        ⟨.ok m, rfl, tells_act hevaluated hvalidated⟩⟩
    · rw [act_evaluate_eq_overflow_iff]
      simp
    · obtain rfl := Except.ok.inj h
      have hcode : ExitCode.healthy.number ≠ 5 := by decide
      exact ⟨iff_of_false hcode fun ⟨_, h⟩ => (nomatch h), iff_of_true rfl ⟨m, rfl⟩⟩

/-- What is said of the causes of a failure, where there are several. -/
def complaints? : Except Abort (Except Error Manifest) → Option (List Text)
  | .ok (.error (.several causes)) => some (causes.map complaint)
  | _ => none

theorem exists_causes_of_complaints? {loaded : Except Abort (Except Error Manifest)}
    {texts : List Text} (h : complaints? loaded = some texts) :
    ∃ causes, loaded = .ok (.error (.several causes)) ∧ causes.map complaint = texts := by
  unfold complaints? at h
  split at h
  · exact ⟨_, rfl, Option.some.inj h⟩
  · cases h

/-- A manifest of two endpoints that share a name and have no conditions. -/
def twinEndpoints : Text := "endpoints: [{name: a}, {name: a}]".toList

/-- What is said of them. -/
def twinComplaints : List Text :=
  ["Error: invalid configuration: endpoint 'a' must have at least one condition\n".toList,
    "Error: invalid configuration: duplicate endpoint name 'a'\n".toList,
    "Error: invalid configuration: endpoint 'a' must have at least one condition\n".toList]

/-- Each of the three problems of a manifest has its entry, for an evaluation and for a
validation. -/
theorem run_twinEndpoints :
    ∃ causes evaluated validated,
      loaded (.ok (Utf8.encode twinEndpoints)) = .ok (.error (.several causes)) ∧
      run ⟨.evaluate .json, none, 0⟩ Suite.sessionStart false (.ok (Utf8.encode twinEndpoints)) =
        .ok evaluated ∧
      run ⟨.validate, none, 0⟩ Suite.sessionStart false (.ok (Utf8.encode twinEndpoints)) =
        .ok validated ∧
      evaluated.code.number = 5 ∧ evaluated.output = [] ∧
      validated.errors = twinComplaints.flatten := by
  have htexts : complaints? (loaded (.ok (Utf8.encode twinEndpoints))) = some twinComplaints := by
    decide +kernel
  obtain ⟨causes, hload, hcauses⟩ := exists_causes_of_complaints? htexts
  have hevaluated := run_of_error hload ⟨.evaluate .json, none, 0⟩ Suite.sessionStart false
  have hvalidated := run_of_error hload ⟨.validate, none, 0⟩ Suite.sessionStart false
  obtain ⟨-, -, -, htells⟩ := run_tells (.ok (Utf8.encode twinEndpoints)) Suite.sessionStart false
    .json none 0
  obtain ⟨result, hresult, htells⟩ := htells _ _ hevaluated hvalidated
  obtain rfl := Except.ok.inj (hload.symm.trans hresult)
  obtain ⟨houtput, herrors⟩ := htells.several_complaints causes rfl
  refine ⟨causes, _, _, hload, hevaluated, hvalidated, htells.unusable.2 ⟨_, rfl⟩, houtput, ?_⟩
  rw [htells.validation_errors, herrors, hcauses]

/-- A manifest with a condition that is true in exact numbers, where its literal counts for
nothing. -/
def overflowingManifest : Text :=
  "endpoints: [{name: a, conditions: [1 > 170141183460469231731687303715884105.9us]}]".toList

/-- Neither an evaluation nor a validation of it comes to an exit code. -/
theorem overflowing_manifest_has_no_code :
    (∀ outcome, (Condition.mk ("1 > ".toList ++ Duration.widestMicros)).exactOutcome {} none {} =
      some outcome → outcome.success = true) ∧
    ∀ action now coloured, ∀ outcome,
      run ⟨action, none, 0⟩ now coloured (.ok (Utf8.encode overflowingManifest)) ≠ .ok outcome := by
  have hexact : ((Condition.mk ("1 > ".toList ++ Duration.widestMicros)).exactOutcome {} none
      {}).map ConditionOutcome.success = some true := by decide +kernel
  have hstops : (loaded (.ok (Utf8.encode overflowingManifest))).toOption.isNone = true := by
    decide +kernel
  refine ⟨fun outcome houtcome => ?_, fun action now coloured outcome hrun => ?_⟩
  · rw [houtcome] at hexact
    exact Option.some.inj hexact
  · cases hloaded : loaded (.ok (Utf8.encode overflowingManifest)) with
    | error a =>
      rw [a.eq_overflow] at hloaded
      rw [run_of_stop hloaded] at hrun
      cases hrun
    | ok result =>
      rw [hloaded] at hstops
      cases hstops

end Command

end HealthCheck
