import HealthCheck.Command
import HealthCheck.Proofs.Command.ExitCode
import HealthCheck.Proofs.Manifest.Validation
import HealthCheck.Proofs.Suite.DataFlow

/-!
# What the console shows

The report for the console finds the result of a step by its name, in a list from which the skipped
steps are missing. Here every line has its place by position instead: `Suite.statusAt` is how the
step at a position turned out, `Report.stepEntry` what is to be said of that very step. The lines
are given as the texts that they are to be, with a mark for the status, the condition outcomes in
order and then the errors.

Where the names of the steps differ, as they do in a valid manifest, a result that has the name of a
step is the result of that step (`Suite.mem_results_iff`). So the lookup finds each step's own
result, and nothing where the step was skipped, and the report is the one by position. There is a
report unless a condition of the manifest stops.
-/

namespace HealthCheck

/-! ## Steps by name and by position -/

/-- A lookup finds the only entry that it accepts, or nothing where it accepts none. -/
theorem Report.find?_eq_of_only {α : Type} {l : List α} {accepts : α → Bool} {o : Option α}
    (h : ∀ a, a ∈ l ∧ accepts a = true ↔ o = some a) : l.find? accepts = o := by
  cases hfind : l.find? accepts with
  | some a =>
    have ha : a ∈ l ∧ accepts a = true :=
      ⟨List.mem_of_find?_eq_some hfind, List.find?_some hfind⟩
    exact ((h a).1 ha).symm
  | none =>
    rw [List.find?_eq_none] at hfind
    cases o with
    | none => rfl
    | some a =>
      obtain ⟨hmem, haccepts⟩ := (h a).2 rfl
      exact absurd haccepts (hfind a hmem)

namespace Suite

variable {s : Suite} {now : Timestamp} {i : Nat} {e : Endpoint}

/-- How the step at a position turned out. -/
def statusAt (s : Suite) (now : Timestamp) (i : Nat) : Status :=
  match s.resultAt? now i with
  | some p => .ofBool p.success
  | none => .skip

/-- A step is skipped exactly if it did not run. -/
theorem statusAt_eq_skip_iff : s.statusAt now i = .skip ↔ ¬ s.Ran now i := by
  rw [statusAt, Ran]
  cases s.resultAt? now i with
  | none => simp
  | some p => cases hp : p.success <;> simp [hp, Status.ofBool]

/-- A step passes exactly if it ran and succeeded. -/
theorem statusAt_eq_pass_iff : s.statusAt now i = .pass ↔ s.Passed now i := by
  rw [statusAt, passed_iff]
  cases s.resultAt? now i with
  | none => simp
  | some p => cases hp : p.success <;> simp [hp, Status.ofBool]

/-- A step fails exactly if it ran and did not succeed. -/
theorem statusAt_eq_fail_iff :
    s.statusAt now i = .fail ↔ s.Ran now i ∧ ¬ s.Passed now i := by
  rw [statusAt, Ran, passed_iff]
  cases s.resultAt? now i with
  | none => simp
  | some p => cases hp : p.success <;> simp [hp, Status.ofBool]

theorem endpointResults_of_execute {r : SuiteResult} (hr : s.execute now = .ok r) :
    r.endpointResults = (List.range s.endpoints.length).filterMap (s.resultAt? now) := by
  obtain ⟨last, hlast, rfl⟩ := execute_eq_ok_iff.1 hr
  exact results_progressBefore hlast (Nat.le_refl _)

/-- Where names differ, a result that has the name of a step is the result of that step. -/
theorem mem_results_iff {r : SuiteResult} (hr : s.execute now = .ok r)
    (hnames : (s.endpoints.map Endpoint.name).Nodup) (he : s.endpoints[i]? = some e) (p : Probe) :
    p ∈ r.endpointResults ∧ p.name = e.name ↔ s.resultAt? now i = some p := by
  have hname : (s.endpoints.map Endpoint.name)[i]? = some e.name := by
    rw [List.getElem?_map, he, Option.map_some]
  rw [endpointResults_of_execute hr, List.mem_filterMap]
  constructor
  · rintro ⟨⟨j, hj, hp⟩, hpname⟩
    have hjname : (s.endpoints.map Endpoint.name)[j]? = some e.name := by
      rw [List.getElem?_map, name_resultAt? hp, hpname]
    have hjlen : j < (s.endpoints.map Endpoint.name).length := by
      rw [List.length_map]
      exact List.mem_range.1 hj
    -- The result of step `j` has the name of step `j`, and only one step has that name.
    have hji : j = i := (List.getElem?_inj hjlen hnames).1 (hjname.trans hname.symm)
    rwa [← hji]
  · intro hp
    have hi : i < s.endpoints.length := (List.getElem?_eq_some_iff.1 he).1
    have hpname : some e.name = some p.name := by
      rw [← name_resultAt? hp, he, Option.map_some]
    exact ⟨⟨i, List.mem_range.2 hi, hp⟩, (Option.some.inj hpname).symm⟩

/-- The lookup by a step's name comes to what the step added to the run. -/
theorem find?_name_endpointResults {r : SuiteResult} (hr : s.execute now = .ok r)
    (hnames : (s.endpoints.map Endpoint.name).Nodup) (he : s.endpoints[i]? = some e) :
    r.endpointResults.find? (·.name == e.name) = s.resultAt? now i := by
  apply Report.find?_eq_of_only
  intro p
  rw [beq_iff_eq]
  exact mem_results_iff hr hnames he p

end Suite

/-! ## The report by position -/

namespace Report

/-- How a status is shown: green, red or yellow where colours are wanted. -/
def mark (coloured : Bool) : Status → Text
  | .pass => (if coloured then "\x1b[32mPASS\x1b[0m" else "PASS").toList
  | .fail => (if coloured then "\x1b[31mFAIL\x1b[0m" else "FAIL").toList
  | .skip => (if coloured then "\x1b[33mSKIP\x1b[0m" else "SKIP").toList

/-- What is to be said of a result, behind blanks: every condition outcome, then every error. -/
def details (coloured : Bool) (blanks : Text) (p : Probe) : List Text :=
  (p.conditionOutcomes.map fun o =>
    blanks ++ mark coloured (if o.success then .pass else .fail) ++ " ".toList ++ o.condition) ++
  p.errors.map fun message => blanks ++ "Error: ".toList ++ message

/-- What is to be said of an endpoint that stands alone, if it has an outcome. -/
def endpointEntry (coloured : Bool) (now : Timestamp) (e : Endpoint) : List Text :=
  (e.outcome now).toOption.elim [] fun p =>
    ("Endpoint ".toList ++ e.name ++ " Status = ".toList ++
      mark coloured (if p.success then .pass else .fail)) :: details coloured "  ".toList p

/-- What is to be said of the step at a position: how it turned out and, if it ran, its own
condition outcomes and errors. -/
def stepEntry (coloured : Bool) (s : Suite) (now : Timestamp) (i : Nat) (e : Endpoint) :
    List Text :=
  ("  Step ".toList ++ e.name ++ " Status = ".toList ++ mark coloured (s.statusAt now i)) ::
    (s.resultAt? now i).elim [] (details coloured "    ".toList)

/-- What is to be said of a suite, if it has an outcome, and of its steps, in order. -/
def suiteEntry (coloured : Bool) (now : Timestamp) (s : Suite) : List Text :=
  (s.execute now).toOption.elim [] fun r =>
    ("Suite ".toList ++ s.name ++ " Status = ".toList ++
      mark coloured (if r.success then .pass else .fail)) ::
        s.endpoints.zipIdx.flatMap fun (e, i) => stepEntry coloured s now i e

/-- What is to be said of a manifest, up to a verdict. -/
def entries (coloured : Bool) (m : Manifest) (now : Timestamp) (verdict : Status) : List Text :=
  m.endpoints.flatMap (endpointEntry coloured now) ++
    m.suites.flatMap (suiteEntry coloured now) ++
    ["Overall Status = ".toList ++ mark coloured verdict]

theorem text_status (coloured : Bool) (status : Status) :
    status.text coloured = mark coloured status := by
  cases status <;> cases coloured <;> decide

/-- The end of a line that shows a status, behind what is named in front of it. -/
theorem append_statusText (coloured : Bool) (heading : Text) (status : Status) :
    heading ++ statusText coloured status =
      heading ++ " Status = ".toList ++ mark coloured status := by
  rw [List.append_assoc, ← text_status]
  rfl

/-- The lines for condition outcomes and errors read as they are to. -/
theorem text_detailLines (coloured inStep : Bool) (p : Probe) :
    (detailLines inStep p).map (Line.text coloured) = details coloured (margin inStep) p := by
  have houtcome : ∀ o : ConditionOutcome,
      (Line.outcome inStep (.ofBool o.success) o.condition).text coloured =
        margin inStep ++ mark coloured (if o.success then .pass else .fail) ++ " ".toList ++
          o.condition := by
    intro o
    show margin inStep ++ (Status.ofBool o.success).text coloured ++ ([' '] ++ o.condition) = _
    rw [text_status, ← List.append_assoc]
    rfl
  have herror : ∀ message : Text, (Line.error inStep message).text coloured =
      margin inStep ++ "Error: ".toList ++ message := fun _ => rfl
  rw [detailLines, List.map_append, List.map_map, List.map_map, details]
  exact congrArg₂ _ (List.map_congr_left fun o _ => houtcome o)
    (List.map_congr_left fun message _ => herror message)

theorem margin_endpoint : margin false = "  ".toList := by decide

theorem margin_step : margin true = "    ".toList := by decide

/-- The lines for an endpoint read as they are to. -/
theorem text_endpointLines {e : Endpoint} {now : Timestamp} {p : Probe}
    (hp : e.outcome now = .ok p) (coloured : Bool) :
    (endpointLines p).map (Line.text coloured) = endpointEntry coloured now e := by
  have hname : p.name = e.name := by
    obtain ⟨-, rfl⟩ := Endpoint.outcome_eq_ok_iff.1 hp
    rfl
  have hheading : (Line.endpoint p.name (.ofBool p.success)).text coloured =
      "Endpoint ".toList ++ e.name ++ " Status = ".toList ++
        mark coloured (if p.success then .pass else .fail) := by
    rw [← hname]
    exact append_statusText coloured _ _
  rw [endpointEntry, hp, endpointLines, List.map_cons, text_detailLines, margin_endpoint, hheading,
    Except.toOption, Option.elim_some]

variable {s : Suite} {now : Timestamp} {r : SuiteResult} {i : Nat} {e : Endpoint}

/-- The lines for a step, found by its name, read as those by its position are to. -/
theorem text_stepLines (hr : s.execute now = .ok r)
    (hnames : (s.endpoints.map Endpoint.name).Nodup) (he : s.endpoints[i]? = some e)
    (coloured : Bool) :
    (stepLines r.endpointResults e).map (Line.text coloured) = stepEntry coloured s now i e := by
  have hheading : ∀ status, (Line.step e.name status).text coloured =
      "  Step ".toList ++ e.name ++ " Status = ".toList ++ mark coloured status :=
    append_statusText coloured _
  rw [stepLines, Suite.find?_name_endpointResults hr hnames he, stepEntry, Suite.statusAt]
  cases s.resultAt? now i with
  | none =>
    dsimp only
    rw [List.map_singleton, hheading, Option.elim_none]
  | some p =>
    dsimp only
    rw [List.map_cons, text_detailLines, margin_step, hheading, Option.elim_some]

/-- The lines for a suite read as they are to. -/
theorem text_suiteLines (hr : s.execute now = .ok r)
    (hnames : (s.endpoints.map Endpoint.name).Nodup) (coloured : Bool) :
    (suiteLines s r).map (Line.text coloured) = suiteEntry coloured now s := by
  have hsteps : (s.endpoints.flatMap (stepLines r.endpointResults)).map (Line.text coloured) =
      s.endpoints.zipIdx.flatMap fun (e, i) => stepEntry coloured s now i e := by
    calc (s.endpoints.flatMap (stepLines r.endpointResults)).map (Line.text coloured)
        = (s.endpoints.zipIdx.map Prod.fst).flatMap
            fun e => (stepLines r.endpointResults e).map (Line.text coloured) := by
          rw [List.map_flatMap, List.zipIdx_map_fst]
      _ = s.endpoints.zipIdx.flatMap fun (e, i) => stepEntry coloured s now i e := by
          rw [List.flatMap_map]
          apply List.flatMap_congr
          intro ⟨e, i⟩ hei
          exact text_stepLines hr hnames (List.mk_mem_zipIdx_iff_getElem?.1 hei) coloured
  obtain ⟨last, -, hresult⟩ := Suite.execute_eq_ok_iff.1 hr
  have hname : r.name = s.name := congrArg SuiteResult.name hresult
  have hheading : (Line.suite s.name (.ofBool r.success)).text coloured =
      "Suite ".toList ++ s.name ++ " Status = ".toList ++
        mark coloured (if r.success then .pass else .fail) := append_statusText coloured _ _
  rw [suiteEntry, hr, suiteLines, List.map_cons, hsteps, hname, hheading, Except.toOption,
    Option.elim_some]

/-- The steps of every suite of a valid manifest have different names. -/
theorem nodup_stepNames_of_validate {m : Manifest} (h : m.validate = .ok (.ok ()))
    (hs : s ∈ m.suites) : (s.endpoints.map Endpoint.name).Nodup := by
  obtain ⟨-, -, hfaults⟩ := Manifest.validate_eq_ok_iff.1 h
  obtain ⟨-, -, hsuites⟩ := Manifest.firstFaults_eq_nil_iff.1 hfaults
  obtain ⟨-, -, hnames, -⟩ := Suite.faults_eq_nil_iff.1 (hsuites s hs)
  exact hnames

/-- The suites of a valid manifest are reported one by one, each with its own result. -/
theorem text_linesOfSuites {m : Manifest} (h : m.validate = .ok (.ok ())) {now : Timestamp}
    {results : List SuiteResult} (hresults : m.suites.mapM (·.execute now) = .ok results)
    (coloured : Bool) :
    ((m.suites.zip results).flatMap fun (s, result) => suiteLines s result).map
        (Line.text coloured) = m.suites.flatMap (suiteEntry coloured now) := by
  rw [List.map_flatMap]
  exact Abort.flatMap_zip_of_mapM hresults fun s hs result hresult =>
    text_suiteLines hresult (nodup_stepNames_of_validate h hs) coloured

/-- The report on a valid manifest, which goes by names, is the one by position. -/
theorem text_lines {m : Manifest} (h : m.validate = .ok (.ok ())) {now : Timestamp} {r : Report}
    (hr : m.evaluate now = .ok r) (coloured : Bool) :
    (r.lines m).map (Line.text coloured) =
      entries coloured m now (if r.success then .pass else .fail) := by
  obtain ⟨hendpoints, hsuites, -⟩ := Manifest.evaluate_eq_ok_iff.1 hr
  have hendpointLines : (r.endpoints.flatMap endpointLines).map (Line.text coloured) =
      m.endpoints.flatMap (endpointEntry coloured now) := by
    rw [List.map_flatMap]
    exact Abort.flatMap_of_mapM hendpoints fun e _ p hp => text_endpointLines hp coloured
  have hverdict : (Line.verdict (.ofBool r.success)).text coloured =
      "Overall Status = ".toList ++ mark coloured (if r.success then .pass else .fail) := by
    have hwords : "Overall".toList ++ " Status = ".toList = "Overall Status = ".toList := by decide
    rw [← hwords]
    exact append_statusText coloured _ _
  rw [lines, List.map_append, List.map_append, hendpointLines,
    text_linesOfSuites h hsuites coloured, List.map_singleton, hverdict, entries]

/-- **The console report is faithful.** An evaluation of a valid manifest that comes to its end
prints of every endpoint, of every suite and of every step in turn what that very one came to, each
condition outcome and each error included, and ends with the verdict that decides the exit code. A
step is shown as skipped exactly if it did not run, and else by its own success. The evaluation
stops exactly where a condition that is evaluated does. -/
theorem console_shows_entries {m : Manifest} (h : m.validate = .ok (.ok ())) (now : Timestamp)
    (coloured : Bool) :
    (Command.act now coloured m (.evaluate .console) = .error .overflow ↔ m.Overflows now) ∧
    ∀ o, Command.act now coloured m (.evaluate .console) = .ok o →
      ((∀ e ∈ m.endpoints, ∃ p, e.outcome now = .ok p) ∧
        ∀ s ∈ m.suites, ∃ r, s.execute now = .ok r) ∧
      (∃ verdict : Status,
        o.output = (entries coloured m now verdict).flatMap (fun line => line ++ ['\n']) ∧
        (o.code.number = 0 ↔ verdict = .pass) ∧
        (o.code.number = 19 ↔ verdict = .fail)) ∧
      ∀ s ∈ m.suites, ∀ i < s.endpoints.length,
        (s.statusAt now i = .skip ↔ ¬ s.Ran now i) ∧
        (s.statusAt now i = .pass ↔ s.Passed now i) ∧
        (s.statusAt now i = .fail ↔ s.Ran now i ∧ ¬ s.Passed now i) := by
  refine ⟨Command.act_evaluate_eq_overflow_iff, fun o ho => ?_⟩
  obtain ⟨r, hr, hcode, houtput, -⟩ := Command.act_evaluate_eq_ok_iff.1 ho
  obtain ⟨hendpoints, hsuites, -⟩ := Manifest.evaluate_eq_ok_iff.1 hr
  refine ⟨⟨Abort.exists_ok_of_mapM hendpoints, Abort.exists_ok_of_mapM hsuites⟩,
    ⟨if r.success then .pass else .fail, ?_, ?_, ?_⟩, fun s _ i _ => ?_⟩
  · rw [houtput, ← text_lines h hr, List.flatMap_map]
    rfl
  · rw [hcode]
    cases r.success <;> decide
  · rw [hcode]
    cases r.success <;> decide
  · exact ⟨Suite.statusAt_eq_skip_iff, Suite.statusAt_eq_pass_iff, Suite.statusAt_eq_fail_iff⟩

/-- An endpoint that is healthy. -/
def frontPage : Endpoint where
  name := "front page".toList
  conditions := [⟨"[STATUS] == 200".toList⟩]
  store := ⟨[], List.nodup_nil⟩
  result := { status := 200 }

/-- An endpoint that could not be reached. -/
def mirror : Endpoint where
  name := "mirror".toList
  conditions := [⟨"[STATUS] == 200".toList⟩]
  store := ⟨[], List.nodup_nil⟩
  result := { errors := ["connection refused".toList] }

/-- Two endpoints, a suite with a step of each status, and a suite with a step that has an error. -/
def sessionManifest : Manifest where
  endpoints := [frontPage, mirror]
  suites := [Suite.sessionSuite, { name := "mirrors".toList, endpoints := [mirror] }]

/-- What the report on `sessionManifest` says, line by line. -/
def sessionReport : List Text :=
  ["Endpoint front page Status = PASS\n".toList,
    "  PASS [STATUS] == 200\n".toList,
    "Endpoint mirror Status = FAIL\n".toList,
    "  FAIL [STATUS] (0) == 200\n".toList,
    "  Error: connection refused\n".toList,
    "Suite session Status = FAIL\n".toList,
    "  Step login Status = FAIL\n".toList,
    "    FAIL [STATUS] (200) == 201\n".toList,
    "  Step audit Status = SKIP\n".toList,
    "  Step logout Status = PASS\n".toList,
    "    PASS [CONTEXT].session.id == 200\n".toList,
    "Suite mirrors Status = FAIL\n".toList,
    "  Step mirror Status = FAIL\n".toList,
    "    FAIL [STATUS] (0) == 200\n".toList,
    "    Error: connection refused\n".toList,
    "Overall Status = FAIL\n".toList]

/-- The skipped step is shown between the two that ran, which keep their own statuses, and errors
stand behind condition outcomes. -/
theorem sessionManifest_console :
    sessionManifest.validate = .ok (.ok ()) ∧
      (∃ o, Command.act Suite.sessionStart false sessionManifest (.evaluate .console) = .ok o ∧
        o.output = sessionReport.flatten ∧ o.code.number = 19) ∧
      ¬ Suite.sessionSuite.Ran Suite.sessionStart 1 ∧
      Suite.sessionSuite.Passed Suite.sessionStart 2 := by
  have hvalid : sessionManifest.validate = .ok (.ok ()) := rfl
  obtain ⟨-, hreport⟩ := console_shows_entries hvalid Suite.sessionStart false
  have hends : (Command.act Suite.sessionStart false sessionManifest
      (.evaluate .console)).toOption.map (·.code.number) = some 19 := by decide +kernel
  obtain ⟨o, ho, hcode⟩ := Option.map_eq_some_iff.1 hends
  rw [Abort.toOption_eq_some_iff] at ho
  obtain ⟨-, ⟨verdict, houtput, -, hunhealthy⟩, hsteps⟩ := hreport o ho
  have hverdict : verdict = .fail := hunhealthy.1 hcode
  have htext : (entries false sessionManifest Suite.sessionStart .fail).map
      (fun line => line ++ ['\n']) = sessionReport := by decide +kernel
  have hsuite : Suite.sessionSuite ∈ sessionManifest.suites := List.mem_cons_self
  obtain ⟨hskip, -, -⟩ := hsteps _ hsuite 1 (by decide)
  obtain ⟨-, hpass, -⟩ := hsteps _ hsuite 2 (by decide)
  refine ⟨hvalid, ⟨o, ho, ?_, hcode⟩, hskip.1 (by decide +kernel), hpass.1 (by decide +kernel)⟩
  rw [houtput, hverdict, ← htext, List.flatMap_def]

/-- An endpoint with a condition on a body in which a component overflows. -/
def gauge : Endpoint where
  name := "gauge".toList
  conditions := [⟨"[BODY] > 0".toList⟩]
  store := ⟨[], List.nodup_nil⟩
  result := { body := Utf8.encode Duration.widestMicros }

/-- A valid manifest whose evaluation prints no report. -/
theorem valid_manifest_has_no_report :
    ({ endpoints := [gauge] } : Manifest).validate = .ok (.ok ()) ∧
      ∀ now coloured outcome,
        Command.act now coloured { endpoints := [gauge] } (.evaluate .console) ≠ .ok outcome := by
  have hover : gauge.Overflows none := by decide +kernel
  refine ⟨rfl, fun now coloured outcome houtcome => ?_⟩
  have hstops : Command.act now coloured { endpoints := [gauge] } (.evaluate .console) =
      .error .overflow :=
    Command.act_evaluate_eq_overflow_iff.2 (Or.inl ⟨gauge, List.mem_cons_self, hover⟩)
  rw [hstops] at houtcome
  cases houtcome

end Report

end HealthCheck
