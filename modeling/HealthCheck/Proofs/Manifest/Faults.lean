import HealthCheck.Proofs.Command.ExitCode
import HealthCheck.Proofs.Manifest.WellFormed
import Mathlib.Data.List.Duplicate

/-!
# What a check says of a manifest

`Manifest.HasFault` lists all that can be wrong with a manifest: every repeated name, and every
fault of every endpoint, step and suite. The check of an endpoint or a suite stops at its first
fault (`Endpoint.finds_validate`, `Suite.finds_validate`), while that of a manifest goes on from
one to the next. So a manifest's check reports all repeated names and the first fault of each
endpoint and suite, and nothing else; what is behind a first fault is hidden. A check that does not
come to its end (`Manifest.CheckStops`) reports nothing at all.
-/

namespace HealthCheck

/-! ## All faults -/

/-- What is wrong with an endpoint, each fault as the error that names it. -/
inductive Endpoint.HasFault (e : Endpoint) : Error → Prop where
  | nameless (h : Text.AllBlank e.name) : e.HasFault .namelessEndpoint
  | noConditions (h : e.conditions = []) : e.HasFault (.noConditions e.name)
  | invalidCondition {c : Condition} (hc : c ∈ e.conditions) (h : ¬ c.Splits) :
      e.HasFault (.invalidCondition c.text)

/-- What is wrong with a suite: what is wrong with the suite itself, and with its steps. -/
inductive Suite.HasFault (s : Suite) : Error → Prop where
  | nameless (h : Text.AllBlank s.name) : s.HasFault .namelessSuite
  | noSteps (h : s.endpoints = []) : s.HasFault (.noSteps s.name)
  | duplicateStep {name : Text} (h : List.Duplicate name (s.endpoints.map Endpoint.name)) :
      s.HasFault (.duplicateStep s.name name)
  | invalidStep {e : Endpoint} {cause : Error} (he : e ∈ s.endpoints) (h : e.HasFault cause) :
      s.HasFault (.invalidStep s.name e.name cause)

/-- A name of the manifest stands twice among its like. -/
inductive Manifest.HasRepeatedName (m : Manifest) : Error → Prop where
  | endpoint {name : Text} (h : List.Duplicate name (m.endpoints.map Endpoint.name)) :
      m.HasRepeatedName (.duplicateEndpoint name)
  | suite {name : Text} (h : List.Duplicate name (m.suites.map Suite.name)) :
      m.HasRepeatedName (.duplicateSuite name)

/-- What is wrong with a manifest. -/
inductive Manifest.HasFault (m : Manifest) : Error → Prop where
  | repeatedName {cause : Error} (h : m.HasRepeatedName cause) : m.HasFault cause
  | endpoint {e : Endpoint} {cause : Error} (he : e ∈ m.endpoints) (h : e.HasFault cause) :
      m.HasFault cause
  | suite {s : Suite} {cause : Error} (hs : s ∈ m.suites) (h : s.HasFault cause) :
      m.HasFault cause

/-! ## Faults in order -/

/-- Faults along a list are the repeated names and what is wrong with each thing. -/
theorem mem_faultsAlong {α : Type} {name : α → Text} {repeated : Text → Error}
    {faults : α → List Error} {seen : List Text} {as : List α} {cause : Error} :
    cause ∈ faultsAlong name repeated faults seen as ↔
      (∃ n, (n ∈ as.map name ∧ n ∈ seen ∨ List.Duplicate n (as.map name)) ∧ cause = repeated n) ∨
        ∃ a ∈ as, cause ∈ faults a := by
  induction as generalizing seen with
  | nil => simp [faultsAlong]
  | cons a as ih =>
    have hhere : cause ∈ (if name a ∈ seen then [repeated (name a)] else []) ↔
        name a ∈ seen ∧ cause = repeated (name a) := by
      split_ifs with hseen
      · simp [hseen]
      · simp [hseen]
    -- A name further on is repeated if it was seen before, be it here or further up.
    have hnames : ∀ n, (n ∈ as.map name ∧ n ∈ name a :: seen ∨ List.Duplicate n (as.map name)) ∨
          (n = name a ∧ n ∈ seen) ↔
        (n ∈ (a :: as).map name ∧ n ∈ seen ∨ List.Duplicate n ((a :: as).map name)) := by
      intro n
      rw [List.map_cons, List.duplicate_cons_iff, List.mem_cons, List.mem_cons]
      grind
    rw [faultsAlong, List.mem_append, List.mem_append, hhere, ih]
    simp only [← hnames, List.mem_cons, or_and_right, exists_or]
    grind

/-- The faults of each endpoint and of each suite. -/
def Manifest.parts (m : Manifest) : List (List Error) :=
  m.endpoints.map Endpoint.faults ++ m.suites.map Suite.faults

theorem Condition.isNone_split_iff {c : Condition} : c.split.isNone = true ↔ ¬ c.Splits := by
  rw [← isSome_split_iff]
  simp

/-- The list of the faults of an endpoint has all of them. -/
theorem Endpoint.mem_faults_iff {e : Endpoint} {cause : Error} :
    cause ∈ e.faults ↔ e.HasFault cause := by
  simp only [faults, List.mem_append, List.mem_map, List.mem_filter, Condition.isNone_split_iff]
  constructor
  · rintro (h | h | ⟨c, ⟨hc, hsplits⟩, rfl⟩)
    · split_ifs at h with hname
      · rw [List.mem_singleton.1 h]
        exact .nameless hname
      · exact absurd h List.not_mem_nil
    · split_ifs at h with hconditions
      · rw [List.mem_singleton.1 h]
        exact .noConditions hconditions
      · exact absurd h List.not_mem_nil
    · exact .invalidCondition hc hsplits
  · intro h
    cases h with
    | nameless hname => simp [hname]
    | noConditions hconditions => simp [hconditions]
    | @invalidCondition c hc hsplits => exact Or.inr (Or.inr ⟨c, ⟨hc, hsplits⟩, rfl⟩)

/-- The list of the faults of a suite has all of them. -/
theorem Suite.mem_faults_iff {s : Suite} {cause : Error} :
    cause ∈ s.faults ↔ s.HasFault cause := by
  simp only [faults, List.mem_append, mem_faultsAlong, List.mem_map, List.not_mem_nil, and_false,
    false_or, Endpoint.mem_faults_iff]
  constructor
  · rintro (h | h | ⟨n, hn, rfl⟩ | ⟨e, he, cause, hcause, rfl⟩)
    · split_ifs at h with hname
      · rw [List.mem_singleton.1 h]
        exact .nameless hname
      · exact absurd h List.not_mem_nil
    · split_ifs at h with hsteps
      · rw [List.mem_singleton.1 h]
        exact .noSteps hsteps
      · exact absurd h List.not_mem_nil
    · exact .duplicateStep hn
    · exact .invalidStep he hcause
  · intro h
    cases h with
    | nameless hname => simp [hname]
    | noSteps hsteps => simp [hsteps]
    | @duplicateStep n hn => exact Or.inr (Or.inr (Or.inl ⟨n, hn, rfl⟩))
    | @invalidStep e cause he hcause =>
      exact Or.inr (Or.inr (Or.inr ⟨e, he, cause, hcause, rfl⟩))

namespace Manifest

variable {m : Manifest} {cause : Error}

/-- What is wrong with a manifest are its repeated names and all faults of its parts. -/
theorem hasFault_iff :
    m.HasFault cause ↔ m.HasRepeatedName cause ∨ ∃ part ∈ m.parts, cause ∈ part := by
  simp only [parts, List.mem_append, List.mem_map, or_and_right, exists_or,
    exists_exists_and_eq_and, Endpoint.mem_faults_iff, Suite.mem_faults_iff]
  constructor
  · intro h
    cases h with
    | repeatedName h => exact Or.inl h
    | @endpoint e _ he h => exact Or.inr (Or.inl ⟨e, he, h⟩)
    | @suite s _ hs h => exact Or.inr (Or.inr ⟨s, hs, h⟩)
  · rintro (h | ⟨e, he, h⟩ | ⟨s, hs, h⟩)
    · exact .repeatedName h
    · exact .endpoint he h
    · exact .suite hs h

/-! ## What is reported -/

theorem mem_take_one_iff {l : List Error} : cause ∈ l.take 1 ↔ l.head? = some cause := by
  cases l <;> simp [eq_comm]

/-- What a check finds first are the repeated names and the first fault of each part. -/
theorem mem_firstFaults_iff :
    cause ∈ m.firstFaults ↔
      m.HasRepeatedName cause ∨ ∃ part ∈ m.parts, part.head? = some cause := by
  simp only [firstFaults, parts, List.mem_append, mem_faultsAlong, List.mem_map, List.not_mem_nil,
    and_false, false_or, mem_take_one_iff, or_and_right, exists_or, exists_exists_and_eq_and]
  have hnames : m.HasRepeatedName cause ↔
      (∃ n, List.Duplicate n (m.endpoints.map Endpoint.name) ∧ cause = .duplicateEndpoint n) ∨
        ∃ n, List.Duplicate n (m.suites.map Suite.name) ∧ cause = .duplicateSuite n := by
    constructor
    · intro h
      cases h with
      | @endpoint n h => exact Or.inl ⟨n, h, rfl⟩
      | @suite n h => exact Or.inr ⟨n, h, rfl⟩
    · rintro (⟨n, h, rfl⟩ | ⟨n, h, rfl⟩)
      · exact .endpoint h
      · exact .suite h
  rw [hnames, or_or_or_comm]

/-- What the check finds is wrong. -/
theorem hasFault_of_mem_firstFaults (h : cause ∈ m.firstFaults) : m.HasFault cause := by
  rw [mem_firstFaults_iff] at h
  rw [hasFault_iff]
  refine h.imp_right ?_
  rintro ⟨part, hpart, hhead⟩
  exact ⟨part, hpart, List.mem_of_head? hhead⟩

/-- A fault may be hidden, but where there is one the check finds one. -/
theorem firstFaults_eq_nil_iff_not_hasFault :
    m.firstFaults = [] ↔ ∀ cause, ¬ m.HasFault cause := by
  rw [List.eq_nil_iff_forall_not_mem]
  constructor
  · intro hnone cause hfault
    rcases hasFault_iff.1 hfault with hname | ⟨part, hpart, hcause⟩
    · exact hnone cause (mem_firstFaults_iff.2 (Or.inl hname))
    · obtain ⟨first, others, rfl⟩ := List.exists_cons_of_ne_nil (List.ne_nil_of_mem hcause)
      exact hnone first (mem_firstFaults_iff.2 (Or.inr ⟨_, hpart, rfl⟩))
  · intro hnone cause hcause
    exact hnone cause (hasFault_of_mem_firstFaults hcause)

/-- No fault stands for several errors. -/
theorem HasFault.causes (h : m.HasFault cause) : cause.causes = [cause] := by
  cases h with
  | repeatedName h => cases h <;> rfl
  | endpoint _ h => cases h <;> rfl
  | suite _ h => cases h <;> rfl

/-- A verdict fails with all that was found. -/
theorem causes_of_verdict {failure : Error} (h : verdict m.firstFaults = .error failure) :
    failure.causes = m.firstFaults := by
  match hfaults : m.firstFaults with
  | [] =>
    rw [hfaults] at h
    cases h
  | [e] =>
    have hmem : e ∈ m.firstFaults := by
      rw [hfaults]
      exact List.mem_cons_self
    rw [hfaults] at h
    obtain rfl := Except.error.inj h
    exact (hasFault_of_mem_firstFaults hmem).causes
  | e :: e' :: es =>
    rw [hfaults] at h
    obtain rfl := Except.error.inj h
    rfl

/-- The check of the manifest fails, with the error among the causes. -/
def Reports (m : Manifest) (cause : Error) : Prop :=
  ∃ failure, m.validate = .ok (.error failure) ∧ cause ∈ failure.causes

/-- Where something is to be evaluated and the check comes to its end, it reports what it found. -/
theorem reports_iff_mem_firstFaults (h : m.Filled) (hgoes : ¬ m.CheckStops) :
    m.Reports cause ↔ cause ∈ m.firstFaults := by
  unfold Reports
  rw [validate_of_not_checkStops h hgoes]
  constructor
  · rintro ⟨failure, hfailure, hcause⟩
    rwa [causes_of_verdict (Except.ok.inj hfailure)] at hcause
  · intro hcause
    cases hverdict : verdict m.firstFaults with
    | ok u =>
      rw [verdict_eq_ok_iff.1 hverdict] at hcause
      exact absurd hcause List.not_mem_nil
    | error failure =>
      refine ⟨failure, rfl, ?_⟩
      rwa [causes_of_verdict hverdict]

/-- What a validation comes to is a matter of the check, for a manifest that is read. -/
theorem run_validate_of_text {bytes : Bytes} {t : Text} (hbytes : Utf8.decode? bytes = some t)
    (ht : ofText? t = some m) (config : Option Text) (verbosity : Nat) (now : Timestamp)
    (coloured : Bool) :
    Command.run ⟨.validate, config, verbosity⟩ now coloured (.ok bytes) =
      m.validate.map fun
        | .ok () => { code := .healthy, output := Command.summary m }
        | .error e => Command.refuse e := by
  have hload : Command.loaded (.ok bytes) = m.validate.map fun r => r.map fun _ => m := by
    show load bytes = _
    unfold load
    simp only [hbytes, ht]
    cases m.validate <;> rfl
  unfold Command.run
  rw [hload]
  rcases m.validate with a | e | u
  · rfl
  · rfl
  · rfl

/-- What a validation prints on standard error of a manifest: a complaint for each error that is
reported, and no others. -/
def Printed (m : Manifest) (errors : Text) : Prop :=
  ∃ causes : List Error, errors = causes.flatMap Command.complaint ∧
    ∀ cause, cause ∈ causes ↔ m.Reports cause

/-- A validation whose check comes to its end complains of all that the check found. -/
theorem errors_of_run {bytes : Bytes} {t : Text} (hbytes : Utf8.decode? bytes = some t)
    (ht : ofText? t = some m) (h : m.Filled) (hgoes : ¬ m.CheckStops) (config : Option Text)
    (verbosity : Nat) (now : Timestamp) (coloured : Bool) :
    ∃ o, Command.run ⟨.validate, config, verbosity⟩ now coloured (.ok bytes) = .ok o ∧
      o.errors = m.firstFaults.flatMap Command.complaint := by
  rw [run_validate_of_text hbytes ht, validate_of_not_checkStops h hgoes]
  refine ⟨_, rfl, ?_⟩
  cases hverdict : verdict m.firstFaults with
  | ok u =>
    rw [verdict_eq_ok_iff.1 hverdict]
    rfl
  | error failure =>
    rw [← causes_of_verdict hverdict]
    rfl

/-- A validation whose check comes to its end prints what is reported. -/
theorem printed_run {bytes : Bytes} {t : Text} (hbytes : Utf8.decode? bytes = some t)
    (ht : ofText? t = some m) (h : m.Filled) (hgoes : ¬ m.CheckStops) (config : Option Text)
    (verbosity : Nat) (now : Timestamp) (coloured : Bool) :
    ∃ o, Command.run ⟨.validate, config, verbosity⟩ now coloured (.ok bytes) = .ok o ∧
      m.Printed o.errors := by
  obtain ⟨o, hrun, herrors⟩ := errors_of_run hbytes ht h hgoes config verbosity now coloured
  exact ⟨o, hrun, m.firstFaults, herrors,
    fun cause => (reports_iff_mem_firstFaults h hgoes).symm⟩

/-- No fault of an endpoint or a suite is a repeated name of the manifest. -/
theorem not_hasRepeatedName_of_mem_part {part : List Error} (hpart : part ∈ m.parts)
    (hcause : cause ∈ part) : ¬ m.HasRepeatedName cause := by
  intro h
  rcases List.mem_append.1 hpart with hpart | hpart
  · obtain ⟨e, -, rfl⟩ := List.mem_map.1 hpart
    rw [Endpoint.mem_faults_iff] at hcause
    cases h <;> cases hcause
  · obtain ⟨s, -, rfl⟩ := List.mem_map.1 hpart
    rw [Suite.mem_faults_iff] at hcause
    cases h <;> cases hcause

/-- **What a check reports.** What is wrong with a manifest that has something to evaluate are its
repeated names and the faults of its parts, which are its endpoints and its suites; what is reported
are the repeated names and the first fault of each part. So all that is wrong is reported exactly
when no fault of a part is hidden, that is, when each is the first one of that part or of another. A
validation prints what is reported. A check that stops midway reports nothing, and the validation
has no outcome. -/
theorem reports_every_fault_iff {m : Manifest} (h : m.Filled) :
    (∀ cause, m.HasFault cause ↔
      m.HasRepeatedName cause ∨ ∃ part ∈ m.parts, cause ∈ part) ∧
    (¬ m.CheckStops →
      (∀ cause, m.Reports cause ↔
        m.HasRepeatedName cause ∨ ∃ part ∈ m.parts, part.head? = some cause) ∧
      ((∀ cause, m.HasFault cause → m.Reports cause) ↔
        ∀ part ∈ m.parts, ∀ cause ∈ part, ∃ other ∈ m.parts, other.head? = some cause) ∧
      ∀ bytes t, Utf8.decode? bytes = some t → ofText? t = some m →
        ∀ config verbosity now coloured, ∃ o,
          Command.run ⟨.validate, config, verbosity⟩ now coloured (.ok bytes) = .ok o ∧
            m.Printed o.errors) ∧
    (m.CheckStops →
      (∀ cause, ¬ m.Reports cause) ∧
      ∀ bytes t, Utf8.decode? bytes = some t → ofText? t = some m →
        ∀ config verbosity now coloured,
          Command.run ⟨.validate, config, verbosity⟩ now coloured (.ok bytes) =
            .error .overflow) := by
  refine ⟨fun cause => hasFault_iff, fun hgoes => ?_, fun hstops => ?_⟩
  · have hreports : ∀ cause, m.Reports cause ↔
        m.HasRepeatedName cause ∨ ∃ part ∈ m.parts, part.head? = some cause :=
      fun cause => (reports_iff_mem_firstFaults h hgoes).trans mem_firstFaults_iff
    refine ⟨hreports, ⟨?_, ?_⟩, fun bytes t hbytes ht => printed_run hbytes ht h hgoes⟩
    · intro hall part hpart cause hcause
      rcases (hreports cause).1 (hall cause (hasFault_iff.2 (Or.inr ⟨part, hpart, hcause⟩)))
        with hname | hfirst
      · exact absurd hname (not_hasRepeatedName_of_mem_part hpart hcause)
      · exact hfirst
    · intro hfirst cause hfault
      rw [hreports]
      refine (hasFault_iff.1 hfault).imp_right ?_
      rintro ⟨part, hpart, hcause⟩
      exact hfirst part hpart cause hcause
  · have hvalidate := validate_eq_overflow_iff.2 hstops
    constructor
    · rintro cause ⟨failure, hfailure, -⟩
      rw [hvalidate] at hfailure
      cases hfailure
    · intro bytes t hbytes ht config verbosity now coloured
      rw [run_validate_of_text hbytes ht, hvalidate]
      rfl

/-- A manifest of one endpoint, with two conditions of which neither has an operator. -/
def slips : Manifest where
  endpoints := [{
    name := "api".toList
    conditions := [⟨"[STATUS] 200".toList⟩, ⟨"[IP] 127.0.0.1".toList⟩]
    store := ⟨[], List.nodup_nil⟩ }]

/-- The manifest as it is written. -/
def slipsText : Text :=
  "endpoints:\n  - name: api\n    conditions:\n      - '[STATUS] 200'\n".toList ++
    "      - '[IP] 127.0.0.1'\n".toList

theorem slips_filled : slips.Filled := Or.inl (List.cons_ne_nil _ _)

theorem ofText?_slipsText : ofText? slipsText = some slips := by
  have hread : (ofText? slipsText).map (fun m => (m.endpoints, m.suites.isEmpty)) =
      some (slips.endpoints, true) := by decide +kernel
  obtain ⟨⟨endpoints, suites⟩, hslips, hparts⟩ := Option.map_eq_some_iff.1 hread
  obtain ⟨rfl, hsuites⟩ := Prod.mk.inj hparts
  obtain rfl := List.isEmpty_iff.1 hsuites
  exact hslips

theorem slips_parts : slips.parts =
    [[.invalidCondition "[STATUS] 200".toList, .invalidCondition "[IP] 127.0.0.1".toList]] := rfl

theorem slips_validate :
    slips.validate = .ok (.error (.invalidCondition "[STATUS] 200".toList)) := rfl

theorem slips_not_checkStops : ¬ slips.CheckStops := by
  rw [← validate_eq_overflow_iff, slips_validate]
  exact nofun

/-- Both conditions are wrong, as the theorem has it, but only the first one is reported. -/
theorem slips_reports :
    slips.HasFault (.invalidCondition "[STATUS] 200".toList) ∧
      slips.HasFault (.invalidCondition "[IP] 127.0.0.1".toList) ∧
      (∀ cause, slips.Reports cause ↔ cause = .invalidCondition "[STATUS] 200".toList) ∧
      ¬ (∀ cause, slips.HasFault cause → slips.Reports cause) ∧
      ∃ o, Command.run ⟨.validate, none, 0⟩ Suite.sessionStart false
        (.ok (Utf8.encode slipsText)) = .ok o ∧ slips.Printed o.errors := by
  obtain ⟨hfault, hends, -⟩ := reports_every_fault_iff slips_filled
  obtain ⟨hreports, hall, hprinted⟩ := hends slips_not_checkStops
  have hnames : ∀ cause, ¬ slips.HasRepeatedName cause := by
    intro cause h
    cases h with
    | endpoint h => exact List.not_duplicate_singleton _ _ h
    | suite h => exact List.not_duplicate_nil _ h
  have hwrong : ∀ cause, slips.HasFault cause ↔
      cause = .invalidCondition "[STATUS] 200".toList ∨
        cause = .invalidCondition "[IP] 127.0.0.1".toList := by
    intro cause
    rw [hfault, or_iff_right (hnames cause), slips_parts]
    simp
  have hfirst : ∀ cause, slips.Reports cause ↔
      cause = .invalidCondition "[STATUS] 200".toList := by
    intro cause
    rw [hreports, or_iff_right (hnames cause), slips_parts]
    simp [eq_comm]
  refine ⟨(hwrong _).2 (Or.inl rfl), (hwrong _).2 (Or.inr rfl), hfirst, ?_, ?_⟩
  · rw [hall, slips_parts]
    simp
  · exact hprinted _ _ (Utf8.decode?_encode _) ofText?_slipsText none 0 Suite.sessionStart false

/-- An endpoint's second condition is as wrong as its first, and nobody hears of it. -/
theorem second_condition_is_hidden :
    slips.Filled ∧
      slips.HasFault (.invalidCondition "[IP] 127.0.0.1".toList) ∧
      slips.validate = .ok (.error (.invalidCondition "[STATUS] 200".toList)) ∧
      ¬ slips.Reports (.invalidCondition "[IP] 127.0.0.1".toList) ∧
      (Command.run ⟨.validate, none, 0⟩ Suite.sessionStart false
        (.ok (Utf8.encode slipsText))).map Outcome.errors =
          .ok "Error: invalid condition: [STATUS] 200\n".toList := by
  refine ⟨slips_filled, ?_, slips_validate, ?_, ?_⟩
  · rw [hasFault_iff, slips_parts]
    exact Or.inr ⟨_, List.mem_cons_self, List.mem_cons_of_mem _ List.mem_cons_self⟩
  · rintro ⟨failure, hfailure, hcause⟩
    obtain rfl := Except.error.inj (Except.ok.inj (slips_validate.symm.trans hfailure))
    exact absurd (Error.invalidCondition.inj (List.mem_singleton.1 hcause)) (by decide)
  · rw [run_validate_of_text (Utf8.decode?_encode _) ofText?_slipsText, slips_validate]
    decide +kernel

end Manifest

end HealthCheck
