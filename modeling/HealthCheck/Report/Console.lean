import HealthCheck.Report
import HealthCheck.Terminal

/-!
# Reports for the console

A report as lines for a reader: every endpoint with its condition outcomes and errors, every suite
with its steps in the same manner, and the verdict last. A step that did not run is skipped.
-/

namespace HealthCheck

/-- How something turned out. -/
inductive Status where
  | pass
  | fail
  | skip
deriving DecidableEq, Repr

namespace Status

/-- The status of what succeeded or failed. -/
def ofBool (success : Bool) : Status := if success then pass else fail

/-- The word for a status. -/
def word : Status → Text
  | pass => "PASS".toList
  | fail => "FAIL".toList
  | skip => "SKIP".toList

/-- The colour of a status. -/
def colour : Status → Terminal.Colour
  | pass => .green
  | fail => .red
  | skip => .yellow

/-- The text of a status, with its colour if colours are wanted. -/
def text (coloured : Bool) (s : Status) : Text :=
  if coloured then Terminal.paint s.colour s.word else s.word

end Status

namespace Report

/-- A line of a report. -/
inductive Line where
  | endpoint (name : Text) (status : Status)
  | suite (name : Text) (status : Status)
  | step (name : Text) (status : Status)
  /-- The outcome of a condition of an endpoint or, further in, of a step. -/
  | outcome (inStep : Bool) (status : Status) (condition : Text)
  | error (inStep : Bool) (message : Text)
  | verdict (status : Status)
deriving DecidableEq, Repr

/-- The lines for the condition outcomes and the errors of a result. -/
def detailLines (inStep : Bool) (p : Probe) : List Line :=
  p.conditionOutcomes.map (fun o => .outcome inStep (.ofBool o.success) o.condition) ++
    p.errors.map (.error inStep)

/-- The lines for an endpoint. -/
def endpointLines (p : Probe) : List Line :=
  .endpoint p.name (.ofBool p.success) :: detailLines false p

/-- The lines for a step, given the results of the steps that ran. -/
def stepLines (results : List Probe) (e : Endpoint) : List Line :=
  match results.find? (·.name == e.name) with
  | some p => .step e.name (.ofBool p.success) :: detailLines true p
  | none => [.step e.name .skip]

/-- The lines for a suite. -/
def suiteLines (s : Suite) (r : SuiteResult) : List Line :=
  .suite r.name (.ofBool r.success) :: s.endpoints.flatMap (stepLines r.endpointResults)

/-- The lines of the report on a manifest. -/
def lines (r : Report) (m : Manifest) : List Line :=
  r.endpoints.flatMap endpointLines ++
    (m.suites.zip r.suites).flatMap (fun (s, result) => suiteLines s result) ++
    [.verdict (.ofBool r.success)]

/-! ## Writing -/

/-- The end of a line that shows a status. -/
def statusText (coloured : Bool) (s : Status) : Text := " Status = ".toList ++ s.text coloured

/-- The blanks before a line about a result. -/
def margin (inStep : Bool) : Text := List.replicate (if inStep then 4 else 2) ' '

/-- A line as a text, without its end. -/
def Line.text (coloured : Bool) : Line → Text
  | endpoint name s => "Endpoint ".toList ++ name ++ statusText coloured s
  | suite name s => "Suite ".toList ++ name ++ statusText coloured s
  | step name s => "  Step ".toList ++ name ++ statusText coloured s
  | outcome inStep s condition => margin inStep ++ s.text coloured ++ ' ' :: condition
  | error inStep message => margin inStep ++ "Error: ".toList ++ message
  | verdict s => "Overall".toList ++ statusText coloured s

/-- The report on a manifest as a text. -/
def console (coloured : Bool) (r : Report) (m : Manifest) : Text :=
  (r.lines m).flatMap fun line => line.text coloured ++ ['\n']

end Report

end HealthCheck
