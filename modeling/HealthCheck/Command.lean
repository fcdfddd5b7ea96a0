import HealthCheck.Json.Writer
import HealthCheck.Record.Report
import HealthCheck.Record.Yaml
import HealthCheck.Report.Console
import HealthCheck.Yaml.Writer

/-!
# Commands

What the program does with a manifest: it validates it or evaluates it. The outcome of a command is
what it prints and an exit code, which tells a healthy manifest, an unhealthy one and one that
cannot be used apart. A run that stops midway leaves nothing behind.
-/

namespace HealthCheck

/-- How a report is printed. -/
inductive Format where
  | console
  | json
  | yaml
deriving DecidableEq, Repr

/-- What is to be done. -/
inductive Action where
  | validate
  | evaluate (format : Format)
deriving DecidableEq, Repr

/-- A command. -/
structure Command where
  action : Action
  /-- The file of the manifest; without one it is read from standard input. -/
  config : Option Text := none
  /-- How much is to be logged. -/
  verbosity : Nat := 0
deriving DecidableEq, Repr

/-- Why the program ends. -/
inductive ExitCode where
  | healthy
  | unhealthy
  | unusable
deriving DecidableEq, Repr

/-- The number of an exit code. -/
def ExitCode.number : ExitCode → UInt8
  | healthy => 0
  | unhealthy => 19
  | unusable => 5

/-- What a command leaves behind. -/
structure Outcome where
  code : ExitCode
  output : Text := []
  errors : Text := []
deriving DecidableEq, Repr

namespace Command

/-- The outcome where no manifest could be loaded: every cause on a line of its own. -/
def refuse (e : Error) : Outcome :=
  { code := .unusable
    errors := e.causes.flatMap fun cause => "Error: ".toList ++ cause.message ++ ['\n'] }

/-- The summary of a valid manifest. -/
def summary (m : Manifest) : Text :=
  "Manifest is valid: ".toList ++ Text.ofNat m.endpoints.length ++ " endpoint(s), ".toList ++
    Text.ofNat m.suites.length ++ " suite(s), ".toList ++ Text.ofNat m.conditionCount ++
    " condition(s)\n".toList

/-- A report in a format. -/
def print (format : Format) (coloured : Bool) (m : Manifest) (r : Report) : Text :=
  match format with
  | .console => r.console coloured m
  | .json => r.toJson.indented 0 ++ ['\n']
  | .yaml => Yaml.writeDocument r.toJson

/-- The outcome of an action on a manifest. -/
def act (now : Timestamp) (coloured : Bool) (m : Manifest) : Action → Except Abort Outcome
  | .validate => return { code := .healthy, output := summary m }
  | .evaluate format => do
    let r ← m.evaluate now
    return { code := if r.success then .healthy else .unhealthy
             output := print format coloured m r }

/-- The manifest that is given by its bytes, if they can be read. -/
def loaded : Except Error Bytes → Except Abort (Except Error Manifest)
  | .error e => return .error e
  | .ok bytes => Manifest.load bytes

/-- The outcome of a command, given the bytes of the manifest or why they cannot be read. -/
def run (c : Command) (now : Timestamp) (coloured : Bool) (input : Except Error Bytes) :
    Except Abort Outcome := do
  match ← loaded input with
  | .ok m => act now coloured m c.action
  | .error e => return refuse e

end Command

end HealthCheck
