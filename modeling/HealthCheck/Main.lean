import Std.Time.DateTime.Timestamp
import HealthCheck.Command.Arguments

/-!
# The program

Reads the arguments and the manifest, runs the command, and prints what it leaves behind. Nothing is
decided here.
-/

namespace HealthCheck.Program

/-- How the program is used. -/
def usage : String :=
  "Usage: health-check evaluate [-c FILE] [-p | -y] [-v]\n" ++
  "       health-check validate [-c FILE] [-v]\n\n" ++
  "Evaluates health-check conditions against recorded probe results. The manifest is read from\n" ++
  "standard input unless a file is named. -p prints the report as JSON, -y as YAML.\n"

/-- The program's version. -/
def version : String := "health-check 0.1.0\n"

/-- What is said of a run that stops midway. -/
def overflowed : String := "health-check stopped: attempt to add with overflow\n"

/-- The system's wording of a failed operation. -/
def reason (e : IO.Error) : Text :=
  let numbered (code : UInt32) (details : String) : Text :=
    details.toList ++ " (os error ".toList ++ Text.ofNat code.toNat ++ [')']
  match e with
  | .noFileOrDirectory _ code details => numbered code details
  | .permissionDenied _ code details => numbered code details
  | .inappropriateType _ code details => numbered code details
  | .invalidArgument _ code details => numbered code details
  | .resourceExhausted _ code details => numbered code details
  | .noSuchThing _ code details => numbered code details
  | .hardwareFault code details => numbered code details
  | .illegalOperation code details => numbered code details
  | .otherError code details => numbered code details
  | e => e.toString.toList

/-- The bytes of a stream. -/
def readAll (stream : IO.FS.Stream) : IO ByteArray := do
  let mut bytes := ByteArray.empty
  repeat
    let more ← stream.read 65536
    if more.isEmpty then break
    bytes := bytes ++ more
  return bytes

/-- The manifest, from a file or from standard input. -/
def readManifest (file : Option Text) : IO (Except Error Bytes) := do
  try
    let bytes ← match file with
      | some file => IO.FS.readBinFile (String.ofList file)
      | none => readAll (← IO.getStdin)
    return .ok bytes.toList
  catch e => return .error (.unreadable (reason e))

/-- The current time. -/
def now : IO Timestamp := do
  match Timestamp.ofNanoseconds? (← Std.Time.Timestamp.now).toNanosecondsSinceUnixEpoch.val with
  | some t => return t
  | none => throw (IO.userError "the clock is out of range")

/-- Output is coloured on a terminal; the environment may force colours or forbid them. -/
def wantsColour : IO Bool := do
  let enabled (name : String) : IO (Option Bool) := return (← IO.getEnv name).map (· != "0")
  if (← enabled "CLICOLOR_FORCE") == some true then return true
  else if (← enabled "NO_COLOR").isSome then return false
  else return (← enabled "CLICOLOR") != some false && (← (← IO.getStdout).isTty)

/-- Runs a command. -/
def run (c : Command) : IO UInt32 := do
  match c.run (← now) (← wantsColour) (← readManifest c.config) with
  | .error .overflow =>
    IO.eprint overflowed
    return 101
  | .ok outcome =>
    IO.print (String.ofList outcome.output)
    IO.eprint (String.ofList outcome.errors)
    return outcome.code.number.toUInt32

/-- Answers arguments that are no command. -/
def explain (e : Command.UsageError) : IO UInt32 := do
  match e with
  | .help => IO.print usage; return 0
  | .version => IO.print version; return 0
  | _ => IO.eprint usage; return 2

end HealthCheck.Program

/-- Runs the command that the arguments ask for. -/
def main (arguments : List String) : IO UInt32 :=
  match HealthCheck.Command.ofArguments (arguments.map String.toList) with
  | .ok c => HealthCheck.Program.run c
  | .error e => HealthCheck.Program.explain e
