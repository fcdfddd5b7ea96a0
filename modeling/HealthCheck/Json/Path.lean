import HealthCheck.Error
import HealthCheck.Json.Reader
import HealthCheck.Json.Writer
import HealthCheck.Number.Integer

/-!
# Paths into JSON bodies

A path is a list of keys and indices, written as in `data.users[0].name`: keys are separated by dots
and each index stands in brackets. Blanks around keys and indices do not count, and empty keys are
skipped, so a path of dots alone addresses the whole body.

`eval` follows a path into a body and shows what stands there as text, together with its length. A
null on the way or at the end is an error, as is a step that does not fit the value it is taken
from.
-/

namespace HealthCheck.JsonPath

/-- A step into a value. -/
inductive Step where
  | key (key : Text)
  | index (index : Int)
deriving DecidableEq, Repr

/-! ## Reading paths -/

/-- The step for a key as written; a blank key is none. -/
def keySteps (written : Text) : List Step :=
  let key := Text.trim written
  if key = [] then [] else [.key key]

/-- The step for what stands between two brackets. -/
def indexStep (written : Text) : Except Error Step :=
  let index := Text.trim written
  match Integer.decimal? index with
  | some n => .ok (.index n)
  | none => .error (.invalidIndex index)

/-- Reads steps. What has been read of the current key or index is kept in reverse; the flag tells
that it is an index. -/
def stepsFrom : (inBrackets : Bool) → (reversed : Text) → Text → Except Error (List Step)
  | true, _, [] => .error .unclosedBracket
  | true, read, ']' :: rest => do
    let step ← indexStep read.reverse
    let steps ← stepsFrom false [] rest
    return step :: steps
  | true, read, c :: rest => stepsFrom true (c :: read) rest
  | false, read, [] => .ok (keySteps read.reverse)
  | false, read, '.' :: rest => do
    let steps ← stepsFrom false [] rest
    return keySteps read.reverse ++ steps
  | false, read, '[' :: rest => do
    let steps ← stepsFrom true [] rest
    return keySteps read.reverse ++ steps
  | false, read, c :: rest => stepsFrom false (c :: read) rest

/-- The steps of a path. -/
def steps (path : Text) : Except Error (List Step) := stepsFrom false [] (Text.trim path)

/-! ## Following paths -/

/-- The value that one step leads to. -/
def take : Step → Json → Except Error Json
  | .key key, .object fields =>
    match Fields.get? key fields with
    | some v => if v.isNull then .error (.nullAtKey key) else .ok v
    | none => .error (.keyNotFound key)
  | .key key, _ => .error (.notAnObject key)
  | .index index, .array items =>
    match if index < 0 then none else items[index.toNat]? with
    | some v => if v.isNull then .error (.nullAtIndex index) else .ok v
    | none => .error (.indexOutOfBounds index)
  | .index _, _ => .error .notAnArray

/-- The value that steps lead to, one after the other. -/
def follow : List Step → Json → Except Error Json
  | [], v => .ok v
  | s :: ss, v => do follow ss (← take s v)

/-! ## Showing values -/

/-- A number that stands alone. -/
def showNumber : JsonNumber → Text
  | .whole n => Text.ofInt n
  | .binary x => Layout.alone.write x

/-- The text of a value: a string as it is, a container in compact form. -/
def text : Json → Text
  | .string t => t
  | .number n => showNumber n
  | v => v.compact

/-- The text of a value and its length: the number of elements of an array, else of characters. -/
def render (v : Json) : Text × Nat :=
  match v with
  | .array items => (text v, items.length)
  | v => (text v, (text v).length)

/-- The text of a whole body: a string keeps its quotes. -/
def renderRoot (v : Json) : Text × Nat :=
  match v with
  | .string _ => (v.compact, v.compact.length)
  | v => render v

/-- Follows a path into a body and shows what stands there. The path is read before the body. -/
def eval (path : Text) (body : Bytes) : Except Error (Text × Nat) := do
  let steps ← steps path
  let some root := Json.parseBytes? body | .error .malformedBody
  if steps.isEmpty then return renderRoot root
  else return render (← follow steps root)

end HealthCheck.JsonPath
