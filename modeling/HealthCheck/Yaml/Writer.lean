import HealthCheck.Json.Value
import HealthCheck.Number.Layout
import HealthCheck.Yaml.Quoting

/-!
# Writing YAML

A document in block style: every field and every item starts a line of its own. The fields of an
object in an object stand two columns further in, the items of an array in an object at the column
of its key. Everything that is written ends its last line.
-/

namespace HealthCheck.Yaml

/-- The key may be written before its colon: it has no line ends and at most 128 bytes. -/
def isSimpleKey (key : Text) : Bool := !key.any isBreak && (Utf8.encode key).length ≤ 128

/-- The start of a line at a column. -/
def margin (column : Nat) : Text := List.replicate column ' '

mutual

/-- A value behind the indicator of an item or behind the key of a field, where the lines of the
collection it belongs to stand at the given column. -/
def write (behindKey : Bool) (column : Nat) : Json → Text
  | .null => " null\n".toList
  | .bool b => ' ' :: Text.ofBool b ++ ['\n']
  | .number (.whole n) => ' ' :: Text.ofInt n ++ ['\n']
  | .number (.binary x) => ' ' :: Layout.yaml.write x ++ ['\n']
  | .string t => ' ' :: writeText (column + 2) t
  | .array [] => " []\n".toList
  | .array (v :: vs) =>
    if behindKey then '\n' :: writeItems column false (v :: vs)
    else ' ' :: writeItems (column + 2) true (v :: vs)
  | .object [] => " \x7b\x7d\n".toList
  | .object (f :: fs) =>
    if behindKey then '\n' :: writeFields (column + 2) false (f :: fs)
    else ' ' :: writeFields (column + 2) true (f :: fs)

/-- The items of an array. The first one may start where the pen is. -/
def writeItems (column : Nat) : (here : Bool) → List Json → Text
  | _, [] => []
  | here, v :: vs =>
    (if here then [] else margin column) ++ '-' :: write false column v ++
      writeItems column false vs

/-- The fields of an object. The first one may start where the pen is. -/
def writeFields (column : Nat) : (here : Bool) → List (Text × Json) → Text
  | _, [] => []
  | here, (k, v) :: fs =>
    (if here then [] else margin column) ++
      (if isSimpleKey k then (writeText (column + 2) k).dropLast ++ ':' :: write true column v
      else
        "? ".toList ++ writeText (column + 2) k ++ margin column ++ ':' :: write false column v) ++
      writeFields column false fs

end

/-- A document as a text. -/
def writeDocument : Json → Text
  | .array (v :: vs) => writeItems 0 true (v :: vs)
  | .object (f :: fs) => writeFields 0 true (f :: fs)
  | v => (write false 0 v).tail

end HealthCheck.Yaml
