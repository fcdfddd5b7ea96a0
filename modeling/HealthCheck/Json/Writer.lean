import HealthCheck.Json.Value
import HealthCheck.Number.Layout

/-!
# Writing JSON

Two forms of a document as text. The compact form has no blanks between tokens; the indented form
puts every item and field on a line of its own, two blanks further in than its container. In both,
strings escape quotes, backslashes and control characters and leave all else as it is.
-/

namespace HealthCheck.Json

/-! ## Scalars -/

/-- The digit of a value below sixteen, in lower case. -/
def hexDigit (n : Nat) : Char := Nat.digitChar n

/-- A character as it stands between the quotes of a string. -/
def escape (c : Char) : Text :=
  match c with
  | '"' => "\\\"".toList
  | '\\' => "\\\\".toList
  | '\x08' => "\\b".toList
  | '\t' => "\\t".toList
  | '\n' => "\\n".toList
  | '\x0c' => "\\f".toList
  | '\r' => "\\r".toList
  | c =>
    if c.toNat < 0x20 then "\\u00".toList ++ [hexDigit (c.toNat / 16), hexDigit (c.toNat % 16)]
    else [c]

/-- A string in quotes. -/
def quoted (t : Text) : Text := '"' :: t.flatMap escape ++ ['"']

/-- A number inside JSON text. -/
def writeNumber : JsonNumber → Text
  | .whole n => Text.ofInt n
  | .binary x => Layout.json.write x

/-! ## The compact form -/

mutual

/-- The compact form of a document. -/
def compact : Json → Text
  | .null => "null".toList
  | .bool b => Text.ofBool b
  | .number n => writeNumber n
  | .string t => quoted t
  | .array items => '[' :: (compactItems items ++ [']'])
  | .object fields => '{' :: (compactFields fields ++ ['}'])

/-- The items of an array, with commas between them. -/
def compactItems : List Json → Text
  | [] => []
  | [v] => compact v
  | v :: vs => compact v ++ ',' :: compactItems vs

/-- The fields of an object, with commas between them. -/
def compactFields : List (Text × Json) → Text
  | [] => []
  | [(k, v)] => quoted k ++ ':' :: compact v
  | (k, v) :: fs => quoted k ++ ':' :: (compact v ++ ',' :: compactFields fs)

end

/-! ## The indented form -/

/-- The start of a line at a depth. -/
def newline (depth : Nat) : Text := '\n' :: List.replicate (2 * depth) ' '

mutual

/-- The indented form of a document that stands at a depth. -/
def indented (depth : Nat) : Json → Text
  | .null => "null".toList
  | .bool b => Text.ofBool b
  | .number n => writeNumber n
  | .string t => quoted t
  | .array [] => "[]".toList
  | .array items => '[' :: (indentedItems (depth + 1) items ++ newline depth ++ [']'])
  | .object [] => ['{', '}']
  | .object fields => '{' :: (indentedFields (depth + 1) fields ++ newline depth ++ ['}'])

/-- The items of an array, each on its line. -/
def indentedItems (depth : Nat) : List Json → Text
  | [] => []
  | [v] => newline depth ++ indented depth v
  | v :: vs => newline depth ++ indented depth v ++ ',' :: indentedItems depth vs

/-- The fields of an object, each on its line. -/
def indentedFields (depth : Nat) : List (Text × Json) → Text
  | [] => []
  | [(k, v)] => newline depth ++ quoted k ++ ": ".toList ++ indented depth v
  | (k, v) :: fs =>
    newline depth ++ quoted k ++ ": ".toList ++ indented depth v ++
      ',' :: indentedFields depth fs

end

end HealthCheck.Json
