import HealthCheck.Json.Value

/-!
# Records as JSON

A record is written as an object with a field for each of its parts, and read from an object or from
an array that gives the parts in order. Fields that are unknown do not count; a part that is missing
takes its default, where it has one.

The readers of parts take a value of exactly the kind they name: null is none of them, and a
binary64 number is no natural number.
-/

namespace HealthCheck.Record

/-! ## Reading -/

/-- The fields of a record, given the keys of its parts in order. An array may end early but not be
longer than the record. -/
def fields? (keys : List Text) : Json → Option (Fields Json)
  | .object fields => some fields
  | .array items => if items.length ≤ keys.length then some (keys.zip items) else none
  | _ => none

/-- Reads a part that has a default. -/
def part {α : Type} (fields : Fields Json) (key : Text) (read : Json → Option α) (default : α) :
    Option α :=
  match Fields.get? key fields with
  | some v => read v
  | none => some default

/-- Reads a part that has to be there. -/
def required {α : Type} (fields : Fields Json) (key : Text) (read : Json → Option α) : Option α :=
  (Fields.get? key fields).bind read

/-- A text. -/
def text? : Json → Option Text
  | .string t => some t
  | _ => none

/-- A truth value. -/
def flag? : Json → Option Bool
  | .bool b => some b
  | _ => none

/-- A natural number below a limit. -/
def natural? (limit : Nat) : Json → Option Nat
  | .number (.whole n) => if 0 ≤ n ∧ n < limit then some n.toNat else none
  | _ => none

/-- A list of what a reader reads. -/
def list? {α : Type} (read : Json → Option α) : Json → Option (List α)
  | .array items => items.mapM read
  | _ => none

/-- The fields of an object. -/
def object? : Json → Option (Fields Json)
  | .object fields => some fields
  | _ => none

/-! ## Writing -/

/-- A part that is written unless it is empty. -/
def unlessEmpty {α : Type} (key : Text) (items : List α) (value : Json) : Fields Json :=
  match items with
  | [] => []
  | _ :: _ => [(key, value)]

/-- A natural number as a value. -/
def natural (n : Nat) : Json := .int n

end HealthCheck.Record
