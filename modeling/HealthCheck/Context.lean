import HealthCheck.Error
import HealthCheck.Json.Value

/-!
# Contexts

Values that the steps of a suite share, under keys and nested keys. A path addresses a value by its
segments, cut at every dot, so empty segments are keys like any other.

Writing creates the objects on the way, and replaces by an object whatever else stands there.
-/

namespace HealthCheck

/-- Values under keys. -/
abbrev Context := Fields Json

namespace Context

/-- The segments of a path. -/
def segments (path : Text) : List Text := Text.segments '.' path

/-- The value to which keys lead, one inside the other. -/
def walk? : List Text → Json → Option Json
  | [], v => some v
  | key :: keys, .object fields => (Fields.get? key fields).bind (walk? keys)
  | _ :: _, _ => none

/-- Writes a value where keys lead to. No keys leave the fields as they are. -/
def setAt : List Text → Json → Fields Json → Fields Json
  | [], _, fields => fields
  | [key], v, fields => Fields.insert key v fields
  | key :: keys, v, fields =>
    let inner := ((Fields.get? key fields).map Json.fieldsOf).getD []
    Fields.insert key (.object (setAt keys v inner)) fields

/-- The value at a path. -/
def get (c : Context) (path : Text) : Except Error Json :=
  match walk? (segments path) (.object c) with
  | some v => .ok v
  | none => .error (.pathNotFound path)

/-- Writes a value at a path, which must not be empty. -/
def set (c : Context) (path : Text) (v : Json) : Except Error Context :=
  if path = [] then .error .emptyPath else .ok (setAt (segments path) v c)

end Context

end HealthCheck
