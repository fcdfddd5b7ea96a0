import HealthCheck.Fields
import HealthCheck.Number.Binary64

/-!
# JSON values

Documents as a tree. Whole numbers are kept exactly; every other number is a binary64 number, so
that `1` and `1.0` are different values. Objects keep the order of their keys.
-/

namespace HealthCheck

/-- A number of a document. -/
inductive JsonNumber where
  | whole (n : Int)
  | binary (x : Binary64)
deriving DecidableEq, Repr

/-- A document. -/
inductive Json where
  | null
  | bool (b : Bool)
  | number (n : JsonNumber)
  | string (t : Text)
  | array (items : List Json)
  | object (fields : List (Text × Json))
deriving Repr

namespace Json

/-- A whole number. -/
def int (n : Int) : Json := .number (.whole n)

/-- The value is null. -/
def isNull : Json → Bool
  | null => true
  | _ => false

/-- The fields of an object; any other value has none. -/
def fieldsOf : Json → Fields Json
  | object fields => fields
  | _ => []

end Json

end HealthCheck
