import HealthCheck.Json.Value
import HealthCheck.Number.Literal

/-!
# Values of plain scalars

What a plain scalar denotes: null, a truth value, an integer, a floating-point number, or else a
text. Integers are decimal or, behind `0x`, `0o` and `0b`, of base 16, 8 and 2; digits behind a
leading zero are a text.
-/

namespace HealthCheck.Yaml.Schema

/-- The text spells null. -/
def isNull (t : Text) : Bool := t.isOneOf ["null", "Null", "NULL", "~"]

/-- The truth value that a text spells. -/
def flag? (t : Text) : Option Bool :=
  if t.isOneOf ["true", "True", "TRUE"] then some true
  else if t.isOneOf ["false", "False", "FALSE"] then some false
  else none

/-- Digits behind a leading zero, with a sign or without. -/
def isPaddedDigits (t : Text) : Bool :=
  match (Text.signed t).2 with
  | '0' :: d :: ds => (d :: ds).all Char.isDigit
  | _ => false

/-! ## Integers -/

/-- The value of digits of a base that is below a limit. -/
def digits? (base limit : Nat) (t : Text) : Option Nat := (Text.toNat? base t).filter (· < limit)

/-- The value, below a limit, of digits behind the mark of a base. -/
def based? (limit : Nat) : Text → Option Nat
  | '0' :: 'x' :: t => digits? 16 limit t
  | '0' :: 'o' :: t => digits? 8 limit t
  | '0' :: 'b' :: t => digits? 2 limit t
  | _ => none

/-- The natural number below a limit that a text denotes; a plus may stand before it. -/
def natural? (limit : Nat) (t : Text) : Option Nat :=
  let unsigned := (Text.after? ['+'] t).getD t
  (based? limit unsigned).or (if isPaddedDigits t then none else digits? 10 limit unsigned)

/-- The integer that a text with a minus denotes, where its magnitude is at most a limit. -/
def negative? (limit : Nat) (t : Text) : Option Int :=
  match t with
  | '-' :: unsigned =>
    ((based? (limit + 1) unsigned).or
      (if isPaddedDigits t then none else digits? 10 (limit + 1) unsigned)).map fun n => -(n : Int)
  | _ => none

/-- The integer of 64 bits that a text denotes. -/
def integer? (t : Text) : Option Int :=
  ((natural? UInt64.size t).map Int.ofNat).or (negative? (Nat.pow 2 63) t)

/-- The text denotes an integer of 128 bits. -/
def isWide (t : Text) : Bool :=
  (natural? (Nat.pow 2 128) t).isSome || (negative? (Nat.pow 2 127) t).isSome

/-! ## Floating-point numbers -/

/-- The floating-point number that a text denotes; infinity and not-a-number have spellings of their
own. -/
def float? (t : Text) : Option Reading :=
  let unsigned := (Text.after? ['+'] t).getD t
  if unsigned ≠ t ∧ (unsigned.head? = some '+' ∨ unsigned.head? = some '-') then none
  else if Text.isOneOf unsigned [".inf", ".Inf", ".INF"] then some (.infinite false)
  else if t.isOneOf ["-.inf", "-.Inf", "-.INF"] then some (.infinite true)
  else if t.isOneOf [".nan", ".NaN", ".NAN"] then some .nan
  else (Reading.finite? unsigned).map .finite

/-- A floating-point number as a value; what JSON cannot hold is null. -/
def ofReading : Reading → Json
  | .finite x => .number (.binary x)
  | _ => .null

/-! ## Values -/

/-- The value of an integer; an integer beyond 64 bits has none. The outer result tells whether the
text denotes an integer at all. -/
def ofInteger? (t : Text) : Option (Option Json) :=
  match integer? t with
  | some n => some (some (.int n))
  | none => if isWide t then some none else none

/-- The value of a plain scalar without a tag, if it has one. -/
def plain? (t : Text) : Option Json :=
  if t = [] ∨ isNull t then some .null
  else
    match flag? t with
    | some b => some (.bool b)
    | none =>
      match ofInteger? t with
      | some v => v
      | none =>
        match (if isPaddedDigits t then none else float? t) with
        | some x => some (ofReading x)
        | none => some (.string t)

/-- A plain scalar denotes the text that it is. -/
def denotesItself (t : Text) : Bool :=
  match plain? t with
  | some (.string _) => true
  | _ => false

example : plain? "0x_1".toList matches some (.string _) := by decide
example : natural? UInt64.size "+0x1F".toList = some 31 ∧ integer? "-0b11".toList = some (-3) := by
  decide
example : integer? "007".toList = none ∧ isPaddedDigits "-00".toList := by decide

end HealthCheck.Yaml.Schema
