import HealthCheck.Abort
import HealthCheck.Number.Integer

/-!
# Durations

Duration literals such as `500ms`, `1.5s` or `1h30m` are an optional sign and one or more
components, each a decimal number and a unit. They are read from the left, one component after the
other, in nanoseconds, and handed on as milliseconds truncated toward zero; a literal is refused as
soon as its total exceeds 2⁶³ − 1 nanoseconds.

The numbers are kept in words of 128 bits. Whole digits and totals that are too large for them are
refused like any other text, but the digits of a fraction are added without looking: where such a
sum leaves the word, the run stops.

Durations are written in hours, minutes and seconds without zero units at the end, and in
milliseconds below one second.
-/

namespace HealthCheck.Duration

/-! ## Reading -/

/-- The units, by name, and how many nanoseconds each has. The micro sign and the Greek letter mu
both stand for micro. -/
def units : List (Text × Nat) :=
  [("ns".toList, 1), ("us".toList, 1000), ("\u00b5s".toList, 1000), ("\u03bcs".toList, 1000),
    ("ms".toList, 1000000), ("s".toList, 1000000000), ("m".toList, 60000000000),
    ("h".toList, 3600000000000)]

/-- The character belongs to the number of a component, not to its unit. -/
def isNumeric (c : Char) : Bool := c.isDigit || c == '.'

/-- One component: the digits before and after the point, and the nanoseconds in the unit. -/
structure Component where
  whole : Text
  fraction : Text
  scale : Nat
deriving DecidableEq, Repr

/-- Reads the number and the unit of a component: digits with at most one point and at least one
digit, and one of the units. -/
def component? (number unit : Text) : Option Component := do
  let scale ← units.lookup unit
  match Text.segments '.' number with
  | [whole] => if whole = [] then none else some ⟨whole, [], scale⟩
  | [whole, fraction] => if whole = [] ∧ fraction = [] then none else some ⟨whole, fraction, scale⟩
  | _ => none

/-- The greatest number in a signed word of 128 bits. -/
def widest : Nat := Nat.pow 2 127 - 1

/-- A number that does not exceed the widest. -/
def bounded? (n : Nat) : Option Nat := if n ≤ widest then some n else none

/-- The fraction's digits that count: the first eighteen. -/
def Component.counted (c : Component) : Text := c.fraction.take 18

/-- The whole digits of a component in nanoseconds, where neither their number nor these exceed the
widest number. -/
def Component.base? (c : Component) : Option Nat := do
  let whole ← bounded? (Text.value 10 c.whole)
  bounded? (whole * c.scale)

/-- Adds the nanoseconds of a fraction to a sum, digit by digit and every digit truncated by itself,
as long as the sum fits. The divisor is that of the digit before. -/
def addFraction (fits : Nat → Bool) (scale : Nat) :
    (divisor sum : Nat) → Text → Except Abort Nat
  | _, sum, [] => .ok sum
  | divisor, sum, d :: ds =>
    let next := sum + (Text.digitValue d).getD 0 * scale / (divisor * 10)
    if fits next then addFraction fits scale (divisor * 10) next ds else .error .overflow

/-- The nanoseconds of a component. -/
def Component.nanos? (fits : Nat → Bool) (c : Component) : Except Abort (Option Nat) := do
  match c.base? with
  | none => return none
  | some base => return some (← addFraction fits c.scale 1 base c.counted)

/-- Adds the components of a text that is cut into numbers and units in turn to a total, which may
not exceed 2⁶³ − 1 nanoseconds. A component is looked at when all in front of it have been added. -/
def addComponents? (fits : Nat → Bool) : (total : Nat) → List Text → Except Abort (Option Nat)
  | total, [] => return some total
  | _, [_] => return none
  | total, number :: unit :: rest => do
    match if number.all isNumeric then component? number unit else none with
    | none => return none
    | some c =>
      match ← c.nanos? fits with
      | none => return none
      | some nanos =>
        if Integer.greatest < (total + nanos : Nat) then return none
        else addComponents? fits (total + nanos) rest

/-- Reads a duration literal, in nanoseconds, where the sums that nothing bounds have to fit. -/
def nanosWithin? (fits : Nat → Bool) (t : Text) : Except Abort (Option Int) := do
  let (negative, unsigned) := Text.signed t
  if unsigned = [] then return none
  else
    let total ← addComponents? fits 0 (Text.runs isNumeric unsigned)
    return total.map fun n : Nat => if negative then -(n : Int) else n

/-- Reads a duration literal, in nanoseconds kept in a word of 128 bits. -/
def nanos? : Text → Except Abort (Option Int) := nanosWithin? fun n => n ≤ widest

/-- Reads a duration literal, in milliseconds truncated toward zero, in a word of 64 bits. -/
def millis? (t : Text) : Except Abort (Option Int) := do
  return (← nanos? t).map fun n => Integer.wrap 64 (n.tdiv 1000000)

/-! ## Writing -/

/-- Writes hours, minutes and seconds: the units from the first to the last that is not zero. -/
def writeUnits (hours minutes seconds : Nat) : Text :=
  let h := Text.ofNat hours ++ ['h']
  let m := Text.ofNat minutes ++ ['m']
  let s := Text.ofNat seconds ++ ['s']
  match hours, minutes, seconds with
  | 0, 0, _ => s
  | 0, _, 0 => m
  | 0, _, _ => m ++ s
  | _, 0, 0 => h
  | _, _, 0 => h ++ m
  | _, _, _ => h ++ m ++ s

/-- Writes whole seconds. -/
def writeSeconds (total : Nat) : Text :=
  writeUnits (total / 3600) (total % 3600 / 60) (total % 60)

/-- Writes a duration given in milliseconds. From one second on it is cut to whole seconds. -/
def write (millis : Int) : Text :=
  let magnitude := millis.natAbs
  let unsigned :=
    if magnitude = 0 then "0s".toList
    else if magnitude < 1000 then Text.ofNat magnitude ++ "ms".toList
    else writeSeconds (magnitude / 1000)
  if millis < 0 then '-' :: unsigned else unsigned

example : (millis? "1h30m".toList).toOption = some (some 5400000) ∧
    (millis? "-1.5s".toList).toOption = some (some (-1500)) ∧
    (millis? "5".toList).toOption = some none := by decide +kernel
example : (millis? "170141183460469231731687303715884105.9us5".toList).toOption = none := by
  decide +kernel
example : write 3615000 = "1h0m15s".toList ∧ write (-250) = "-250ms".toList := by decide +kernel

end HealthCheck.Duration
