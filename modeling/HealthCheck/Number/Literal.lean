import HealthCheck.Number.Binary64

/-!
# Floating-point literals

Reads the text of a floating-point number: an optional sign, then decimal digits with at most one
point and at least one digit, then an optional exponent; or, in any case of letters, `inf`,
`infinity` or `nan`. The value of a decimal literal is rounded once, to the nearest binary64 number.
-/

namespace HealthCheck

/-- What the text of a floating-point number denotes. -/
inductive Reading where
  | finite (x : Binary64)
  | infinite (negative : Bool)
  | nan
deriving DecidableEq, Repr

namespace Reading

/-- The parts of a decimal literal: its value is `digits · 10 ^ exponent`. -/
structure Scientific where
  digits : Text
  exponent : Int
deriving DecidableEq, Repr

/-- Reads the exponent part that may follow the digits. -/
def exponent? : Text → Option Int
  | [] => some 0
  | c :: t =>
    if c = 'e' ∨ c = 'E' then
      let (negative, digits) := Text.signed t
      (Text.toNat? 10 digits).map fun e => if negative then -e else e
    else none

/-- Reads an unsigned decimal literal. -/
def scientific? (t : Text) : Option Scientific :=
  let whole := t.takeWhile Char.isDigit
  let rest := t.dropWhile Char.isDigit
  let (fraction, rest) :=
    match rest with
    | '.' :: r => (r.takeWhile Char.isDigit, r.dropWhile Char.isDigit)
    | r => ([], r)
  if whole ++ fraction = [] then none
  else (exponent? rest).map fun e => ⟨whole ++ fraction, e - fraction.length⟩

/-- The number nearest to a decimal literal. Literals of 10³¹⁰ or more are infinite and those below
10⁻³³⁰ are zero, which spares the computation of the power of ten. -/
def ofScientific (negative : Bool) (s : Scientific) : Reading :=
  let digits := s.digits.dropWhile (· == '0')
  let magnitude := digits.length + s.exponent
  if digits = [] ∨ magnitude < -330 then .finite (.zero negative)
  else if 310 < magnitude then .infinite negative
  else
    match Binary64.ofScientific? negative (Text.value 10 digits) s.exponent with
    | some x => .finite x
    | none => .infinite negative

/-- Reads the text of a floating-point number. -/
def ofText? (t : Text) : Option Reading :=
  let (negative, unsigned) := Text.signed t
  let named (name : String) : Bool := Text.sameIgnoringCase unsigned name.toList
  if named "inf" || named "infinity" then some (.infinite negative)
  else if named "nan" then some .nan
  else (scientific? unsigned).map (ofScientific negative)

/-- The finite number that a text denotes. -/
def finite? (t : Text) : Option Binary64 :=
  match ofText? t with
  | some (.finite x) => some x
  | _ => none

end Reading

end HealthCheck
