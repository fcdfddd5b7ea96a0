import HealthCheck.Number.Shortest

/-!
# Layouts of decimals

How the shortest decimal of a number is written out: positionally or with an exponent, with or
without a fraction for a whole number. A `Layout` holds the decisions of one format.
-/

namespace HealthCheck

/-- The decisions of a format on how to write a decimal. -/
structure Layout where
  /-- Decimals `0.d₁d₂… · 10 ^ point` with `point` in this range are written positionally; the
  others have an exponent. No range means always positionally. -/
  positional : Option (Int × Int)
  /-- What follows a whole number that is written positionally. -/
  wholeEnd : Text
  /-- What precedes the digits of an exponent that is not negative. -/
  exponentSign : Text
  /-- Which of two equally near decimals is taken. -/
  tie : Tie

namespace Layout

/-- Numbers inside JSON text: positional from 10⁻⁵ up to 10¹⁶, always with a fraction, and with a
sign on every exponent. -/
def json : Layout := ⟨some (-4, 16), ".0".toList, "+".toList, .toEven⟩

/-- Numbers in YAML: as in JSON text, but an exponent has a sign only where it is negative. -/
def yaml : Layout := { json with exponentSign := [] }

/-- A number that stands alone: always positional, with a fraction only where there is one. -/
def alone : Layout := ⟨none, [], [], .away⟩

/-- Writes digits with the point after the first `point` of them. -/
def writePositional (l : Layout) (d : Decimal) : Text :=
  let point := d.point.toNat
  if d.point ≤ 0 then "0.".toList ++ List.replicate (-d.point).toNat '0' ++ d.digits
  else if d.digits.length ≤ point then
    d.digits ++ List.replicate (point - d.digits.length) '0' ++ l.wholeEnd
  else d.digits.take point ++ '.' :: d.digits.drop point

/-- Writes digits with the point after the first of them and an exponent. -/
def writeExponent (l : Layout) (d : Decimal) : Text :=
  let e := d.point - 1
  let fraction := d.digits.drop 1
  d.digits.take 1 ++ (if fraction = [] then [] else '.' :: fraction) ++
    'e' :: (if e < 0 then [] else l.exponentSign) ++ Text.ofInt e

/-- Writes a number. -/
def write (l : Layout) (x : Binary64) : Text :=
  let d := x.shortest l.tie
  let magnitude :=
    if d.digits = [] then '0' :: l.wholeEnd
    else
      match l.positional with
      | some (least, greatest) =>
        if least ≤ d.point ∧ d.point ≤ greatest then l.writePositional d else l.writeExponent d
      | none => l.writePositional d
  if x.negative then '-' :: magnitude else magnitude

end Layout

end HealthCheck
