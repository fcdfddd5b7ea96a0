import HealthCheck.Text.Basic

/-!
# Binary64 numbers

Finite binary floating-point numbers of 64 bits, exactly. Every such number is a whole multiple of
2⁻¹⁰⁷⁴, so its magnitude is kept as that multiple, and all arithmetic is arithmetic of natural
numbers followed by one rounding to nearest, ties to even.

The spacing of the representable magnitudes near `u` units is `grain u`: one unit up to 2⁵³ units
and, above, the power of two that leaves 53 significant bits.
-/

namespace HealthCheck

/-- A finite binary64 number: a sign and a magnitude in units of 2⁻¹⁰⁷⁴. -/
structure Binary64 where
  negative : Bool
  units : Nat
deriving DecidableEq, Repr

namespace Binary64

/-- The units in the number one. -/
def one : Nat := Nat.pow 2 1074

/-- The least magnitude, in units, that is too large to be represented. -/
def limit : Nat := Nat.pow 2 2098

/-- The distance between representable magnitudes next to `u` units. -/
def grain (u : Nat) : Nat := Nat.pow 2 (u.log2 - 52)

/-! ## Rounding -/

/-- The whole number nearest to `num / den`, the even one of two that are equally near. -/
def nearest (num den : Nat) : Nat :=
  let q := num / den
  let r := num % den
  if den < 2 * r ∨ (2 * r = den ∧ q % 2 = 1) then q + 1 else q

/-- The representable magnitude nearest to `num / den` units. -/
def round (num den : Nat) : Nat :=
  let g := grain (num / den)
  g * nearest num (den * g)

/-- A magnitude of `num / den` units with its sign, rounded, or nothing where it overflows. -/
def ofRatio? (negative : Bool) (num den : Nat) : Option Binary64 :=
  let u := round num den
  if u < limit then some ⟨negative, u⟩ else none

/-! ## Arithmetic -/

/-- Zero with a sign. -/
def zero (negative : Bool) : Binary64 := ⟨negative, 0⟩

/-- The number has magnitude zero. -/
def isZero (x : Binary64) : Bool := x.units == 0

/-- The binary64 number nearest to a natural number. -/
def ofNat? (n : Nat) : Option Binary64 := ofRatio? false (n * one) 1

/-- The rounded product. -/
def mul? (x y : Binary64) : Option Binary64 :=
  ofRatio? (x.negative != y.negative) (x.units * y.units) one

/-- The rounded quotient by a number other than zero. -/
def div? (x y : Binary64) : Option Binary64 :=
  ofRatio? (x.negative != y.negative) (x.units * one) y.units

/-- The number nearest to `digits · 10 ^ exponent`. -/
def ofScientific? (negative : Bool) (digits : Nat) (exponent : Int) : Option Binary64 :=
  match exponent with
  | .ofNat e => ofRatio? negative (digits * Nat.pow 10 e * one) 1
  | .negSucc e => ofRatio? negative (digits * one) (Nat.pow 10 (e + 1))

/-- The number without its fraction. -/
def truncate (x : Binary64) : Int :=
  if x.negative then -(x.units / one : Nat) else (x.units / one : Nat)

example : (ofScientific? false 1 0).map truncate = some 1 := by decide +kernel
example : ofScientific? false 18446744073709551615 0 = ofNat? UInt64.size := by decide +kernel
example : ofScientific? false 1 400 = none := by decide +kernel

end Binary64

end HealthCheck
