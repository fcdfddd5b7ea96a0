import HealthCheck.Text.Basic

/-!
# Integer literals

Two notations of integers between −2⁶³ and 2⁶³ − 1.

* `decimal?` reads an optional sign and decimal digits, leading zeros allowed.
* `read?` also detects a base. After the sign, `0x`, `0o` and `0b` in either case announce base 16,
  8 and 2, a bare `0` before more text announces base 8, and all else is decimal. Single underscores
  may stand between digits, and one may follow the announcement of a base.
-/

namespace HealthCheck.Integer

/-- The least integer that is read: −2⁶³. -/
def least : Int := -9223372036854775808

/-- The greatest integer that is read: 2⁶³ − 1. -/
def greatest : Int := 9223372036854775807

/-- The integer nearest to `n` that is in range. -/
def clamp (n : Int) : Int := max least (min greatest n)

/-- What a signed word of so many bits holds in place of an integer: the one that differs from it by
a multiple of 2ᵇⁱᵗˢ and fits. -/
def wrap (bits : Nat) (n : Int) : Int := n.bmod (Nat.pow 2 bits)

/-- The integer with the given sign and magnitude, where it is in range. -/
def ofMagnitude? (negative : Bool) (magnitude : Nat) : Option Int :=
  let n : Int := if negative then -magnitude else magnitude
  if least ≤ n ∧ n ≤ greatest then some n else none

/-- Reads an optional sign and decimal digits. -/
def decimal? (t : Text) : Option Int :=
  let (negative, digits) := Text.signed t
  (Text.toNat? 10 digits).bind (ofMagnitude? negative)

/-- Cuts the announcement of a base off: the base, whether it was announced, and the digits. -/
def base : Text → Nat × Bool × Text
  | '0' :: 'x' :: digits => (16, true, digits)
  | '0' :: 'X' :: digits => (16, true, digits)
  | '0' :: 'o' :: digits => (8, true, digits)
  | '0' :: 'O' :: digits => (8, true, digits)
  | '0' :: 'b' :: digits => (2, true, digits)
  | '0' :: 'B' :: digits => (2, true, digits)
  | '0' :: c :: digits => (8, true, c :: digits)
  | digits => (10, false, digits)

/-- The underscores of a numeral are where they may be: never last, never two in a row, and first
only after the announcement of a base. -/
def separated (announced : Bool) (digits : Text) : Bool :=
  digits.getLast? != some '_' && !Text.contains "__".toList digits &&
    (announced || digits.head? != some '_')

/-- Reads an integer literal in any base. -/
def read? (t : Text) : Option Int :=
  let (negative, unsigned) := Text.signed t
  let (radix, announced, digits) := base unsigned
  if separated announced digits then
    (Text.toNat? radix (digits.filter (· != '_'))).bind (ofMagnitude? negative)
  else none

example : read? "-0x_ff".toList = some (-255) ∧ read? "017".toList = some 15 := by decide
example : read? "1__0".toList = none ∧ read? "_1".toList = none := by decide

end HealthCheck.Integer
