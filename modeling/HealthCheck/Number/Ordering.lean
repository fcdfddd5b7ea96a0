import HealthCheck.Number.Duration
import HealthCheck.Number.Literal

/-!
# Texts as numbers

The ordering operators compare texts as integers of 64 bits. A text is tried as a duration other
than zero, in milliseconds; then as an integer literal in any base; then as a floating-point
literal, cut to an integer in range. Any other text counts as zero.
-/

namespace HealthCheck

/-- The integer in range that a floating-point number is cut to; what is not a number is zero. -/
def Reading.toInt : Reading → Int
  | .finite x => Integer.clamp x.truncate
  | .infinite negative => if negative then Integer.least else Integer.greatest
  | .nan => 0

/-- The integer as which a text is ordered. -/
def Text.toNumber (t : Text) : Except Abort Int := do
  match ← Duration.millis? t with
  | some millis => return if millis ≠ 0 then millis else rest
  | none => return rest
where
  /-- The integer of a text that is no duration. -/
  rest : Int :=
    match Integer.read? t with
    | some n => n
    | none => ((Reading.ofText? t).map Reading.toInt).getD 0

end HealthCheck
