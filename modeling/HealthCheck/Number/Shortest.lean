import HealthCheck.Number.Binary64

/-!
# Shortest decimals

The fewest significant digits that read back as the same binary64 number, and of the decimals with
so many digits the one nearest to it.

The reals that round to a number form an interval around it, which contains its ends when the
number's significand is even. For one digit, two digits and so on, the number's two neighbours on
that decimal grid are compared with the interval; the first grid with a neighbour inside it gives
the digits. Seventeen digits always suffice.
-/

namespace HealthCheck

/-- Which of two equally near decimals is taken. -/
inductive Tie where
  /-- The one whose last digit is even. -/
  | toEven
  /-- The one of greater magnitude. -/
  | away
deriving DecidableEq, Repr

/-- The decimal `0.d₁d₂… · 10 ^ point`; no digits mean zero. -/
structure Decimal where
  digits : Text
  point : Int
deriving DecidableEq, Repr

namespace Binary64

/-- The reals that round to a magnitude, scaled so that all is whole: from `low / den` to
`high / den`, and the magnitude itself is `mid / den`. -/
structure Basin where
  low : Nat
  mid : Nat
  high : Nat
  den : Nat
  closed : Bool

/-- The basin of a magnitude other than zero. Below a power of two the spacing halves. -/
def basin (u : Nat) : Basin :=
  let g := grain u
  let below := if g ≠ 1 ∧ u = g * Nat.pow 2 52 then g else 2 * g
  -- Half of the spacing on either side, or a quarter below a power of two: four makes both whole.
  ⟨4 * u - below, 4 * u, 4 * u + 2 * g, 4 * one, u / g % 2 == 0⟩

/-- The basin contains `num / den · 10 ^ shift` with the basin's own denominator. -/
def Basin.contains (b : Basin) (n : Nat) (unitNum unitDen : Nat) : Bool :=
  let x := n * unitNum * b.den
  let low := b.low * unitDen
  let high := b.high * unitDen
  if b.closed then low ≤ x && x ≤ high else low < x && x < high

/-- The number of digits before the point of `num / den`, negative where zeros follow the point:
the least `k` with `num / den < 10 ^ k`. -/
def pointOf (num den : Nat) : Int :=
  if den ≤ num then (Text.ofNat (num / den)).length
  else 1 - ((Text.ofNat ((den - 1) / num)).length : Int)

/-- The grid of decimals with unit `10 ^ e`, as a fraction. -/
def gridUnit : Int → Nat × Nat
  | .ofNat e => (Nat.pow 10 e, 1)
  | .negSucc e => (1, Nat.pow 10 (e + 1))

/-- The decimal of a magnitude on the first of `fuel` grids, from `count` digits on, that has a
neighbour of the magnitude in its basin. -/
def shortestFrom (tie : Tie) (b : Basin) (point : Int) : (fuel count : Nat) → Nat × Int
  | 0, _ => (0, 0)
  | fuel + 1, count =>
    let e := point - count
    let (unitNum, unitDen) := gridUnit e
    let floor := b.mid * unitDen / (b.den * unitNum)
    let down := b.contains floor unitNum unitDen
    let up := b.contains (floor + 1) unitNum unitDen
    -- Both neighbours read back: the nearer one is taken, and `tie` decides between equals.
    if down && up then
      let twice := 2 * b.mid * unitDen
      let middle := (2 * floor + 1) * (b.den * unitNum)
      let takeUpper := middle < twice ||
        (middle == twice && (tie == .away || floor % 2 == 1))
      (if takeUpper then floor + 1 else floor, e)
    else if down then (floor, e)
    else if up then (floor + 1, e)
    else shortestFrom tie b point fuel (count + 1)

/-- The shortest decimal of the magnitude of a number. -/
def shortest (tie : Tie) (x : Binary64) : Decimal :=
  if x.units = 0 then ⟨[], 0⟩
  else
    let b := basin x.units
    let (n, e) := shortestFrom tie b (pointOf b.mid b.den) 17 1
    let all := Text.ofNat n
    -- The last grid may be finer than the digits need.
    ⟨(all.reverse.dropWhile (· == '0')).reverse, all.length + e⟩

end Binary64

end HealthCheck
