import SealedGraph.Double.Basic
import SealedGraph.Text.Digits

/-!
# The shortest decimal of a number

The decimal with the fewest digits among those that are nearer to a number than to any other, and
of these the one nearest to it; of two that are equally near, the even one. All comparisons are
between natural numbers.
-/

namespace SealedGraph.Double

/-- A decimal `digits · 10 ^ exponent`. -/
structure Decimal where
  digits : Nat
  exponent : Int
  deriving DecidableEq, Repr

/-- The decimals that are read as one positive number: all those between two ends, which are given
with the number itself over one denominator. -/
structure Interval where
  low : Nat
  value : Nat
  high : Nat
  denominator : Nat
  /-- whether the two ends belong to the interval -/
  closed : Bool
  deriving DecidableEq, Repr

namespace Interval

/-- The interval of a finite number other than zero, whatever its sign. The unit is a quarter of
the last place, since the gap below a power of two is half as wide as the one above. -/
def of (x : Double) : Interval :=
  let e := x.exponentField
  let f := x.fractionField
  let mantissa := if e = 0 then f else f + Nat.pow 2 52
  let below := if f = 0 ∧ 1 < e then 1 else 2
  let scale := Nat.pow 2 (max e 1 - 1077)
  ⟨(4 * mantissa - below) * scale, 4 * mantissa * scale, (4 * mantissa + 2) * scale,
    Nat.pow 2 (1077 - max e 1), mantissa % 2 = 0⟩

/-- The factor that brings the numbers of the interval to the unit of a decimal. -/
def factor (d : Decimal) : Nat := Nat.pow 10 (-d.exponent).toNat

/-- A decimal over the denominator of the interval, times `factor`. -/
def numerator (iv : Interval) (d : Decimal) : Nat :=
  d.digits * Nat.pow 10 d.exponent.toNat * iv.denominator

/-- Whether a decimal lies in the interval. -/
def contains (iv : Interval) (d : Decimal) : Bool :=
  let s := factor d
  let a := iv.numerator d
  if iv.closed then iv.low * s ≤ a && a ≤ iv.high * s else iv.low * s < a && a < iv.high * s

/-- How far a decimal is from the number. -/
def distance (iv : Interval) (d : Decimal) : Nat :=
  let v := iv.value * factor d
  let a := iv.numerator d
  max v a - min v a

/-- The least `n` from `start` on for which ten to the `n` lifts the number to one. -/
def leadingZeros (iv : Interval) : Nat → Nat → Nat
  | 0, start => start
  | fuel + 1, start =>
    if iv.denominator ≤ iv.value * Nat.pow 10 start then start else iv.leadingZeros fuel (start + 1)

/-- The place of the first digit: the least `p` with the number below ten to the `p`. -/
def point (iv : Interval) : Int :=
  if iv.denominator ≤ iv.value then (Text.natText (iv.value / iv.denominator)).length
  else 1 - (iv.leadingZeros 330 1 : Int)

/-- The largest decimal with unit ten to the `exponent` that is not above the number. -/
def floor (iv : Interval) (exponent : Int) : Decimal :=
  let unit : Decimal := ⟨1, exponent⟩
  ⟨iv.value * factor unit / iv.numerator unit, exponent⟩

/-- Of the two neighbours on one grid, the one in the interval; of two, the nearer. -/
def onGrid (iv : Interval) (exponent : Int) : Option Decimal :=
  let d := iv.floor exponent
  let d' : Decimal := ⟨d.digits + 1, exponent⟩
  match iv.contains d, iv.contains d' with
  | true, true =>
    if iv.distance d < iv.distance d' ∨ (iv.distance d = iv.distance d' ∧ d.digits % 2 = 0) then
      some d
    else some d'
  | true, false => some d
  | false, true => some d'
  | false, false => none

/-- The first hit on the grids with `n` digits and more. -/
def search (iv : Interval) : Nat → Nat → Decimal
  | 0, n => iv.floor (iv.point - n)
  | fuel + 1, n =>
    match iv.onGrid (iv.point - n) with
    | some d => d
    | none => iv.search fuel (n + 1)

end Interval

/-- The decimal without zeros at its end. -/
def Decimal.normalize : Nat → Decimal → Decimal
  | 0, d => d
  | fuel + 1, d =>
    if d.digits % 10 = 0 ∧ d.digits ≠ 0 then normalize fuel ⟨d.digits / 10, d.exponent + 1⟩ else d

/-- The shortest decimal of a finite number other than zero, whatever its sign. -/
def shortest (x : Double) : Decimal := Decimal.normalize 20 ((Interval.of x).search 17 1)

end SealedGraph.Double
