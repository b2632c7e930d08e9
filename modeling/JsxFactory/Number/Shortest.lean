/-
# The shortest decimal numeral of a binary number

Every real number closer to a finite number than half a unit of its last place
reads back as that number. Of the decimals in this interval the shortest is
taken, and of the shortest the nearest. The search goes from coarse decimal
grids to fine ones and looks only at the two grid points around the number.
-/

import JsxFactory.Number.Double

namespace JsxFactory.Double

/-- The fractions that read back as a positive number, over one denominator:
from `low` to `high`, ends included exactly when `closed`. -/
structure Interval where
  low : Nat
  value : Nat
  high : Nat
  denominator : Nat
  closed : Bool
deriving DecidableEq, Repr

/-- The interval around the magnitude of a nonzero number. Below a power of two
the neighbours are twice as close. -/
def interval (x : Double) : Interval :=
  let below := if x.mantissa = Nat.pow 2 52 ∧ minExponent < x.exponent then 1 else 2
  let (factor, denominator) :=
    match x.exponent - 2 with
    | .ofNat power => (Nat.pow 2 power, 1)
    | .negSucc power => (1, Nat.pow 2 (power + 1))
  { low := (4 * x.mantissa - below) * factor
    value := 4 * x.mantissa * factor
    high := (4 * x.mantissa + 2) * factor
    denominator
    closed := x.mantissa % 2 = 0 }

namespace Interval

/-- The position of the decimal point: the `p` for which the value lies from
`10 ^ (p - 1)` up to, but not including, `10 ^ p`. -/
def point (i : Interval) : Int :=
  if i.denominator ≤ i.value then
    (Nat.toDigits 10 (i.value / i.denominator)).length
  else
    let length := (Nat.toDigits 10 (i.denominator / i.value)).length
    if i.denominator ≤ i.value * Nat.pow 10 (length - 1) then 2 - length else 1 - length

/-- The interval with every fraction divided by `10 ^ place`. -/
def divByPower (i : Interval) : Int → Interval
  | .ofNat power => { i with denominator := i.denominator * Nat.pow 10 power }
  | .negSucc power =>
    let factor := Nat.pow 10 (power + 1)
    { i with low := i.low * factor, value := i.value * factor, high := i.high * factor }

/-- Whether a whole number lies in the interval. -/
def contains (i : Interval) (n : Nat) : Bool :=
  let scaled := n * i.denominator
  if i.closed then i.low ≤ scaled && scaled ≤ i.high
  else i.low < scaled && scaled < i.high

/-- The whole number in the interval next to the value, if there is one: of two
the nearer, and the even one at a tie. -/
def nearest? (i : Interval) : Option Nat :=
  let down := i.value / i.denominator
  let up := down + 1
  match i.contains down, i.contains up with
  | true, true =>
    let toDown := i.value - down * i.denominator
    let toUp := up * i.denominator - i.value
    if toDown < toUp then some down
    else if toUp < toDown then some up
    else some (down + down % 2)
  | true, false => some down
  | false, true => some up
  | false, false => none

end Interval

/-- The digits of the shortest decimal that reads back as the magnitude of a
nonzero number, and the position of its decimal point: `0.digits * 10 ^ point`.
Seventeen digits always suffice. -/
def shortest (x : Double) : List Char × Int :=
  let i := x.interval
  let point := i.point
  let (digits, place) :=
    ((List.range 17).findSome? fun (n : Nat) =>
      let place := point - ((n : Int) + 1)
      ((i.divByPower place).nearest?).map (·, place)).getD
        (i.value / i.denominator, 0)
  let written := Nat.toDigits 10 digits
  ((written.reverse.dropWhile (· = '0')).reverse, place + written.length)

end JsxFactory.Double
