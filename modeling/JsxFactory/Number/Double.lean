/-
# Finite 64-bit binary numbers

A finite binary number is a sign, a whole mantissa and a power of two. Decimal
numerals are rounded to the nearest such number, and a tie goes to the even
mantissa; a numeral too large for the format has no nearest finite number.
All of it is exact arithmetic on naturals, so every step can be reasoned about.
-/

namespace JsxFactory

/-- The finite number `(-1) ^ negative * mantissa * 2 ^ exponent`. The sign of
zero is kept, and a mantissa shorter than 53 bits occurs only with the least
exponent, so two of these are the same number only when they are equal or both
zero. -/
structure Double where
  negative : Bool
  mantissa : Nat
  exponent : Int
deriving DecidableEq, Repr, Inhabited

namespace Double

/-- The exponent shared by zero and the numbers next to it. -/
def minExponent : Int := -1074

/-- The exponent of the largest finite numbers. -/
def maxExponent : Int := 971

/-- Zero with the given sign. -/
def zero (negative : Bool) : Double :=
  ⟨negative, 0, minExponent⟩

/-- The whole number nearest to `numerator / denominator`; a tie goes to the
even neighbour. -/
def roundDiv (numerator denominator : Nat) : Nat :=
  let quotient := numerator / denominator
  let remainder := numerator % denominator
  if 2 * remainder < denominator then quotient
  else if denominator < 2 * remainder then quotient + 1
  else quotient + quotient % 2

/-- The fraction `numerator / denominator` divided by `2 ^ exponent`. -/
def divByPower (numerator denominator : Nat) : Int → Nat × Nat
  | .ofNat power => (numerator, denominator * Nat.pow 2 power)
  | .negSucc power => (numerator * Nat.pow 2 (power + 1), denominator)

/-- The exponent of the last place that a positive fraction keeps: 53 bits from
its leading one, but never below the least exponent. -/
def lastPlace (numerator denominator : Nat) : Int :=
  let guess : Int := (numerator.log2 : Int) - denominator.log2
  let (scaled, one) := divByPower numerator denominator guess
  let leading := if one ≤ scaled then guess else guess - 1
  max minExponent (leading - 52)

/-- The finite number nearest to the fraction `numerator / denominator`, if the
fraction is not too large. -/
def ofRatio? (negative : Bool) (numerator denominator : Nat) : Option Double :=
  if numerator = 0 then some (zero negative)
  else
    let place := lastPlace numerator denominator
    let (scaled, one) := divByPower numerator denominator place
    let rounded := roundDiv scaled one
    let (mantissa, exponent) :=
      if rounded = Nat.pow 2 53 then (Nat.pow 2 52, place + 1) else (rounded, place)
    if maxExponent < exponent then none else some ⟨negative, mantissa, exponent⟩

/-- The finite number nearest to `digits * 10 ^ exponent`. Numerals far outside
the format's range are settled by their magnitude alone. -/
def ofDecimal? (negative : Bool) (digits : Nat) (exponent : Int) : Option Double :=
  let magnitude : Int := (Nat.toDigits 10 digits).length + exponent
  if digits = 0 then some (zero negative)
  else if 400 < magnitude then none
  else if magnitude < -400 then some (zero negative)
  else
    match exponent with
    | .ofNat power => ofRatio? negative (digits * Nat.pow 10 power) 1
    | .negSucc power => ofRatio? negative digits (Nat.pow 10 (power + 1))

/-- The finite number nearest to a whole number, if it is not too large. -/
def ofInt? (value : Int) : Option Double :=
  ofRatio? (value < 0) value.natAbs 1

/-- The whole number that a finite number is, if it is one. -/
def toInt? (x : Double) : Option Int :=
  let signed (magnitude : Nat) : Int := if x.negative then -magnitude else magnitude
  match x.exponent with
  | .ofNat power => some (signed (x.mantissa * Nat.pow 2 power))
  | .negSucc power =>
    let factor := Nat.pow 2 (power + 1)
    if x.mantissa % factor = 0 then some (signed (x.mantissa / factor)) else none

/-- Whether two finite numbers have the same numeric value: the two zeros do. -/
def sameValue (x y : Double) : Bool :=
  x = y || (x.mantissa = 0 && y.mantissa = 0)

end Double

end JsxFactory
