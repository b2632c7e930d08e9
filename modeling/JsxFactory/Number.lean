/-
# JSON numbers

A number written without a fraction or an exponent is a whole number as long as
it fits 64 bits; every other number is a finite binary number. The two kinds
are told apart when they are written: a binary number always shows a fraction
or an exponent.
-/

import JsxFactory.Number.Double
import JsxFactory.Number.Shortest

namespace JsxFactory

/-- A JSON number. -/
inductive Number
  | integer (value : Int)
  | double (value : Double)
deriving DecidableEq, Repr, Inhabited

/-- How binary numbers are laid out. -/
structure NumberFormat where
  /-- The least position of the decimal point that is written without an exponent. -/
  leastPoint : Int
  /-- The greatest position of the decimal point that is written without an exponent. -/
  greatestPoint : Int
deriving DecidableEq, Repr

namespace NumberFormat

/-- Lays out the digits of `0.digits * 10 ^ point`. Without an exponent there is
at least one digit on either side of the decimal point; with an exponent its
sign is always written. -/
def layout (format : NumberFormat) (digits : List Char) (point : Int) : List Char :=
  if format.leastPoint ≤ point ∧ point ≤ format.greatestPoint then
    if point ≤ 0 then
      '0' :: '.' :: (List.replicate (-point).toNat '0' ++ digits)
    else if digits.length ≤ point.toNat then
      digits ++ List.replicate (point.toNat - digits.length) '0' ++ ['.', '0']
    else
      digits.take point.toNat ++ '.' :: digits.drop point.toNat
  else
    let fraction := if digits.length ≤ 1 then [] else '.' :: digits.drop 1
    let sign := if point - 1 < 0 then '-' else '+'
    digits.take 1 ++ fraction ++ 'e' :: sign :: Nat.toDigits 10 (point - 1).natAbs

end NumberFormat

namespace Number

/-- Binary numbers from `1e-5` up to, but not including, `1e16` are written
without an exponent. -/
def format : NumberFormat := ⟨-4, 16⟩

/-- The whole numbers that a JSON number holds as such: those of 64 bits, with
or without a sign. -/
def FitsInteger (value : Int) : Prop :=
  -(Nat.pow 2 63 : Nat) ≤ value ∧ value < (Nat.pow 2 64 : Nat)

instance (value : Int) : Decidable (FitsInteger value) :=
  inferInstanceAs (Decidable (_ ∧ _))

/-- The text of a binary number. -/
def doubleText (x : Double) : List Char :=
  let magnitude :=
    if x.mantissa = 0 then ['0', '.', '0']
    else
      let (digits, point) := x.shortest
      format.layout digits point
  if x.negative then '-' :: magnitude else magnitude

/-- The text of a whole number. -/
def integerText : Int → List Char
  | .ofNat n => Nat.toDigits 10 n
  | .negSucc n => '-' :: Nat.toDigits 10 (n + 1)

/-- The text of a number. -/
def text : Number → List Char
  | .integer value => integerText value
  | .double value => doubleText value

/-- Whether two numbers are of the same kind and have the same value. -/
def sameValue : Number → Number → Bool
  | .integer x, .integer y => x = y
  | .double x, .double y => x.sameValue y
  | _, _ => false

end Number

end JsxFactory
