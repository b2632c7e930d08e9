/-
# Character references

In markup a character can be written by name or by number, between an ampersand
and a semicolon. Decoding reads a text once from left to right. An ampersand
opens a reference, the next ampersand gives it up and opens another, and a
semicolon closes it; what cannot be decoded stays as it was written. Text that
comes out of decoding is not looked at again.
-/

import JsxFactory.Text.Entity.Names

namespace JsxFactory.Text.Entity

/-- The value of a digit in a base up to sixteen. -/
def digit? (base : Nat) (c : Char) : Option Nat :=
  let value? :=
    if '0' ≤ c ∧ c ≤ '9' then some (c.toNat - '0'.toNat)
    else if 'a' ≤ c ∧ c ≤ 'f' then some (c.toNat - 'a'.toNat + 10)
    else if 'A' ≤ c ∧ c ≤ 'F' then some (c.toNat - 'A'.toNat + 10)
    else none
  value?.filter (· < base)

/-- The number that digits stand for, if all of them are digits. -/
def numeral? (base : Nat) (digits : List Char) : Option Nat :=
  digits.foldlM (fun n c => (digit? base c).map (base * n + ·)) 0

/-- The number that at least one digit stands for. -/
def positiveLength? (base : Nat) : List Char → Option Nat
  | [] => none
  | digits => numeral? base digits

/-- The character with a number. A number has to fit 63 bits, and of these only
the lower 32 count. -/
def numbered? (n : Nat) : Option Char :=
  if Nat.pow 2 63 ≤ n then none
  else if (n % Nat.pow 2 32).isValidChar then some (Char.ofNat (n % Nat.pow 2 32))
  else none

/-- The character that stands between the ampersand and the semicolon: a number
after `#`, a hexadecimal number after `#x`, or a name. -/
def reference? : List Char → Option Char
  | '#' :: 'x' :: digits => (positiveLength? 16 digits).bind numbered?
  | '#' :: 'X' :: digits => (positiveLength? 16 digits).bind numbered?
  | '#' :: digits => (positiveLength? 10 digits).bind numbered?
  | name => named? (String.ofList name)

/-- A text being decoded. Both lists hold their last character first. -/
structure Scan where
  /-- What has been decoded. -/
  done : List Char
  /-- What was read since an ampersand that is still open. -/
  opened : Option (List Char)
deriving Repr

/-- Reads one more character. -/
def Scan.step (scan : Scan) (c : Char) : Scan :=
  match scan.opened with
  | none => if c = '&' then ⟨scan.done, some []⟩ else ⟨c :: scan.done, none⟩
  | some body =>
    if c = '&' then ⟨body ++ '&' :: scan.done, some []⟩
    else if c = ';' then
      match reference? body.reverse with
      | some decoded => ⟨decoded :: scan.done, none⟩
      | none => ⟨';' :: (body ++ '&' :: scan.done), none⟩
    else ⟨scan.done, some (c :: body)⟩

/-- What was read in all. A reference that is still open stays as it is. -/
def Scan.finish (scan : Scan) : List Char :=
  match scan.opened with
  | none => scan.done.reverse
  | some body => (body ++ '&' :: scan.done).reverse

/-- The text with its character references decoded. -/
def decode (s : String) : String :=
  String.ofList (s.toList.foldl Scan.step ⟨[], none⟩).finish

end JsxFactory.Text.Entity
