/-
# Reading JSON

A recursive descent over the characters of a text. Every function returns what
it read together with the characters that follow, or the first problem met from
left to right. Nesting is not limited: the recursion is bounded by the length of
the text, which no text can exhaust, since a value takes at least one character.
-/

import JsxFactory.Json

namespace JsxFactory.Json

/-- The problems of a text that is not JSON. -/
inductive ParseError
  | endInValue
  | endInObject
  | endInList
  | endInString
  | expectedValue
  | expectedIdent
  | expectedColon
  | expectedObjectCommaOrEnd
  | expectedListCommaOrEnd
  | keyMustBeString
  | trailingComma
  | trailingCharacters
  | invalidNumber
  | numberOutOfRange
  | invalidEscape
  | controlCharacter
  | unexpectedEndOfHexEscape
  | loneSurrogate
deriving DecidableEq, Repr, Inhabited

/-- The wording of a problem. -/
def ParseError.message : ParseError → String
  | .endInValue => "EOF while parsing a value"
  | .endInObject => "EOF while parsing an object"
  | .endInList => "EOF while parsing a list"
  | .endInString => "EOF while parsing a string"
  | .expectedValue => "expected value"
  | .expectedIdent => "expected ident"
  | .expectedColon => "expected `:`"
  | .expectedObjectCommaOrEnd => "expected `,` or `\x7d`"
  | .expectedListCommaOrEnd => "expected `,` or `]`"
  | .keyMustBeString => "key must be a string"
  | .trailingComma => "trailing comma"
  | .trailingCharacters => "trailing characters"
  | .invalidNumber => "invalid number"
  | .numberOutOfRange => "number out of range"
  | .invalidEscape => "invalid escape"
  | .controlCharacter => "control character (\\u0000-\\u001F) found while parsing a string"
  | .unexpectedEndOfHexEscape => "unexpected end of hex escape"
  | .loneSurrogate => "lone leading surrogate in hex escape"

namespace Parser

/-- What was read, and the characters after it. -/
abbrev Parsed (α : Type) := Except ParseError (α × List Char)

/-- The blanks of JSON. -/
def isBlank (c : Char) : Bool :=
  c = ' ' || c = '\t' || c = '\n' || c = '\r'

/-- The characters from the first that is not a blank. -/
def skipBlanks (s : List Char) : List Char :=
  s.dropWhile isBlank

/-- Reads the rest of `null`, `true` or `false`. -/
def word : List Char → List Char → Except ParseError (List Char)
  | [], s => .ok s
  | _ :: _, [] => .error .endInValue
  | expected :: more, c :: s => if c = expected then word more s else .error .expectedIdent

/-! ### Strings -/

/-- The value of a hexadecimal digit. -/
def hexValue? (c : Char) : Option Nat :=
  if '0' ≤ c ∧ c ≤ '9' then some (c.toNat - '0'.toNat)
  else if 'a' ≤ c ∧ c ≤ 'f' then some (c.toNat - 'a'.toNat + 10)
  else if 'A' ≤ c ∧ c ≤ 'F' then some (c.toNat - 'A'.toNat + 10)
  else none

/-- Reads four hexadecimal digits. When they are not there, what matters is
whether four bytes of text are left at all. -/
def fourHex (s : List Char) : Parsed Nat :=
  let problem : ParseError :=
    if 4 ≤ (s.take 4).foldl (fun bytes c => bytes + c.utf8Size) 0 then .invalidEscape
    else .endInString
  match s with
  | a :: b :: c :: d :: rest =>
    match hexValue? a, hexValue? b, hexValue? c, hexValue? d with
    | some a, some b, some c, some d => .ok (((a * 16 + b) * 16 + c) * 16 + d, rest)
    | _, _, _, _ => .error problem
  | _ => .error problem

/-- Reads a hexadecimal escape after its `u`. The two halves of a surrogate pair
stand in two escapes and make one character. -/
def unicodeEscape (s : List Char) : Except ParseError (Char × List Char) := do
  let (unit, rest) ← fourHex s
  if 0xDC00 ≤ unit ∧ unit ≤ 0xDFFF then throw .loneSurrogate
  if unit < 0xD800 ∨ 0xDBFF < unit then return (Char.ofNat unit, rest)
  match rest with
  | [] => throw .endInString
  | '\\' :: [] => throw .endInString
  | '\\' :: 'u' :: rest =>
    let (low, rest) ← fourHex rest
    if low < 0xDC00 ∨ 0xDFFF < low then throw .loneSurrogate
    return (Char.ofNat ((unit - 0xD800) * 0x400 + (low - 0xDC00) + 0x10000), rest)
  | _ => throw .unexpectedEndOfHexEscape

/-- Reads an escape after its backslash. -/
def escaped : List Char → Parsed Char
  | [] => .error .endInString
  | '"' :: rest => .ok ('"', rest)
  | '\\' :: rest => .ok ('\\', rest)
  | '/' :: rest => .ok ('/', rest)
  | 'b' :: rest => .ok ('\x08', rest)
  | 'f' :: rest => .ok ('\x0c', rest)
  | 'n' :: rest => .ok ('\n', rest)
  | 'r' :: rest => .ok ('\r', rest)
  | 't' :: rest => .ok ('\t', rest)
  | 'u' :: rest => unicodeEscape rest
  | _ :: _ => .error .invalidEscape

/-- Reads the characters of a string from behind its opening quote up to its
closing quote. `done` holds what was read, last character first. -/
def stringBody : Nat → List Char → List Char → Parsed String
  | 0, _, _ => .error .endInString
  | _ + 1, _, [] => .error .endInString
  | fuel + 1, done, c :: s =>
    if c = '"' then .ok (String.ofList done.reverse, s)
    else if c = '\\' then
      match escaped s with
      | .error e => .error e
      | .ok (c, s) => stringBody fuel (c :: done) s
    else if c.toNat < 0x20 then .error .controlCharacter
    else stringBody fuel (c :: done) s

/-- Reads a string after its opening quote. -/
def string (s : List Char) : Parsed String :=
  stringBody (s.length + 1) [] s

/-! ### Numbers -/

/-- The decimal digits at the front, and the characters after them. -/
def digits (s : List Char) : List Char × List Char :=
  (s.takeWhile Char.isDigit, s.dropWhile Char.isDigit)

/-- Reads at least one decimal digit. -/
def someDigits (s : List Char) : Parsed (List Char) :=
  match digits s with
  | ([], []) => .error .endInValue
  | ([], _ :: _) => .error .invalidNumber
  | (ds, rest) => .ok (ds, rest)

/-- Reads the digits before the point: a single zero, or digits that do not
start with a zero. -/
def wholePart : List Char → Parsed (List Char)
  | '0' :: c :: s => if c.isDigit then .error .invalidNumber else .ok (['0'], c :: s)
  | s => someDigits s

/-- Reads the digits after the point, if there is one. -/
def fractionPart : List Char → Parsed (Option (List Char))
  | '.' :: s => (someDigits s).map fun (ds, rest) => (some ds, rest)
  | s => .ok (none, s)

/-- Reads a signed exponent after its mark. -/
def exponentDigits : List Char → Parsed Int
  | '-' :: s => (someDigits s).map fun (ds, rest) => (-(Nat.ofDigitChars 10 ds 0 : Int), rest)
  | '+' :: s => (someDigits s).map fun (ds, rest) => ((Nat.ofDigitChars 10 ds 0 : Int), rest)
  | s => (someDigits s).map fun (ds, rest) => ((Nat.ofDigitChars 10 ds 0 : Int), rest)

/-- Reads an exponent, if there is one. -/
def exponentPart : List Char → Parsed (Option Int)
  | 'e' :: s => (exponentDigits s).map fun (e, rest) => (some e, rest)
  | 'E' :: s => (exponentDigits s).map fun (e, rest) => (some e, rest)
  | s => .ok (none, s)

/-- The number that a numeral stands for. A numeral without a fraction and an
exponent is a whole number if it fits and is not a negative zero. -/
def numeral (negative : Bool) (whole : List Char) (fraction : Option (List Char))
    (exponent : Option Int) : Except ParseError Number :=
  let magnitude := Nat.ofDigitChars 10 whole 0
  let value : Int := if negative then -magnitude else magnitude
  if fraction.isNone ∧ exponent.isNone ∧ Number.FitsInteger value ∧
      ¬(negative ∧ magnitude = 0) then
    .ok (.integer value)
  else
    let places := fraction.getD []
    match Double.ofDecimal? negative (Nat.ofDigitChars 10 (whole ++ places) 0)
        (exponent.getD 0 - places.length) with
    | some x => .ok (.double x)
    | none => .error .numberOutOfRange

/-- Reads a number after its sign. -/
def unsigned (negative : Bool) (s : List Char) : Except ParseError (Number × List Char) := do
  let (whole, s) ← wholePart s
  let (fraction, s) ← fractionPart s
  let (exponent, s) ← exponentPart s
  let value ← numeral negative whole fraction exponent
  return (value, s)

/-- Reads a number. -/
def number : List Char → Parsed Number
  | '-' :: s => unsigned true s
  | s => unsigned false s

/-! ### Arrays and objects -/

/-- Whether a number can start with this character. -/
def startsNumber (c : Char) : Bool :=
  c = '-' || c.isDigit

/-- Finds the next item of an array: `none` at the closing bracket. The first
item has no comma before it. -/
def nextItem (first : Bool) (s : List Char) : Except ParseError (Bool × List Char) :=
  match skipBlanks s with
  | [] => .error .endInList
  | c :: rest =>
    if c = ']' then .ok (false, rest)
    else if first then .ok (true, c :: rest)
    else if c = ',' then
      match skipBlanks rest with
      | [] => .error .endInValue
      | d :: rest => if d = ']' then .error .trailingComma else .ok (true, d :: rest)
    else .error .expectedListCommaOrEnd

/-- Finds the next key of an object and stops after its opening quote, or after
the closing brace. The first key has no comma before it. -/
def nextKey (first : Bool) (s : List Char) : Except ParseError (Bool × List Char) :=
  match skipBlanks s with
  | [] => .error .endInObject
  | c :: rest =>
    if c = '\x7d' then .ok (false, rest)
    else if first then
      if c = '"' then .ok (true, rest) else .error .keyMustBeString
    else if c = ',' then
      match skipBlanks rest with
      | [] => .error .endInValue
      | d :: rest =>
        if d = '"' then .ok (true, rest)
        else if d = '\x7d' then .error .trailingComma
        else .error .keyMustBeString
    else .error .expectedObjectCommaOrEnd

/-- Reads the colon after a key. -/
def colon (s : List Char) : Except ParseError (List Char) :=
  match skipBlanks s with
  | [] => .error .endInObject
  | c :: rest => if c = ':' then .ok rest else .error .expectedColon

mutual

/-- Reads a value. -/
def value : Nat → List Char → Parsed Json
  | 0, _ => .error .endInValue
  | fuel + 1, s =>
    match skipBlanks s with
    | [] => .error .endInValue
    | c :: s =>
      if c = 'n' then (word ['u', 'l', 'l'] s).map (.null, ·)
      else if c = 't' then (word ['r', 'u', 'e'] s).map (.bool true, ·)
      else if c = 'f' then (word ['a', 'l', 's', 'e'] s).map (.bool false, ·)
      else if c = '"' then (stringBody fuel [] s).map fun (text, s) => (.string text, s)
      else if c = '[' then items fuel true [] s
      else if c = '\x7b' then members fuel true [] s
      else if startsNumber c then (number (c :: s)).map fun (n, s) => (.number n, s)
      else .error .expectedValue

/-- Reads the items of an array up to its closing bracket. `done` holds the items
read, last one first. -/
def items : Nat → Bool → List Json → List Char → Parsed Json
  | 0, _, _, _ => .error .endInList
  | fuel + 1, first, done, s =>
    match nextItem first s with
    | .error e => .error e
    | .ok (false, s) => .ok (.array done.reverse, s)
    | .ok (true, s) =>
      match value fuel s with
      | .error e => .error e
      | .ok (item, s) => items fuel false (item :: done) s

/-- Reads the members of an object up to its closing brace. -/
def members : Nat → Bool → List (String × Json) → List Char → Parsed Json
  | 0, _, _, _ => .error .endInObject
  | fuel + 1, first, done, s =>
    match nextKey first s with
    | .error e => .error e
    | .ok (false, s) => .ok (.object done, s)
    | .ok (true, s) =>
      match stringBody fuel [] s with
      | .error e => .error e
      | .ok (key, s) =>
        match colon s with
        | .error e => .error e
        | .ok s =>
          match value fuel s with
          | .error e => .error e
          | .ok (item, s) => members fuel false (insert key item done) s

end

/-- Accepts only blanks. -/
def finish (s : List Char) : Except ParseError Unit :=
  if (skipBlanks s).isEmpty then .ok () else .error .trailingCharacters

end Parser

/-- Reads a text that holds one value and blanks around it. -/
def parse (text : String) : Except ParseError Json := do
  let s := text.toList
  let (value, rest) ← Parser.value (2 * s.length + 2) s
  Parser.finish rest
  return value

end JsxFactory.Json
