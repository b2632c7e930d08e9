/-
# Writing JSON

A value is written either without any blanks, or over several lines with two
spaces for each level of nesting. Both are one function: the layout only says
what stands before an item and after a key. An empty array or object is written
without a break in either layout.
-/

import JsxFactory.Json

namespace JsxFactory.Json

/-- The two ways of laying out a JSON text. -/
inductive Layout
  | compact
  | pretty
deriving DecidableEq, Repr

/-- What stands before an item at the given level, and before the bracket that
closes the level. -/
def Layout.lineBreak : Layout → Nat → List Char
  | .compact, _ => []
  | .pretty, level => '\n' :: List.replicate (2 * level) ' '

/-- What stands between a key and its value. -/
def Layout.colon : Layout → List Char
  | .compact => [':']
  | .pretty => [':', ' ']

/-- A lowercase hexadecimal digit. -/
def hexDigit (n : Nat) : Char :=
  if n < 10 then Char.ofNat ('0'.toNat + n) else Char.ofNat ('a'.toNat + (n - 10))

/-- A character inside a JSON string. Quotes, backslashes and control characters
are escaped, everything else stands for itself. -/
def escape (c : Char) : List Char :=
  if c = '"' then ['\\', '"']
  else if c = '\\' then ['\\', '\\']
  else if c = '\x08' then ['\\', 'b']
  else if c = '\x0c' then ['\\', 'f']
  else if c = '\n' then ['\\', 'n']
  else if c = '\r' then ['\\', 'r']
  else if c = '\t' then ['\\', 't']
  else if c.toNat < 0x20 then
    ['\\', 'u', '0', '0', hexDigit (c.toNat / 16), hexDigit (c.toNat % 16)]
  else [c]

/-- Writes a JSON string in front of `rest`. -/
def quote (s : String) (rest : List Char) : List Char :=
  '"' :: s.toList.foldr (fun c rest => escape c ++ rest) ('"' :: rest)

mutual

/-- Writes a value in front of `rest`. The items of the value, if it has any,
stand one level below `level`. -/
def write (layout : Layout) (level : Nat) : Json → List Char → List Char
  | .null, rest => 'n' :: 'u' :: 'l' :: 'l' :: rest
  | .bool true, rest => 't' :: 'r' :: 'u' :: 'e' :: rest
  | .bool false, rest => 'f' :: 'a' :: 'l' :: 's' :: 'e' :: rest
  | .number value, rest => value.text ++ rest
  | .string value, rest => quote value rest
  | .array [], rest => '[' :: ']' :: rest
  | .array (item :: items), rest =>
    '[' :: (layout.lineBreak (level + 1) ++ write layout (level + 1) item
      (writeItems layout (level + 1) items (layout.lineBreak level ++ ']' :: rest)))
  | .object [], rest => '\x7b' :: '\x7d' :: rest
  | .object ((key, value) :: members), rest =>
    '\x7b' :: (layout.lineBreak (level + 1) ++ quote key (layout.colon ++
      write layout (level + 1) value
        (writeMembers layout (level + 1) members (layout.lineBreak level ++ '\x7d' :: rest))))
termination_by structural value => value

/-- Writes the items after the first, each after a comma. -/
def writeItems (layout : Layout) (level : Nat) : List Json → List Char → List Char
  | [], rest => rest
  | item :: items, rest =>
    ',' :: (layout.lineBreak level ++
      write layout level item (writeItems layout level items rest))

/-- Writes the members after the first, each after a comma. -/
def writeMembers (layout : Layout) (level : Nat) :
    List (String × Json) → List Char → List Char
  | [], rest => rest
  | (key, value) :: members, rest =>
    ',' :: (layout.lineBreak level ++ quote key (layout.colon ++
      write layout level value (writeMembers layout level members rest)))

end

/-- The text of a value. -/
def render (layout : Layout) (value : Json) : String :=
  String.ofList (write layout 0 value [])

end JsxFactory.Json
