/-
# Quoting a text for display

A text shown inside a message stands between double quotes. Quotes, backslashes
and the common control characters are escaped by a letter; every other character
that would not show, or would attach itself to its neighbour, is shown by its
number.
-/

import JsxFactory.Text.Hidden

namespace JsxFactory.Text

/-- A character as it is shown between quotes. -/
def shown (c : Char) : List Char :=
  if c = '"' then ['\\', '"']
  else if c = '\\' then ['\\', '\\']
  else if c = '\n' then ['\\', 'n']
  else if c = '\r' then ['\\', 'r']
  else if c = '\t' then ['\\', 't']
  else if c = '\x00' then ['\\', '0']
  else if isHidden c then
    '\\' :: 'u' :: '\x7b' :: (Nat.toDigits 16 c.toNat ++ ['\x7d'])
  else [c]

/-- A text between quotes. -/
def quoted (s : String) : String :=
  String.ofList ('"' :: (s.toList.flatMap shown ++ ['"']))

end JsxFactory.Text
