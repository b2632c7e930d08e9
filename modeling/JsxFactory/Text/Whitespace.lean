/-
# Whitespace in markup text

Text between tags is often only there to lay out the source. Such indentation
is made of blanks and at least one line break. Any other text loses the
whitespace at its two ends, where whitespace is meant in the widest sense.
-/

namespace JsxFactory.Text

/-- A space or a tab. -/
def isBlank (c : Char) : Bool :=
  c = ' ' || c = '\t'

/-- A line feed or a carriage return. -/
def isLineBreak (c : Char) : Bool :=
  c = '\n' || c = '\r'

/-- Whether a text is indentation: blanks, a line break, then blanks and line
breaks in any order. -/
def isIndentation (s : String) : Bool :=
  match s.toList.dropWhile isBlank with
  | [] => false
  | c :: rest => isLineBreak c && rest.all fun c => isBlank c || isLineBreak c

/-- The ranges of whitespace: the characters with that property, and the byte
order mark. -/
def whitespace : List (Nat × Nat) :=
  [(0x9, 0xD), (0x20, 0x20), (0x85, 0x85), (0xA0, 0xA0), (0x1680, 0x1680), (0x2000, 0x200A),
    (0x2028, 0x2029), (0x202F, 0x202F), (0x205F, 0x205F), (0x3000, 0x3000), (0xFEFF, 0xFEFF)]

/-- Whether a character is whitespace. -/
def isWhitespace (c : Char) : Bool :=
  whitespace.any fun (first, last) => first ≤ c.toNat && c.toNat ≤ last

/-- The characters without the whitespace at the two ends. -/
def trimChars (s : List Char) : List Char :=
  ((s.dropWhile isWhitespace).reverse.dropWhile isWhitespace).reverse

/-- The text without the whitespace at its two ends. -/
def trim (s : String) : String :=
  String.ofList (trimChars s.toList)

end JsxFactory.Text
