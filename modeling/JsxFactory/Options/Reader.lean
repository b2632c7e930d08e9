/-
# Reading options

Options are given as an object with any of the four names, or as an array with
the values in order; what is left out keeps its default. They are read from a
JSON value or straight from a text. A text is read from left to right, and a
wrong name or a value of the wrong type is reported before what follows it is
looked at.
-/

import JsxFactory.Options.Error

namespace JsxFactory.Options

/-- What an option's value has to be. -/
def Key.expected : Key → Expected
  | .factory => .string
  | .quotePropNames | .quoteIntrinsic | .keepComments => .boolean

/-- Sets an option. -/
def assign (key : Key) (found : Found) (options : Options) : Except ReadError Options :=
  match key, found with
  | .factory, .string value => .ok { options with factory := value }
  | .quotePropNames, .boolean value => .ok { options with quotePropNames := value }
  | .quoteIntrinsic, .boolean value => .ok { options with quoteIntrinsic := value }
  | .keepComments, .boolean value => .ok { options with keepComments := value }
  | key, found => .error (.invalidType found key.expected)

/-- The option of a name that has not been given before. -/
def freshKey (seen : List Key) (name : String) : Except ReadError Key :=
  match Key.ofName? name with
  | none => .error (.unknownField name)
  | some key => if key ∈ seen then .error (.duplicateField key) else .ok key

/-! ### From a JSON value -/

/-- Sets options from the members of an object. -/
def assignMembers (seen : List Key) (options : Options) :
    List (String × Json) → Except ReadError Options
  | [] => .ok options
  | (name, value) :: rest => do
    let key ← freshKey seen name
    let options ← assign key (.of value) options
    assignMembers (key :: seen) options rest

/-- Sets options from the items of an array, in the order of `keys`. -/
def assignItems (options : Options) : List Key → List Json → Except ReadError Options
  | key :: keys, item :: items => do
    let options ← assign key (.of item) options
    assignItems options keys items
  | _, _ => .ok options

/-- Reads options from a JSON value. -/
def ofJson : Json → Except ReadError Options
  | .object members => assignMembers [] {} members
  | .array items => do
    let options ← assignItems {} Key.all items
    if Key.all.length < items.length then throw (.tooManyItems items.length)
    return options
  | other => .error (.invalidType (.of other) .options)

/-! ### From a text -/

/-- The outcome of reading JSON as an outcome of reading options. -/
def lifted {α : Type} (parsed : Except Json.ParseError α) : Except ReadError α :=
  parsed.mapError .malformed

/-- Reads what stands at the front of a text, which is looked into only if it is
not an array or an object. -/
def found (s : List Char) : Except ReadError (Found × List Char) :=
  match Json.Parser.skipBlanks s with
  | [] => .error (.malformed .endInValue)
  | c :: s =>
    if c = 'n' then (lifted (Json.Parser.word ['u', 'l', 'l'] s)).map (.null, ·)
    else if c = 't' then (lifted (Json.Parser.word ['r', 'u', 'e'] s)).map (.boolean true, ·)
    else if c = 'f' then
      (lifted (Json.Parser.word ['a', 'l', 's', 'e'] s)).map (.boolean false, ·)
    else if c = '"' then (lifted (Json.Parser.string s)).map fun (text, s) => (.string text, s)
    else if c = '[' then .ok (.sequence, s)
    else if c = '\x7b' then .ok (.map, s)
    else if Json.Parser.startsNumber c then
      (lifted (Json.Parser.number (c :: s))).map fun (n, s) => (.number n, s)
    else .error (.malformed .expectedValue)

/-- Reads the members of an object up to its closing brace. -/
def members : Nat → Bool → List Key → Options → List Char →
    Except ReadError (Options × List Char)
  | 0, _, _, _, _ => .error (.malformed .endInObject)
  | fuel + 1, first, seen, options, s => do
    match ← lifted (Json.Parser.nextKey first s) with
    | (false, s) => return (options, s)
    | (true, s) =>
      let (name, s) ← lifted (Json.Parser.string s)
      let key ← freshKey seen name
      let s ← lifted (Json.Parser.colon s)
      let (value, s) ← found s
      let options ← assign key value options
      members fuel false (key :: seen) options s

/-- Accepts the end of an array that may hold no more items. -/
def closeArray (s : List Char) : Except ReadError (List Char) :=
  match Json.Parser.skipBlanks s with
  | [] => .error (.malformed .endInList)
  | c :: rest =>
    if c = ']' then .ok rest
    else if c = ',' then
      match Json.Parser.skipBlanks rest with
      | ']' :: _ => .error (.malformed .trailingComma)
      | _ => .error (.malformed .trailingCharacters)
    else .error (.malformed .trailingCharacters)

/-- Reads the items of an array up to its closing bracket, in the order of the
keys. -/
def items (first : Bool) (options : Options) : List Key → List Char →
    Except ReadError (Options × List Char)
  | [], s => do return (options, ← closeArray s)
  | key :: keys, s => do
    match ← lifted (Json.Parser.nextItem first s) with
    | (false, s) => return (options, s)
    | (true, s) =>
      let (value, s) ← found s
      let options ← assign key value options
      items false options keys s

/-- Reads options from a text. -/
def ofText (text : String) : Except ReadError Options := do
  let (value, s) ← found text.toList
  let (options, s) ←
    match value with
    | .map => members (s.length + 1) true [] {} s
    | .sequence => items true {} Key.all s
    | other => throw (.invalidType other .options)
  lifted (Json.Parser.finish s)
  return options

end JsxFactory.Options
