/-
# Options that cannot be read

What was found where an option or its value should be, and how that is worded.
-/

import JsxFactory.Json.Parser
import JsxFactory.Options
import JsxFactory.Text.Quoted

namespace JsxFactory.Options

/-- What stands where options or the value of one should be. Of arrays and
objects only that they are there is looked at. -/
inductive Found
  | null
  | boolean (value : Bool)
  | number (value : Number)
  | string (value : String)
  | sequence
  | map
deriving DecidableEq, Repr, Inhabited

/-- What a JSON value is found as. -/
def Found.of : Json → Found
  | .null => .null
  | .bool value => .boolean value
  | .number value => .number value
  | .string value => .string value
  | .array _ => .sequence
  | .object _ => .map

/-- The wording of what was found. -/
def Found.description : Found → String
  | .null => "null"
  | .boolean true => "boolean `true`"
  | .boolean false => "boolean `false`"
  | .number (.integer value) => "integer `" ++ String.ofList (Number.integerText value) ++ "`"
  | .number (.double value) => "floating point `" ++ String.ofList (Number.doubleText value) ++ "`"
  | .string value => "string " ++ Text.quoted value
  | .sequence => "sequence"
  | .map => "map"

/-- What has to stand there. -/
inductive Expected
  | options
  | string
  | boolean
deriving DecidableEq, Repr, Inhabited

/-- The wording of what has to stand there. -/
def Expected.description : Expected → String
  | .options => "struct Options"
  | .string => "a string"
  | .boolean => "a boolean"

/-- Why options cannot be read. -/
inductive ReadError
  /-- The text is not JSON. -/
  | malformed (error : Json.ParseError)
  /-- There is no option of this name. -/
  | unknownField (name : String)
  /-- The option is given twice. -/
  | duplicateField (key : Key)
  | invalidType (found : Found) (expected : Expected)
  /-- An array has more items than there are options. -/
  | tooManyItems (count : Nat)
deriving DecidableEq, Repr, Inhabited

/-- The wording of a problem. -/
def ReadError.message : ReadError → String
  | .malformed error => error.message
  | .unknownField name =>
    "unknown field `" ++ name ++ "`, expected one of " ++
      String.intercalate ", " (Key.all.map fun key => "`" ++ key.name ++ "`")
  | .duplicateField key => "duplicate field `" ++ key.name ++ "`"
  | .invalidType found expected =>
    "invalid type: " ++ found.description ++ ", expected " ++ expected.description
  | .tooManyItems count =>
    "invalid length " ++ String.ofList (Nat.toDigits 10 count) ++
      ", expected fewer elements in array"

end JsxFactory.Options
