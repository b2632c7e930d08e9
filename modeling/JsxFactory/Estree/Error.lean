/-
# Documents that are not syntax trees

What can be wrong with a document that is read as a syntax tree, and how it is
worded.
-/

import JsxFactory.Json

namespace JsxFactory

/-- The forms of JSON values. -/
inductive Json.Form
  | null
  | boolean
  | number
  | string
  | array
  | object
deriving DecidableEq, Repr, Inhabited

/-- The form of a value. -/
def Json.form : Json → Json.Form
  | .null => .null
  | .bool _ => .boolean
  | .number _ => .number
  | .string _ => .string
  | .array _ => .array
  | .object _ => .object

/-- The wording of a form. -/
def Json.Form.description : Json.Form → String
  | .null => "null"
  | .boolean => "a boolean"
  | .number => "a number"
  | .string => "a string"
  | .array => "an array"
  | .object => "an object"

namespace Estree

/-- What a field has to hold. -/
inductive Expected
  | object
  | array
  | string
  | boolean
  | primitive
  | propertyKind
deriving DecidableEq, Repr, Inhabited

/-- The wording of what a field has to hold. -/
def Expected.description : Expected → String
  | .object => "an object"
  | .array => "an array"
  | .string => "a string"
  | .boolean => "a boolean"
  | .primitive => "a primitive"
  | .propertyKind => "one of init, get or set"

/-- What is wrong with a document. -/
inductive ReadError
  /-- Something other than an object or `null` stands where a node should. -/
  | notANode (found : Json.Form)
  /-- An object that should be a node has no `type` that is a string. -/
  | missingType
  /-- A node of the kind lacks a field that it needs. -/
  | missingField (kind field : String)
  /-- A field of a node of the kind holds the wrong form of value. -/
  | invalidField (kind field : String) (expected : Expected)
deriving DecidableEq, Repr, Inhabited

/-- The wording of a problem. -/
def ReadError.message : ReadError → String
  | .notANode found => "expected a node object, found " ++ found.description
  | .missingType => "node object has no `type` field"
  | .missingField kind field => kind ++ " is missing its `" ++ field ++ "` field"
  | .invalidField kind field expected =>
    kind ++ "." ++ field ++ " must be " ++ expected.description

end Estree

end JsxFactory
