/-
# Markup that cannot be desugared

Each problem names the kind of the node that has no place where it stands.
-/

namespace JsxFactory

/-- Why a tree cannot be desugared. -/
inductive DesugarError
  /-- A tag or an attribute has a name that is neither simple nor dotted. -/
  | unsupportedName (kind : String)
  /-- An entry of a tag is neither an attribute nor a spread. -/
  | unsupportedAttribute (kind : String)
  /-- An attribute has a value that is neither a literal nor in braces. -/
  | unsupportedAttributeValue (kind : String)
  /-- Braces hold an expression that cannot stand for itself. -/
  | unsupportedExpression (kind : String)
  /-- There is markup other than an element. -/
  | unsupportedElement (kind : String)
deriving DecidableEq, Repr, Inhabited

namespace DesugarError

/-- The kind of the offending node. -/
def kind : DesugarError → String
  | .unsupportedName kind
  | .unsupportedAttribute kind
  | .unsupportedAttributeValue kind
  | .unsupportedExpression kind
  | .unsupportedElement kind => kind

/-- The wording of a problem. -/
def message : DesugarError → String
  | .unsupportedName kind => "unsupported name type (" ++ kind ++ ")"
  | .unsupportedAttribute kind => "unsupported attribute type (" ++ kind ++ ")"
  | .unsupportedAttributeValue kind => "unsupported attribute value type (" ++ kind ++ ")"
  | .unsupportedExpression kind => "unsupported expression type (" ++ kind ++ ")"
  | .unsupportedElement kind => "unsupported element type (" ++ kind ++ ")"

end DesugarError

end JsxFactory
