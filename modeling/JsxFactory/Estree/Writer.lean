/-
# Writing terms as ESTree documents

Each kind has its own fields in a fixed order after `type`. A generic node
writes the fields it holds, so what was read comes back as it was. An absent
node is written `null`.
-/

import JsxFactory.Term

namespace JsxFactory.Term

/-- A node object: its kind, then its fields. -/
def nodeObject (kind : String) (fields : List (String × Json)) : Json :=
  .object (("type", .string kind) :: fields)

/-- The object of an element's opening tag. -/
def openingObject (name : Json) (attributes : List Json) (selfClosing : Bool) : Json :=
  nodeObject "JSXOpeningElement"
    [("name", name), ("attributes", .array attributes), ("selfClosing", .bool selfClosing)]

/-- The object of an element's closing tag; a self-closing element has none. -/
def closingObject (name : Json) (selfClosing : Bool) : Json :=
  if selfClosing then .null else nodeObject "JSXClosingElement" [("name", name)]

mutual

/-- The document of a term. -/
def toEstree : Term → Json
  | ⟨.hole⟩ => .null
  | ⟨.jsxElement name attributes children selfClosing⟩ =>
    let name := toEstree name
    nodeObject "JSXElement"
      [("openingElement", openingObject name (listToEstree attributes) selfClosing),
        ("closingElement", closingObject name selfClosing),
        ("children", .array (listToEstree children))]
  | ⟨.jsxIdentifier name⟩ => nodeObject "JSXIdentifier" [("name", .string name)]
  | ⟨.jsxMember object property⟩ =>
    nodeObject "JSXMemberExpression"
      [("object", toEstree object), ("property", toEstree property)]
  | ⟨.jsxAttribute name none⟩ =>
    nodeObject "JSXAttribute" [("name", toEstree name), ("value", .null)]
  | ⟨.jsxAttribute name (some value)⟩ =>
    nodeObject "JSXAttribute" [("name", toEstree name), ("value", toEstree value)]
  | ⟨.jsxSpreadAttribute argument⟩ =>
    nodeObject "JSXSpreadAttribute" [("argument", toEstree argument)]
  | ⟨.jsxContainer expression⟩ =>
    nodeObject "JSXExpressionContainer" [("expression", toEstree expression)]
  | ⟨.jsxText value⟩ =>
    nodeObject "JSXText" [("value", .string value), ("raw", .string value)]
  | ⟨.identifier name⟩ => nodeObject "Identifier" [("name", .string name)]
  | ⟨.literal value⟩ => nodeObject "Literal" [("value", value.toJson)]
  | ⟨.property key value kind method shorthand computed⟩ =>
    nodeObject "Property"
      [("method", .bool method), ("shorthand", .bool shorthand), ("computed", .bool computed),
        ("key", toEstree key), ("value", toEstree value), ("kind", .string kind.name)]
  | ⟨.spread argument⟩ => nodeObject "SpreadElement" [("argument", toEstree argument)]
  | ⟨.object properties⟩ =>
    nodeObject "ObjectExpression" [("properties", .array (listToEstree properties))]
  | ⟨.array elements⟩ =>
    nodeObject "ArrayExpression" [("elements", .array (listToEstree elements))]
  | ⟨.call callee arguments optional⟩ =>
    nodeObject "CallExpression"
      [("callee", toEstree callee), ("arguments", .array (listToEstree arguments)),
        ("optional", .bool optional)]
  | ⟨.member object property computed optional⟩ =>
    nodeObject "MemberExpression"
      [("object", toEstree object), ("property", toEstree property),
        ("computed", .bool computed), ("optional", .bool optional)]
  | ⟨.generic kind fields⟩ =>
    Json.ofMembers (("type", .string kind) :: fieldsToEstree fields)
termination_by structural term => term

/-- The documents of some terms. -/
def listToEstree : List Term → List Json
  | [] => []
  | term :: rest => toEstree term :: listToEstree rest

/-- The members that the fields of a generic node are written as. -/
def fieldsToEstree : List (String × Field Term (List Term)) → List (String × Json)
  | [] => []
  | (key, .node child) :: rest => (key, toEstree child) :: fieldsToEstree rest
  | (key, .list children) :: rest =>
    (key, .array (listToEstree children)) :: fieldsToEstree rest
  | (key, .value json) :: rest => (key, json) :: fieldsToEstree rest

end

end JsxFactory.Term
