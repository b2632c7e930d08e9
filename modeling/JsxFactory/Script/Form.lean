/-
# Forms of nodes

A form is a node as a session writes and reads it: an object with the kind of the
node and its fields, in which children are handles.
-/

import JsxFactory.Script.Session

namespace JsxFactory.Script

/-- The form of an edge. -/
def edgeForm (session : Session) : Edge NodeId ListId → Json
  | .node child => .object [("node", session.nodeHandle child)]
  | .list children => .object [("list", session.listHandle children)]

/-- The form of a field. -/
def fieldForm (session : Session) : Field NodeId ListId → Json
  | .node child => edgeForm session (.node child)
  | .list children => edgeForm session (.list children)
  | .value json => .object [("value", json)]

/-- The fields in the form of a node. -/
def formFields (session : Session) : Slot → List (String × Json)
  | .hole => []
  | .jsxElement name attributes children selfClosing =>
    [("name", session.nodeHandle name), ("attributes", session.listHandle attributes),
      ("children", session.listHandle children), ("selfClosing", .bool selfClosing)]
  | .jsxIdentifier name => [("name", .string name)]
  | .jsxMember object property =>
    [("object", session.nodeHandle object), ("property", session.nodeHandle property)]
  | .jsxAttribute name value =>
    [("name", session.nodeHandle name), ("value", (value.map session.nodeHandle).getD .null)]
  | .jsxSpreadAttribute argument => [("argument", session.nodeHandle argument)]
  | .jsxContainer expression => [("expression", session.nodeHandle expression)]
  | .jsxText value => [("value", .string value)]
  | .identifier name => [("name", .string name)]
  | .literal value => [("value", value.toJson)]
  | .property key value kind method shorthand computed =>
    [("key", session.nodeHandle key), ("value", session.nodeHandle value),
      ("propertyKind", .string kind.name), ("method", .bool method),
      ("shorthand", .bool shorthand), ("computed", .bool computed)]
  | .spread argument => [("argument", session.nodeHandle argument)]
  | .object properties => [("properties", session.listHandle properties)]
  | .array elements => [("elements", session.listHandle elements)]
  | .call callee arguments optional =>
    [("callee", session.nodeHandle callee), ("arguments", session.listHandle arguments),
      ("optional", .bool optional)]
  | .member object property computed optional =>
    [("object", session.nodeHandle object), ("property", session.nodeHandle property),
      ("computed", .bool computed), ("optional", .bool optional)]
  | .generic kind fields =>
    [("type", .string kind),
      ("fields", .array (fields.map fun (key, field) =>
        .array [.string key, fieldForm session field]))]

/-- The kind in the form of a node. -/
def formKind : Slot → String
  | .generic _ _ => "Generic"
  | node => node.kind

/-- The form of a node. -/
def form (session : Session) (node : Slot) : Json :=
  .object (("kind", .string (formKind node)) :: formFields session node)

/-- Reads a field of a generic node. -/
def readField (session : Session) (json : Json) : Except StepError (Field NodeId ListId) :=
  match json.get? "node", json.get? "list" with
  | some handle, _ => (session.nodeOf handle).map .node
  | none, some handle => (session.listOf handle).map .list
  | none, none => .ok (.value (field "value" json))

/-- Reads two values that stand in an array. -/
def pairOf : Json → Json × Json
  | .array (first :: second :: _) => (first, second)
  | .array [first] => (first, .null)
  | _ => (.null, .null)

/-- Reads the fields of a generic node, from first to last. -/
def readFields (session : Session) :
    List Json → Except StepError (List (String × Field NodeId ListId))
  | [] => .ok []
  | entry :: rest => do
    let (key, value) := pairOf entry
    let first ← readField session value
    let others ← readFields session rest
    return (key.asString?.getD "", first) :: others

/-- Reads the flags of a property. Without a kind it is a plain one. -/
def readProperty (key value : NodeId) (json : Json) : Slot :=
  match (field "propertyKind" json).asString? with
  | none => .plainProperty key value
  | some kind =>
    .property key value ((PropertyKind.ofName? kind).getD .init) (flagOf "method" json)
      (flagOf "shorthand" json) (flagOf "computed" json)

/-- Reads a form, field by field. -/
def readForm (session : Session) (json : Json) : Except StepError Slot :=
  let node (key : String) : Except StepError NodeId := session.nodeOf (field key json)
  let list (key : String) : Except StepError ListId := session.listOf (field key json)
  match textOf "kind" json with
  | "Hole" => .ok .hole
  | "JSXElement" => do
    return .jsxElement (← node "name") (← list "attributes") (← list "children")
      (flagOf "selfClosing" json)
  | "JSXIdentifier" => .ok (.jsxIdentifier (textOf "name" json))
  | "JSXMemberExpression" => do return .jsxMember (← node "object") (← node "property")
  | "JSXAttribute" => do
    let name ← node "name"
    if (field "value" json).isNull then return .jsxAttribute name none
    else return .jsxAttribute name (some (← node "value"))
  | "JSXSpreadAttribute" => do return .jsxSpreadAttribute (← node "argument")
  | "JSXExpressionContainer" => do return .jsxContainer (← node "expression")
  | "JSXText" => .ok (.jsxText (textOf "value" json))
  | "Identifier" => .ok (.identifier (textOf "name" json))
  | "Literal" =>
    match Primitive.ofJson? (field "value" json) with
    | some value => .ok (.literal value)
    | none => .error .primitiveExpected
  | "Property" => do return readProperty (← node "key") (← node "value") json
  | "SpreadElement" => do return .spread (← node "argument")
  | "ObjectExpression" => do return .object (← list "properties")
  | "ArrayExpression" => do return .array (← list "elements")
  | "CallExpression" => do
    return .call (← node "callee") (← list "arguments") (flagOf "optional" json)
  | "MemberExpression" => do
    return .member (← node "object") (← node "property") (flagOf "computed" json)
      (flagOf "optional" json)
  | "Generic" => do
    return .generic (textOf "type" json) (← readFields session (itemsOf "fields" json))
  | _ => .error .unknownNodeKind

end JsxFactory.Script
