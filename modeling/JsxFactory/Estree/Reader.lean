/-
# Reading ESTree documents as terms

A document is read from the outside in, and the fields of a node in a fixed
order, so that the first defect found is determined. Fields that a kind does not
know are dropped, positions among them; a generic node keeps all of its fields
and its order. In a generic node a field is a child if it holds a node object,
a sequence if it is an array of node objects and nulls with at least one node
object, and plain data otherwise.
-/

import JsxFactory.Estree.Error
import JsxFactory.Term

namespace JsxFactory.Estree

/-- The kinds of nodes that have a shape of their own; any other is generic. -/
inductive Kind
  | jsxElement
  | jsxIdentifier
  | jsxMember
  | jsxAttribute
  | jsxSpreadAttribute
  | jsxContainer
  | jsxText
  | identifier
  | literal
  | property
  | spread
  | object
  | array
  | call
  | member
  | generic
deriving DecidableEq, Repr, Inhabited

/-- The kinds with a shape of their own, by their spelling. -/
def Kind.named : List (String × Kind) :=
  [("JSXElement", .jsxElement), ("JSXIdentifier", .jsxIdentifier),
    ("JSXMemberExpression", .jsxMember), ("JSXAttribute", .jsxAttribute),
    ("JSXSpreadAttribute", .jsxSpreadAttribute), ("JSXExpressionContainer", .jsxContainer),
    ("JSXText", .jsxText), ("Identifier", .identifier), ("Literal", .literal),
    ("Property", .property), ("SpreadElement", .spread), ("ObjectExpression", .object),
    ("ArrayExpression", .array), ("CallExpression", .call), ("MemberExpression", .member)]

/-- The kind of a node object with the given tag and members. Literals that are
regular expressions or big integers carry more than a value and are generic. -/
def Kind.of (tag : String) (members : List (String × Json)) : Kind :=
  match Kind.named.lookup tag with
  | some .literal =>
    if (members.lookup "regex").isSome || (members.lookup "bigint").isSome then .generic
    else .literal
  | some kind => kind
  | none => .generic

/-- The tag of a node object: its `type`, if that is a string. -/
def tag? (members : List (String × Json)) : Option String :=
  (members.lookup "type").bind Json.asString?

/-- Whether a value is an object with a string `type`. -/
def isNode : Json → Bool
  | .object members => (tag? members).isSome
  | _ => false

/-- Whether an array is a sequence of nodes: nulls and node objects, at least one
of them an object. -/
def isNodeList (items : List Json) : Bool :=
  items.any isNode && items.all fun item => item.isNull || isNode item

/-- A field that has to be a string. -/
def stringField (kind field : String) (members : List (String × Json)) :
    Except ReadError String :=
  match members.lookup field with
  | none => .error (.missingField kind field)
  | some (.string value) => .ok value
  | some _ => .error (.invalidField kind field .string)

/-- A field that is a boolean; absent or `null` it is false. -/
def flagField (kind field : String) (members : List (String × Json)) : Except ReadError Bool :=
  match members.lookup field with
  | none | some .null => .ok false
  | some (.bool value) => .ok value
  | some _ => .error (.invalidField kind field .boolean)

/-- The value of a literal. -/
def literalField (members : List (String × Json)) : Except ReadError Primitive :=
  match members.lookup "value" with
  | none => .error (.missingField "Literal" "value")
  | some json =>
    match Primitive.ofJson? json with
    | some value => .ok value
    | none => .error (.invalidField "Literal" "value" .primitive)

/-- What a property defines. -/
def propertyKindField (members : List (String × Json)) : Except ReadError PropertyKind := do
  match PropertyKind.ofName? (← stringField "Property" "kind" members) with
  | some kind => return kind
  | none => throw (.invalidField "Property" "kind" .propertyKind)

mutual

/-- Reads the term of a document. -/
def read : Json → Except ReadError Term
  | .null => .ok Term.hole
  | .object members =>
    match tag? members with
    | none => .error .missingType
    | some tag =>
      match Kind.of tag members with
      | .jsxElement => do
        let (name, attributes, selfClosing) ← readOpening members
        return ⟨.jsxElement name attributes (← readItems "JSXElement" "children" members)
          selfClosing⟩
      | .jsxIdentifier => do
        return ⟨.jsxIdentifier (← stringField "JSXIdentifier" "name" members)⟩
      | .jsxMember => do
        return ⟨.jsxMember (← readChild "JSXMemberExpression" "object" members)
          (← readChild "JSXMemberExpression" "property" members)⟩
      | .jsxAttribute => do
        return ⟨.jsxAttribute (← readChild "JSXAttribute" "name" members)
          (← readOptional "value" members)⟩
      | .jsxSpreadAttribute => do
        return ⟨.jsxSpreadAttribute (← readChild "JSXSpreadAttribute" "argument" members)⟩
      | .jsxContainer => do
        return ⟨.jsxContainer (← readChild "JSXExpressionContainer" "expression" members)⟩
      | .jsxText => do
        return ⟨.jsxText (← stringField "JSXText" "value" members)⟩
      | .identifier => do
        return ⟨.identifier (← stringField "Identifier" "name" members)⟩
      | .literal => do
        return ⟨.literal (← literalField members)⟩
      | .property => do
        let kind ← propertyKindField members
        return ⟨.property (← readChild "Property" "key" members)
          (← readChild "Property" "value" members) kind
          (← flagField "Property" "method" members)
          (← flagField "Property" "shorthand" members)
          (← flagField "Property" "computed" members)⟩
      | .spread => do
        return ⟨.spread (← readChild "SpreadElement" "argument" members)⟩
      | .object => do
        return ⟨.object (← readItems "ObjectExpression" "properties" members)⟩
      | .array => do
        return ⟨.array (← readItems "ArrayExpression" "elements" members)⟩
      | .call => do
        return ⟨.call (← readChild "CallExpression" "callee" members)
          (← readItems "CallExpression" "arguments" members)
          (← flagField "CallExpression" "optional" members)⟩
      | .member => do
        return ⟨.member (← readChild "MemberExpression" "object" members)
          (← readChild "MemberExpression" "property" members)
          (← flagField "MemberExpression" "computed" members)
          (← flagField "MemberExpression" "optional" members)⟩
      | .generic => do
        return ⟨.generic tag (← readFields members)⟩
  | other => .error (.notANode other.form)
termination_by structural json => json

/-- Reads the documents of an array, from first to last. -/
def readList : List Json → Except ReadError (List Term)
  | [] => .ok []
  | item :: rest => do return (← read item) :: (← readList rest)

/-- Reads a field that has to be a node. -/
def readChild (kind field : String) : List (String × Json) → Except ReadError Term
  | [] => .error (.missingField kind field)
  | (key, value) :: rest => if key = field then read value else readChild kind field rest

/-- Reads a field that is a node, or absent or `null`. -/
def readOptional (field : String) : List (String × Json) → Except ReadError (Option Term)
  | [] => .ok none
  | (key, value) :: rest =>
    if key = field then
      if value.isNull then .ok none else (read value).map some
    else readOptional field rest

/-- Reads a field that has to be an array of nodes. -/
def readItems (kind field : String) : List (String × Json) → Except ReadError (List Term)
  | [] => .error (.missingField kind field)
  | (key, value) :: rest =>
    if key = field then
      match value with
      | .array items => readList items
      | _ => .error (.invalidField kind field .array)
    else readItems kind field rest

/-- Reads the opening tag of an element: its name, its attributes and whether it
closes itself. -/
def readOpening : List (String × Json) → Except ReadError (Term × List Term × Bool)
  | [] => .error (.missingField "JSXElement" "openingElement")
  | (key, value) :: rest =>
    if key = "openingElement" then
      match value with
      | .object opening => do
        let name ← readChild "JSXOpeningElement" "name" opening
        let attributes ← readItems "JSXOpeningElement" "attributes" opening
        let selfClosing ← flagField "JSXOpeningElement" "selfClosing" opening
        return (name, attributes, selfClosing)
      | _ => .error (.invalidField "JSXElement" "openingElement" .object)
    else readOpening rest

/-- Reads the fields of a generic node, all but its `type`. -/
def readFields : List (String × Json) → Except ReadError (List (String × Field Term (List Term)))
  | [] => .ok []
  | (key, value) :: rest =>
    if key = "type" then readFields rest
    else do
      let field ←
        if isNode value then (read value).map Field.node
        else
          match value with
          | .array items =>
            if isNodeList items then (readList items).map Field.list
            else .ok (.value value)
          | _ => .ok (.value value)
      return (key, field) :: (← readFields rest)

end

end JsxFactory.Estree
