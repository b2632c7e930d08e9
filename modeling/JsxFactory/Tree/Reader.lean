/-
# Reading ESTree documents into a store

A document is read in one pass that adds nodes and sequences to a store, children
before the node that holds them, in the order in which the fields are read. A
reading that fails leaves no store.
-/

import JsxFactory.Estree.Reader
import JsxFactory.Tree

namespace JsxFactory.Estree

open JsxFactory.Tree (place placeList)

/-- A computation that has a store and may find a defect. -/
abbrev Reader := StateT Tree (Except ReadError)

mutual

/-- Adds the node that a document stands for. -/
def store : Json → Reader NodeId
  | .null => place .hole
  | .object members =>
    match tag? members with
    | none => throw .missingType
    | some tag =>
      match Kind.of tag members with
      | .jsxElement => do
        let (name, attributes, selfClosing) ← storeOpening members
        let children ← storeItems "JSXElement" "children" members
        place (.jsxElement name attributes children selfClosing)
      | .jsxIdentifier => do
        place (.jsxIdentifier (← stringField "JSXIdentifier" "name" members))
      | .jsxMember => do
        let object ← storeChild "JSXMemberExpression" "object" members
        let property ← storeChild "JSXMemberExpression" "property" members
        place (.jsxMember object property)
      | .jsxAttribute => do
        let name ← storeChild "JSXAttribute" "name" members
        let value ← storeOptional "value" members
        place (.jsxAttribute name value)
      | .jsxSpreadAttribute => do
        place (.jsxSpreadAttribute (← storeChild "JSXSpreadAttribute" "argument" members))
      | .jsxContainer => do
        place (.jsxContainer (← storeChild "JSXExpressionContainer" "expression" members))
      | .jsxText => do
        place (.jsxText (← stringField "JSXText" "value" members))
      | .identifier => do
        place (.identifier (← stringField "Identifier" "name" members))
      | .literal => do
        place (.literal (← literalField members))
      | .property => do
        let kind ← propertyKindField members
        let key ← storeChild "Property" "key" members
        let value ← storeChild "Property" "value" members
        let method ← flagField "Property" "method" members
        let shorthand ← flagField "Property" "shorthand" members
        let computed ← flagField "Property" "computed" members
        place (.property key value kind method shorthand computed)
      | .spread => do
        place (.spread (← storeChild "SpreadElement" "argument" members))
      | .object => do
        place (.object (← storeItems "ObjectExpression" "properties" members))
      | .array => do
        place (.array (← storeItems "ArrayExpression" "elements" members))
      | .call => do
        let callee ← storeChild "CallExpression" "callee" members
        let arguments ← storeItems "CallExpression" "arguments" members
        let optional ← flagField "CallExpression" "optional" members
        place (.call callee arguments optional)
      | .member => do
        let object ← storeChild "MemberExpression" "object" members
        let property ← storeChild "MemberExpression" "property" members
        let computed ← flagField "MemberExpression" "computed" members
        let optional ← flagField "MemberExpression" "optional" members
        place (.member object property computed optional)
      | .generic => do
        place (.generic tag (← storeFields members))
  | other => throw (.notANode other.form)
termination_by structural json => json

/-- Adds the nodes of an array, from first to last. -/
def storeList : List Json → Reader (List NodeId)
  | [] => return []
  | item :: rest => return (← store item) :: (← storeList rest)

/-- Adds the node in a field that has to be one. -/
def storeChild (kind field : String) : List (String × Json) → Reader NodeId
  | [] => throw (.missingField kind field)
  | (key, value) :: rest => if key = field then store value else storeChild kind field rest

/-- Adds the node in a field, unless it is absent or `null`. -/
def storeOptional (field : String) : List (String × Json) → Reader (Option NodeId)
  | [] => return none
  | (key, value) :: rest =>
    if key = field then
      if value.isNull then return none else return some (← store value)
    else storeOptional field rest

/-- Adds the sequence in a field that has to be an array of nodes. -/
def storeItems (kind field : String) : List (String × Json) → Reader ListId
  | [] => throw (.missingField kind field)
  | (key, value) :: rest =>
    if key = field then
      match value with
      | .array items => do placeList (← storeList items)
      | _ => throw (.invalidField kind field .array)
    else storeItems kind field rest

/-- Adds the name and the attributes of the opening tag of an element, and tells
whether it closes itself. -/
def storeOpening : List (String × Json) → Reader (NodeId × ListId × Bool)
  | [] => throw (.missingField "JSXElement" "openingElement")
  | (key, value) :: rest =>
    if key = "openingElement" then
      match value with
      | .object opening => do
        let name ← storeChild "JSXOpeningElement" "name" opening
        let attributes ← storeItems "JSXOpeningElement" "attributes" opening
        let selfClosing ← flagField "JSXOpeningElement" "selfClosing" opening
        return (name, attributes, selfClosing)
      | _ => throw (.invalidField "JSXElement" "openingElement" .object)
    else storeOpening rest

/-- Adds the nodes and sequences in the fields of a generic node. -/
def storeFields : List (String × Json) → Reader (List (String × Field NodeId ListId))
  | [] => return []
  | (key, value) :: rest =>
    if key = "type" then storeFields rest
    else do
      let field ←
        if isNode value then Field.node <$> store value
        else
          match value with
          | .array items =>
            if isNodeList items then Field.list <$> (storeList items >>= placeList)
            else pure (.value value)
          | _ => pure (.value value)
      return (key, field) :: (← storeFields rest)

end

end JsxFactory.Estree

/-- Reads a tree from an ESTree document. -/
def JsxFactory.Tree.ofEstree (document : Json) : Except Estree.ReadError Tree := do
  let (root, t) ← Estree.store document empty
  return t.setRoot root
