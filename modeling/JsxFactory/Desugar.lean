/-
# Desugaring markup

One walk turns every element of a tree into a call of the factory function, in
place. The call takes the tag's name, an object of its attributes or `null`, and
an array of the children if there are any. The array holds the very sequence
that the element held: the children are walked, desugared and removed there
after the element has become a call.

Text becomes a trimmed string literal, indentation is taken out, braces give way
to the expression in them, and the remaining markup names become plain ones.
-/

import JsxFactory.Desugar.Error
import JsxFactory.Options
import JsxFactory.Text.Capital
import JsxFactory.Text.Whitespace
import JsxFactory.Walk

namespace JsxFactory

namespace Desugar

/-- What the walk counts. -/
structure Tally where
  /-- The elements that became calls. -/
  elements : Nat := 0
  /-- The texts that were taken out as indentation. -/
  removedText : Nat := 0
deriving DecidableEq, Repr, Inhabited

/-- A step of the desugaring. -/
abbrev Step := EStateM DesugarError (Walk.State Tally)

/-- Adds a node at a new place. -/
def push (node : Slot) : Step NodeId :=
  modifyGet fun s =>
    let (id, t) := s.tree.push node
    (id, { s with tree := t })

/-- Adds a sequence at a new place. -/
def pushList (items : List NodeId) : Step ListId :=
  modifyGet fun s =>
    let (id, t) := s.tree.pushList items
    (id, { s with tree := t })

/-- Overwrites the node at a place. -/
def replace (id : NodeId) (node : Slot) : Step Unit :=
  Walk.change (·.replace id node)

/-- Counts. -/
def count (f : Tally → Tally) : Step Unit :=
  modify fun s => { s with memory := f s.memory }

/-- A name as a string literal or as an identifier. -/
def spelled (quoted : Bool) (name : String) : Slot :=
  if quoted then .text name else .identifier name

/-- The first argument of the call for an element, from the node of its name.
Simple names are spelled anew; dotted names stay, and the walk turns them into
plain ones when it gets to them. -/
def tagName (options : Options) (name : NodeId) : Step NodeId := do
  match (← Walk.tree).node name with
  | .jsxIdentifier s | .identifier s =>
    push (spelled (options.quoteIntrinsic && !Text.startsCapital s) s)
  | .jsxMember .. | .member .. => return name
  | other => throw (.unsupportedName other.kind)

/-- The value of an attribute: `true` if it has none, and else the node itself,
in braces or not. -/
def attributeValue (value : Option NodeId) : Step NodeId := do
  match value with
  | none => push (.literal (.boolean true))
  | some value =>
    match (← Walk.tree).node value with
    | .literal _ | .jsxContainer _ => return value
    | other => throw (.unsupportedAttributeValue other.kind)

/-- The property or the spread for an entry of a tag. -/
def entryProperty (options : Options) (entry : NodeId) : Step NodeId := do
  match (← Walk.tree).node entry with
  | .jsxAttribute name value =>
    match (← Walk.tree).node name with
    | .jsxIdentifier s =>
      let key ← push (spelled options.quotePropNames s)
      let value ← attributeValue value
      push (.plainProperty key value)
    | other => throw (.unsupportedName other.kind)
  | .jsxSpreadAttribute argument => push (.spread argument)
  | other => throw (.unsupportedAttribute other.kind)

/-- The properties and spreads for the entries of a tag, in order. -/
def entryProperties (options : Options) : List NodeId → Step (List NodeId)
  | [] => return []
  | entry :: rest => do
    let first ← entryProperty options entry
    let others ← entryProperties options rest
    return first :: others

/-- The second argument of the call for an element: `null`, or an object with
one entry for each attribute. -/
def attributesArgument (options : Options) (list : ListId) : Step NodeId := do
  match (← Walk.tree).list list with
  | [] => push (.literal .null)
  | entries =>
    let properties ← pushList (← entryProperties options entries)
    push (.object properties)

/-- The third argument of the call for an element, if it has children: an array
that holds the sequence of the children itself. -/
def childrenArgument (children : ListId) : Step (List NodeId) := do
  match (← Walk.tree).list children with
  | [] => return []
  | _ :: _ => return [← push (.array children)]

/-- Turns an element into a call. -/
def enterElement (options : Options) (id name : NodeId) (attributes children : ListId) :
    Step Walk.Action := do
  let name ← tagName options name
  let attributes ← attributesArgument options attributes
  let children ← childrenArgument children
  let callee ← push (.identifier options.factory)
  let arguments ← pushList (name :: attributes :: children)
  replace id (.call callee arguments false)
  count fun tally => { tally with elements := tally.elements + 1 }
  return .continue

/-- The kinds of expressions that may stand for themselves in place of the
braces around them. -/
def bareKinds : List String :=
  ["MemberExpression", "BinaryExpression", "CallExpression", "ArrowFunctionExpression",
    "Identifier"]

/-- Moves the expression out of its braces. -/
def enterContainer (id expression : NodeId) : Step Walk.Action := do
  let inner := (← Walk.tree).node expression
  if inner.kind ∈ bareKinds then
    replace expression .hole
    replace id inner
    return .continue
  else throw (.unsupportedExpression inner.kind)

/-- Takes out indentation, and turns any other text into a literal. -/
def enterText (id : NodeId) (value : String) : Step Walk.Action := do
  if Text.isIndentation value then
    count fun tally => { tally with removedText := tally.removedText + 1 }
    return .remove
  else
    replace id (.text (Text.trim value))
    return .continue

/-- Desugars one node. -/
def enter (options : Options) (id : NodeId) : Step Walk.Action := do
  match (← Walk.tree).node id with
  | .jsxText value => enterText id value
  | .jsxContainer expression => enterContainer id expression
  | .jsxElement name attributes children _ => enterElement options id name attributes children
  | .jsxIdentifier name =>
    replace id (.identifier name)
    return .continue
  | .jsxMember object property =>
    replace id (.member object property false false)
    return .continue
  | .generic kind _ =>
    if kind = "JSXFragment" then throw (.unsupportedElement kind) else return .continue
  | _ => return .continue

/-- The visitor that desugars. -/
def visitor (options : Options) : Walk.Visitor Tally DesugarError :=
  ⟨enter options⟩

/-- Enough steps for any tree whose places form no circle: desugaring at most
doubles its depth and lengthens no sequence beyond three. -/
def fuel (t : Tree) : Nat :=
  4 * (t.nodes.size + t.itemCount) + 4

/-- Desugars a tree and tells how that ended. On an early end the tree is left
as far as it was desugared. -/
def run (options : Options) (t : Tree) :
    EStateM.Result (Walk.Stop DesugarError) (Walk.State Tally) Unit :=
  (Walk.walk (visitor options) (fuel t)).run ⟨t, {}⟩

end Desugar

/-- The desugared tree, or the reason why there is none. -/
def Tree.desugar (options : Options) (t : Tree) : Except (Walk.Stop DesugarError) Tree :=
  match Desugar.run options t with
  | .ok _ state => .ok state.tree
  | .error stop _ => .error stop

end JsxFactory
