/-
# Trees and terms

A term is stored by placing its children before it, from left to right, so that
every place of the new tree has one holder. Unfolding goes the other way: it
follows the places from a node down and puts the children back inside. Places
that hold one another in a circle have no term; as many steps down as there are
places are enough for all others.
-/

import JsxFactory.Estree.Writer
import JsxFactory.Tree

namespace JsxFactory

namespace Term

open JsxFactory.Tree (place placeList)

mutual

/-- Places a term, its children first. -/
def store : Term → StateM Tree NodeId
  | ⟨.hole⟩ => place .hole
  | ⟨.jsxElement name attributes children selfClosing⟩ => do
    let name ← store name
    let attributes ← placeList (← storeItems attributes)
    let children ← placeList (← storeItems children)
    place (.jsxElement name attributes children selfClosing)
  | ⟨.jsxIdentifier name⟩ => place (.jsxIdentifier name)
  | ⟨.jsxMember object property⟩ => do
    let object ← store object
    let property ← store property
    place (.jsxMember object property)
  | ⟨.jsxAttribute name none⟩ => do
    let name ← store name
    place (.jsxAttribute name none)
  | ⟨.jsxAttribute name (some value)⟩ => do
    let name ← store name
    let value ← store value
    place (.jsxAttribute name (some value))
  | ⟨.jsxSpreadAttribute argument⟩ => do
    let argument ← store argument
    place (.jsxSpreadAttribute argument)
  | ⟨.jsxContainer expression⟩ => do
    let expression ← store expression
    place (.jsxContainer expression)
  | ⟨.jsxText value⟩ => place (.jsxText value)
  | ⟨.identifier name⟩ => place (.identifier name)
  | ⟨.literal value⟩ => place (.literal value)
  | ⟨.property key value kind method shorthand computed⟩ => do
    let key ← store key
    let value ← store value
    place (.property key value kind method shorthand computed)
  | ⟨.spread argument⟩ => do
    let argument ← store argument
    place (.spread argument)
  | ⟨.object properties⟩ => do
    let properties ← placeList (← storeItems properties)
    place (.object properties)
  | ⟨.array elements⟩ => do
    let elements ← placeList (← storeItems elements)
    place (.array elements)
  | ⟨.call callee arguments optional⟩ => do
    let callee ← store callee
    let arguments ← placeList (← storeItems arguments)
    place (.call callee arguments optional)
  | ⟨.member object property computed optional⟩ => do
    let object ← store object
    let property ← store property
    place (.member object property computed optional)
  | ⟨.generic kind fields⟩ => do
    let fields ← storeFields fields
    place (.generic kind fields)
termination_by structural term => term

/-- Places terms one after another. -/
def storeItems : List Term → StateM Tree (List NodeId)
  | [] => pure []
  | term :: rest => do
    let item ← store term
    let items ← storeItems rest
    return item :: items

/-- Places the children in the fields of a generic node, in order. -/
def storeFields :
    List (String × Field Term (List Term)) → StateM Tree (List (String × Field NodeId ListId))
  | [] => pure []
  | (key, .node child) :: rest => do
    let child ← store child
    let fields ← storeFields rest
    return (key, .node child) :: fields
  | (key, .list children) :: rest => do
    let children ← placeList (← storeItems children)
    let fields ← storeFields rest
    return (key, .list children) :: fields
  | (key, .value json) :: rest => do
    let fields ← storeFields rest
    return (key, .value json) :: fields

end

end Term

namespace Tree

/-- The tree of a term. -/
def ofTerm (term : Term) : Tree :=
  let (root, t) := term.store empty
  t.setRoot root

/-- The term below a place, if it is reached in `fuel` steps down. -/
def unfold (t : Tree) : Nat → NodeId → Option Term
  | 0, _ => none
  | fuel + 1, id => do
    let node ← (t.node id).mapM (t.unfold fuel) fun list => (t.list list).mapM (t.unfold fuel)
    return ⟨node⟩

/-- The term below a place, unless the places below it form a circle. -/
def term? (t : Tree) (id : NodeId) : Option Term :=
  t.unfold t.nodes.size id

/-- The term of a tree, unless its places form a circle. -/
def toTerm? (t : Tree) : Option Term :=
  t.term? t.root

/-- The ESTree document of what is below a place. -/
def nodeToEstree? (t : Tree) (id : NodeId) : Option Json :=
  (t.term? id).map Term.toEstree

/-- The ESTree document of a tree. -/
def toEstree? (t : Tree) : Option Json :=
  t.nodeToEstree? t.root

end Tree

end JsxFactory
