/-
# Trees in a store

The nodes of a tree stand in numbered places, and so do the sequences of nodes
that a node may hold. A node holds the number of its sequence, not the sequence,
so two nodes can share one; a change of the sequence is then seen through both.
Overwriting a place changes the node for everyone who holds its number.
-/

import JsxFactory.Node

namespace JsxFactory

/-- The place of a node. -/
structure NodeId where
  index : Nat
deriving DecidableEq, Repr, Inhabited

/-- The place of a sequence of nodes. -/
structure ListId where
  index : Nat
deriving DecidableEq, Repr, Inhabited

/-- A node as it stands in a store. -/
abbrev Slot := Node NodeId ListId

/-- A store of nodes and sequences, with the root of the tree in it. -/
structure Tree where
  nodes : Array Slot
  lists : Array (List NodeId)
  root : NodeId
deriving Repr

namespace Tree

/-- The tree whose root is absent. -/
def empty : Tree :=
  ⟨#[.hole], #[], ⟨0⟩⟩

instance : Inhabited Tree := ⟨empty⟩

/-- The node at a place; absent outside the store. -/
def node (t : Tree) (id : NodeId) : Slot :=
  t.nodes.getD id.index .hole

/-- The sequence at a place; empty outside the store. -/
def list (t : Tree) (id : ListId) : List NodeId :=
  t.lists.getD id.index []

/-- Adds a node at a new place. -/
def push (t : Tree) (node : Slot) : NodeId × Tree :=
  (⟨t.nodes.size⟩, { t with nodes := t.nodes.push node })

/-- Adds a sequence at a new place. -/
def pushList (t : Tree) (items : List NodeId) : ListId × Tree :=
  (⟨t.lists.size⟩, { t with lists := t.lists.push items })

/-- Overwrites the node at a place. -/
def replace (t : Tree) (id : NodeId) (node : Slot) : Tree :=
  { t with nodes := t.nodes.setIfInBounds id.index node }

/-- Overwrites the sequence at a place. -/
def setList (t : Tree) (id : ListId) (items : List NodeId) : Tree :=
  { t with lists := t.lists.setIfInBounds id.index items }

/-- Removes one item of a sequence. -/
def removeItem (t : Tree) (id : ListId) (index : Nat) : Tree :=
  t.setList id ((t.list id).eraseIdx index)

/-- Makes a place the root. -/
def setRoot (t : Tree) (id : NodeId) : Tree :=
  { t with root := id }

/-- Adds a node, as a step of a computation that has a store. -/
def place {m : Type → Type} [Monad m] (node : Slot) : StateT Tree m NodeId :=
  modifyGet fun t => t.push node

/-- Adds a sequence, as a step of a computation that has a store. -/
def placeList {m : Type → Type} [Monad m] (items : List NodeId) : StateT Tree m ListId :=
  modifyGet fun t => t.pushList items

/-- How many items the sequences hold together. -/
def itemCount (t : Tree) : Nat :=
  t.lists.foldl (fun total items => total + items.length) 0

end Tree

namespace Node

/-- Whether two fields are the same; places are compared as places. -/
def sameField : Field NodeId ListId → Field NodeId ListId → Bool
  | .node x, .node y => x = y
  | .list x, .list y => x = y
  | .value x, .value y => x.same y
  | _, _ => false

/-- Whether two nodes are the same; places are compared as places. -/
def same : Slot → Slot → Bool
  | .hole, .hole => true
  | .jsxElement n a c s, .jsxElement n' a' c' s' => n = n' && a = a' && c = c' && s = s'
  | .jsxIdentifier n, .jsxIdentifier n' => n = n'
  | .jsxMember o p, .jsxMember o' p' => o = o' && p = p'
  | .jsxAttribute n v, .jsxAttribute n' v' => n = n' && v = v'
  | .jsxSpreadAttribute a, .jsxSpreadAttribute a' => a = a'
  | .jsxContainer e, .jsxContainer e' => e = e'
  | .jsxText v, .jsxText v' => v = v'
  | .identifier n, .identifier n' => n = n'
  | .literal v, .literal v' => v.same v'
  | .property k v t m s c, .property k' v' t' m' s' c' =>
    k = k' && v = v' && t = t' && m = m' && s = s' && c = c'
  | .spread a, .spread a' => a = a'
  | .object l, .object l' => l = l'
  | .array l, .array l' => l = l'
  | .call f a o, .call f' a' o' => f = f' && a = a' && o = o'
  | .member b n c o, .member b' n' c' o' => b = b' && n = n' && c = c' && o = o'
  | .generic k fs, .generic k' fs' =>
    k = k' && fs.length = fs'.length &&
      (fs.zip fs').all fun ((key, field), (key', field')) => key = key' && sameField field field'
  | _, _ => false

end Node

end JsxFactory
