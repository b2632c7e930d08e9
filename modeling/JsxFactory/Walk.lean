/-
# Walking a tree

A walk enters the nodes of a tree from the root down and from left to right. On
entering a node a visitor may change the tree and then says how to go on. The
children that are walked are those that the node has after it was entered, so a
replacement is walked as if it had been there from the start. Sequences are not
copied: each step looks at the sequence as it is then.

A walk of places that form a circle need not end, so it is bounded: no more
than `fuel` nodes below one another, and no more than `fuel` steps along one
sequence.
-/

import JsxFactory.Tree

namespace JsxFactory

namespace Walk

/-- How to go on after entering a node. -/
inductive Action
  /-- Walk the children of what is now in the node's place. -/
  | continue
  /-- Leave out the children. -/
  | skip
  /-- Take the node out of the sequence that holds it, or leave a hole. -/
  | remove
deriving DecidableEq, Repr, Inhabited

/-- The tree being walked and what the visitor remembers. -/
structure State (σ : Type) where
  tree : Tree
  memory : σ

/-- Why a walk ended early. -/
inductive Stop (ε : Type)
  | failed (error : ε)
  | outOfFuel
deriving DecidableEq, Repr

/-- What a visitor does on entering a node. -/
structure Visitor (σ ε : Type) where
  enter : NodeId → EStateM ε (State σ) Action

/-- Part of a walk. What was done before an early end stays done. -/
abbrev Run (σ ε : Type) := EStateM (Stop ε) (State σ)

variable {σ ε : Type}

/-- The tree as it is now. -/
def tree : EStateM ε (State σ) Tree :=
  return (← get).tree

/-- Changes the tree. -/
def change (f : Tree → Tree) : EStateM ε (State σ) Unit :=
  modify fun s => { s with tree := f s.tree }

/-- Walks along a sequence from `index` on, with `visit` for each node. A node
that is taken out makes room for the next one at the same index. -/
def visitList (visit : NodeId → Run σ ε Action) (list : ListId) : Nat → Nat → Run σ ε Unit
  | 0, _ => throw .outOfFuel
  | fuel + 1, index => do
    match ((← tree).list list)[index]? with
    | none => return ()
    | some child =>
      match ← visit child with
      | .remove =>
        change (·.removeItem list index)
        visitList visit list fuel index
      | _ => visitList visit list fuel (index + 1)

/-- Walks along the children of a node, with `visit` for each node. A node that
is removed from a single place leaves a hole there. -/
def visitEdges (visit : NodeId → Run σ ε Action) (fuel : Nat) :
    List (Edge NodeId ListId) → Run σ ε Unit
  | [] => return ()
  | .node child :: rest => do
    match ← visit child with
    | .remove => change (·.replace child .hole)
    | _ => pure ()
    visitEdges visit fuel rest
  | .list list :: rest => do
    visitList visit list fuel 0
    visitEdges visit fuel rest

/-- Enters a node and walks its children, unless the visitor says otherwise. -/
def visit (visitor : Visitor σ ε) : Nat → NodeId → Run σ ε Action
  | 0, _ => throw .outOfFuel
  | fuel + 1, id => do
    match ← (visitor.enter id).adaptExcept .failed with
    | .continue =>
      visitEdges (visit visitor fuel) fuel ((← tree).node id).edges
      return .continue
    | action => return action

/-- Walks the whole tree. A removed root leaves a hole. -/
def walk (visitor : Visitor σ ε) (fuel : Nat) : Run σ ε Unit := do
  let root := (← tree).root
  match ← visit visitor fuel root with
  | .remove => change (·.replace root .hole)
  | _ => return ()

end Walk

end JsxFactory
