/-
# Watching a walk

A watched walk is a walk of which a record is kept: which places are looked at or
overwritten, which items are taken out of which sequences, which braces are
opened, and what the tree was like each time that a node had just been entered or
taken out. The record covers walks that end early up to their end, the node at
which they fail included. Leaving the record aside, a watched walk is the walk.
-/

import JsxFactory.Desugar
import JsxFactory.Proofs.Footprint

namespace JsxFactory

namespace Walk

/-- What a record tells of. -/
inductive Event
  /-- A place is looked at or overwritten. -/
  | accesses (place : Place)
  /-- An item is taken out of a sequence. -/
  | takesOut (list : ListId) (index : Nat)
  /-- An expression is moved to the place of the braces around it. -/
  | opens (braces expression : NodeId)
  /-- A node has just been entered or taken out. -/
  | rests
deriving DecidableEq

/-- What happens, and the tree in which it does. -/
structure Moment where
  tree : Tree
  event : Event

/-- Part of a walk with the record of it. -/
def Watched (σ ε α : Type) : Type :=
  State σ → EStateM.Result ε (State σ) α × List Moment

namespace Watched

variable {σ ε ε' α β : Type}

/-- One part after another; what was recorded before an early end stays. -/
def bind (x : Watched σ ε α) (f : α → Watched σ ε β) : Watched σ ε β := fun s =>
  match x s with
  | (.ok a s₁, moments) => ((f a s₁).1, moments ++ (f a s₁).2)
  | (.error e s₁, moments) => (.error e s₁, moments)

instance : Monad (Watched σ ε) where
  pure a s := (.ok a s, [])
  bind := bind

/-- A step of which nothing is recorded. -/
def step (x : EStateM ε (State σ) α) : Watched σ ε α := fun s => (x s, [])

/-- Records what happens next. -/
def note (event : Event) : Watched σ ε Unit := fun s => (.ok () s, [⟨s.tree, event⟩])

/-- Records the tree that part of a walk leaves, at an early end too. -/
def resting (x : Watched σ ε α) : Watched σ ε α := fun s =>
  match x s with
  | (.ok a s₁, moments) => (.ok a s₁, moments ++ [⟨s₁.tree, .rests⟩])
  | (.error e s₁, moments) => (.error e s₁, moments ++ [⟨s₁.tree, .rests⟩])

/-- Wraps the reason of an early end. -/
def adaptExcept (wrap : ε → ε') (x : Watched σ ε α) : Watched σ ε' α := fun s =>
  match x s with
  | (.ok a s₁, moments) => (.ok a s₁, moments)
  | (.error e s₁, moments) => (.error (wrap e) s₁, moments)

/-! ## The walk -/

/-- Takes an item out of a sequence. -/
def takeOut (list : ListId) (index : Nat) : Watched σ ε Unit :=
  resting do
    note (.takesOut list index)
    step (change (·.removeItem list index))

/-- Leaves a hole where a node was. -/
def leaveHole (id : NodeId) : Watched σ ε Unit :=
  resting do
    note (.accesses (.node id))
    step (change (·.replace id .hole))

/-- Walks along a sequence. -/
def visitList (visit : NodeId → Watched σ (Stop ε) Action) (list : ListId) :
    Nat → Nat → Watched σ (Stop ε) Unit
  | 0, _ => step (throw .outOfFuel)
  | fuel + 1, index => do
    note (.accesses (.list list))
    match ((← step tree).list list)[index]? with
    | none => return ()
    | some child =>
      match ← visit child with
      | .remove =>
        takeOut list index
        visitList visit list fuel index
      | _ => visitList visit list fuel (index + 1)

/-- Walks along the children of a node. -/
def visitEdges (visit : NodeId → Watched σ (Stop ε) Action) (fuel : Nat) :
    List (Edge NodeId ListId) → Watched σ (Stop ε) Unit
  | [] => return ()
  | .node child :: rest => do
    match ← visit child with
    | .remove => leaveHole child
    | _ => pure ()
    visitEdges visit fuel rest
  | .list list :: rest => do
    visitList visit list fuel 0
    visitEdges visit fuel rest

/-- Enters a node and walks its children. -/
def visit (enter : NodeId → Watched σ ε Action) : Nat → NodeId → Watched σ (Stop ε) Action
  | 0, _ => step (throw .outOfFuel)
  | fuel + 1, id => do
    match ← (resting (enter id)).adaptExcept .failed with
    | .continue =>
      note (.accesses (.node id))
      visitEdges (visit enter fuel) fuel ((← step tree).node id).edges
      return .continue
    | action => return action

/-- Walks the whole tree. -/
def walk (enter : NodeId → Watched σ ε Action) (fuel : Nat) : Watched σ (Stop ε) Unit := do
  let root := (← step tree).root
  match ← visit enter fuel root with
  | .remove => leaveHole root
  | _ => return ()

/-! ## Leaving the record aside -/

/-- Whether one computation is another with a record of it. -/
def Watches (x : Watched σ ε α) (y : EStateM ε (State σ) α) : Prop :=
  ∀ s, (x s).1 = y s

namespace Watches

variable {x : Watched σ ε α} {y : EStateM ε (State σ) α} {f : α → Watched σ ε β}
  {g : α → EStateM ε (State σ) β}

theorem bind (first : Watches x y) (next : ∀ a, Watches (f a) (g a)) :
    Watches (x >>= f) (y >>= g) := by
  intro s
  change (Watched.bind x f s).1 = EStateM.bind y g s
  rw [Watched.bind, EStateM.bind, ← first s]
  rcases x s with ⟨_ | _, moments⟩
  · exact next _ _
  · rfl

theorem pure (a : α) : Watches (Pure.pure a : Watched σ ε α) (Pure.pure a) := fun _ => rfl

theorem step (y : EStateM ε (State σ) α) : Watches (step y) y := fun _ => rfl

/-- What is recorded makes no difference. -/
theorem note {event : Event} {z : EStateM ε (State σ) β} {w : Watched σ ε β}
    (rest : Watches w z) : Watches (Watched.note event >>= fun _ => w) z :=
  fun s => rest s

theorem resting (watches : Watches x y) : Watches (resting x) y := by
  intro s
  rw [Watched.resting, ← watches s]
  rcases x s with ⟨_ | _, moments⟩ <;> rfl

theorem adaptExcept (watches : Watches x y) (wrap : ε → ε') :
    Watches (x.adaptExcept wrap) (y.adaptExcept wrap) := by
  intro s
  rw [Watched.adaptExcept, EStateM.adaptExcept, ← watches s]
  rcases x s with ⟨_ | _, moments⟩ <;> rfl

end Watches

section Walk

variable {visit : NodeId → Run σ ε Action} {watched : NodeId → Watched σ (Stop ε) Action}

theorem watches_takeOut (list : ListId) (index : Nat) :
    Watches (takeOut list index : Watched σ ε Unit) (change (·.removeItem list index)) :=
  .resting (.note (.step _))

theorem watches_leaveHole (id : NodeId) :
    Watches (leaveHole id : Watched σ ε Unit) (change (·.replace id .hole)) :=
  .resting (.note (.step _))

theorem watches_visitList (watches : ∀ id, Watches (watched id) (visit id)) (list : ListId)
    (fuel index : Nat) :
    Watches (visitList watched list fuel index) (Walk.visitList visit list fuel index) := by
  induction fuel generalizing index with
  | zero => exact .step _
  | succ fuel ih =>
    rw [visitList, Walk.visitList]
    refine .note (.bind (.step _) fun t => ?_)
    cases (t.list list)[index]? with
    | none => exact .pure ()
    | some child =>
      refine .bind (watches child) fun action => ?_
      cases action with
      | remove => exact .bind (watches_takeOut list index) fun _ => ih index
      | _ => exact ih (index + 1)

theorem watches_visitEdges (watches : ∀ id, Watches (watched id) (visit id)) (fuel : Nat)
    (places : List Place) :
    Watches (visitEdges watched fuel places) (Walk.visitEdges visit fuel places) := by
  induction places with
  | nil => exact .pure ()
  | cons place places ih =>
    cases place with
    | node child =>
      refine .bind (watches child) fun action => ?_
      cases action with
      | remove => exact .bind (watches_leaveHole child) fun _ => ih
      | _ => exact .bind (.pure ()) fun _ => ih
    | list list => exact .bind (watches_visitList watches list fuel 0) fun _ => ih

variable {enter : NodeId → Watched σ ε Action} {visitor : Visitor σ ε}

theorem watches_visit (watches : ∀ id, Watches (enter id) (visitor.enter id)) (fuel : Nat)
    (id : NodeId) : Watches (Watched.visit enter fuel id) (Walk.visit visitor fuel id) := by
  induction fuel generalizing id with
  | zero => exact .step _
  | succ fuel ih =>
    rw [Watched.visit, Walk.visit]
    refine .bind ((watches id).resting.adaptExcept Stop.failed) fun action => ?_
    cases action with
    | «continue» =>
      refine .note (.bind (.step _) fun t => ?_)
      exact .bind (watches_visitEdges ih fuel _) fun _ => .pure _
    | _ => exact .pure _

theorem watches_walk (watches : ∀ id, Watches (enter id) (visitor.enter id)) (fuel : Nat) :
    Watches (walk enter fuel) (Walk.walk visitor fuel) := by
  refine .bind (.step _) fun t => .bind (watches_visit watches fuel t.root) fun action => ?_
  cases action with
  | remove => exact watches_leaveHole t.root
  | _ => exact .pure ()

end Walk

end Watched

end Walk

/-! ## Desugaring -/

namespace Desugar

namespace Watched

open Walk.Watched (step note resting Watches)

/-- A step of the desugaring, with the record of it. -/
abbrev Step := Walk.Watched Tally DesugarError

/-- Overwrites the node at a place. -/
def replace (id : NodeId) (node : Slot) : Step Unit := do
  note (.accesses (.node id))
  step (Desugar.replace id node)

/-- The first argument of the call for an element. -/
def tagName (options : Options) (name : NodeId) : Step NodeId := do
  note (.accesses (.node name))
  match (← step Walk.tree).node name with
  | .jsxIdentifier s | .identifier s =>
    step (push (spelled (options.quoteIntrinsic && !Text.startsCapital s) s))
  | .jsxMember .. | .member .. => return name
  | other => step (throw (.unsupportedName other.kind))

/-- The value of an attribute. -/
def attributeValue (value : Option NodeId) : Step NodeId := do
  match value with
  | none => step (push (.literal (.boolean true)))
  | some value =>
    note (.accesses (.node value))
    match (← step Walk.tree).node value with
    | .literal _ | .jsxContainer _ => return value
    | other => step (throw (.unsupportedAttributeValue other.kind))

/-- The property or the spread for an entry of a tag. -/
def entryProperty (options : Options) (entry : NodeId) : Step NodeId := do
  note (.accesses (.node entry))
  match (← step Walk.tree).node entry with
  | .jsxAttribute name value =>
    note (.accesses (.node name))
    match (← step Walk.tree).node name with
    | .jsxIdentifier s =>
      let key ← step (push (spelled options.quotePropNames s))
      let value ← attributeValue value
      step (push (.plainProperty key value))
    | other => step (throw (.unsupportedName other.kind))
  | .jsxSpreadAttribute argument => step (push (.spread argument))
  | other => step (throw (.unsupportedAttribute other.kind))

/-- The properties and spreads for the entries of a tag. -/
def entryProperties (options : Options) : List NodeId → Step (List NodeId)
  | [] => return []
  | entry :: rest => do
    let first ← entryProperty options entry
    let others ← entryProperties options rest
    return first :: others

/-- The second argument of the call for an element. -/
def attributesArgument (options : Options) (list : ListId) : Step NodeId := do
  note (.accesses (.list list))
  match (← step Walk.tree).list list with
  | [] => step (push (.literal .null))
  | entries =>
    let properties ← step (pushList (← entryProperties options entries))
    step (push (.object properties))

/-- The third argument of the call for an element. -/
def childrenArgument (children : ListId) : Step (List NodeId) := do
  note (.accesses (.list children))
  match (← step Walk.tree).list children with
  | [] => return []
  | _ :: _ => return [← step (push (.array children))]

/-- Turns an element into a call. -/
def enterElement (options : Options) (id name : NodeId) (attributes children : ListId) :
    Step Walk.Action := do
  let name ← tagName options name
  let attributes ← attributesArgument options attributes
  let children ← childrenArgument children
  let callee ← step (push (.identifier options.factory))
  let arguments ← step (pushList (name :: attributes :: children))
  replace id (.call callee arguments false)
  step (count fun tally => { tally with elements := tally.elements + 1 })
  return .continue

/-- Moves the expression out of its braces. -/
def enterContainer (id expression : NodeId) : Step Walk.Action := do
  note (.accesses (.node expression))
  let inner := (← step Walk.tree).node expression
  if inner.kind ∈ bareKinds then
    note (.opens id expression)
    replace expression .hole
    replace id inner
    return .continue
  else step (throw (.unsupportedExpression inner.kind))

/-- Takes out indentation, and turns any other text into a literal. -/
def enterText (id : NodeId) (value : String) : Step Walk.Action := do
  if Text.isIndentation value then
    step (count fun tally => { tally with removedText := tally.removedText + 1 })
    return .remove
  else
    replace id (.text (Text.trim value))
    return .continue

/-- Desugars one node. -/
def enter (options : Options) (id : NodeId) : Step Walk.Action := do
  note (.accesses (.node id))
  match (← step Walk.tree).node id with
  | .jsxText value => enterText id value
  | .jsxContainer expression => enterContainer id expression
  | .jsxElement name attributes children _ => enterElement options id name attributes children
  | .jsxIdentifier name =>
    replace id (.identifier name)
    return .continue
  | .jsxMember object property =>
    replace id (.member object property false false)
    return .continue
  | .generic kind _ =>
    if kind = "JSXFragment" then step (throw (.unsupportedElement kind)) else return .continue
  | _ => return .continue

/-- Desugars a tree, and tells how that ended and what happened on the way. -/
def run (options : Options) (t : Tree) :
    EStateM.Result (Walk.Stop DesugarError) (Walk.State Tally) Unit × List Walk.Moment :=
  Walk.Watched.walk (enter options) (fuel t) ⟨t, {}⟩

theorem watches_replace (id : NodeId) (node : Slot) :
    Watches (replace id node) (Desugar.replace id node) :=
  .note (.step _)

theorem watches_tagName (options : Options) (name : NodeId) :
    Watches (tagName options name) (Desugar.tagName options name) := by
  refine .note (.bind (.step _) fun t => ?_)
  cases t.node name with
  | jsxMember | member => exact .pure name
  | _ => exact .step _

theorem watches_attributeValue (value : Option NodeId) :
    Watches (attributeValue value) (Desugar.attributeValue value) := by
  cases value with
  | none => exact .step _
  | some value =>
    refine .note (.bind (.step _) fun t => ?_)
    cases t.node value with
    | literal | jsxContainer => exact .pure value
    | _ => exact .step _

theorem watches_entryProperty (options : Options) (entry : NodeId) :
    Watches (entryProperty options entry) (Desugar.entryProperty options entry) := by
  refine .note (.bind (.step _) fun t => ?_)
  cases t.node entry with
  | jsxAttribute name value =>
    refine .note (.bind (.step _) fun t => ?_)
    cases t.node name with
    | jsxIdentifier =>
      exact .bind (.step _) fun _ => .bind (watches_attributeValue value) fun _ => .step _
    | _ => exact .step _
  | _ => exact .step _

theorem watches_entryProperties (options : Options) (entries : List NodeId) :
    Watches (entryProperties options entries) (Desugar.entryProperties options entries) := by
  induction entries with
  | nil => exact .pure []
  | cons entry rest ih =>
    exact .bind (watches_entryProperty options entry) fun _ => .bind ih fun _ => .pure _

theorem watches_attributesArgument (options : Options) (list : ListId) :
    Watches (attributesArgument options list) (Desugar.attributesArgument options list) := by
  refine .note (.bind (.step _) fun t => ?_)
  cases t.list list with
  | nil => exact .step _
  | cons =>
    exact .bind (watches_entryProperties options _) fun _ => .bind (.step _) fun _ => .step _

theorem watches_childrenArgument (children : ListId) :
    Watches (childrenArgument children) (Desugar.childrenArgument children) := by
  refine .note (.bind (.step _) fun t => ?_)
  cases t.list children with
  | nil => exact .pure []
  | cons => exact .bind (.step _) fun _ => .pure _

theorem watches_enterElement (options : Options) (id name : NodeId)
    (attributes children : ListId) :
    Watches (enterElement options id name attributes children)
      (Desugar.enterElement options id name attributes children) :=
  .bind (watches_tagName options name) fun _ =>
    .bind (watches_attributesArgument options attributes) fun _ =>
      .bind (watches_childrenArgument children) fun _ =>
        .bind (.step _) fun _ => .bind (.step _) fun _ =>
          .bind (watches_replace id _) fun _ => .bind (.step _) fun _ => .pure _

theorem watches_enterContainer (id expression : NodeId) :
    Watches (enterContainer id expression) (Desugar.enterContainer id expression) := by
  refine .note (.bind (.step _) fun t => ?_)
  by_cases bare : (t.node expression).kind ∈ bareKinds
  · rw [if_pos bare, if_pos bare]
    exact .note (.bind (watches_replace expression _) fun _ =>
      .bind (watches_replace id _) fun _ => .pure _)
  · rw [if_neg bare, if_neg bare]
    exact .step _

theorem watches_enterText (id : NodeId) (value : String) :
    Watches (enterText id value) (Desugar.enterText id value) := by
  rw [enterText, Desugar.enterText]
  split
  · exact .bind (.step _) fun _ => .pure _
  · exact .bind (watches_replace id _) fun _ => .pure _

theorem watches_enter (options : Options) (id : NodeId) :
    Watches (enter options id) ((visitor options).enter id) := by
  refine .note (.bind (.step _) fun t => ?_)
  cases t.node id with
  | jsxText value => exact watches_enterText id value
  | jsxContainer expression => exact watches_enterContainer id expression
  | jsxElement name attributes children =>
    exact watches_enterElement options id name attributes children
  | jsxIdentifier | jsxMember => exact .bind (watches_replace id _) fun _ => .pure _
  | generic kind =>
    by_cases fragment : kind = "JSXFragment"
    · simp only [if_pos fragment]
      exact .step _
    · simp only [if_neg fragment]
      exact .pure _
  | _ => exact .pure _

/-- Leaving the record aside, a watched run is the run. -/
theorem run_fst (options : Options) (t : Tree) :
    (run options t).1 = Desugar.run options t :=
  Walk.Watched.watches_walk (watches_enter options) (fuel t) ⟨t, {}⟩

end Watched

end Desugar

end JsxFactory
