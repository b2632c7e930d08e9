/-
# Entering a node in a store

Entering the node at a place of an owned tree builds there what entering the term
at that place gives, out of the footprint of the term and new places, or fails
with the same problem. The element is the case with something to it: the array of
the children takes over the very sequence that the element held, and what was
not taken over, such as the node of a simple name, is left behind unheld.
-/

import JsxFactory.Proofs.Building
import JsxFactory.Proofs.Desugaring

namespace JsxFactory

/-! ## Two computations in lockstep -/

/-- A computation on a state and one without end alike: both with results that
are related, or both with the same problem. -/
inductive Lockstep {ε ε' σ α β : Type} (wrap : ε → ε') (post : α → σ → β → Prop) :
    EStateM.Result ε' σ α → Except ε β → Prop
  | ok {a : α} {s : σ} {b : β} : post a s b → Lockstep wrap post (.ok a s) (.ok b)
  | error {problem : ε} {s : σ} : Lockstep wrap post (.error (wrap problem) s) (.error problem)

namespace Lockstep

variable {ε ε' ε'' σ α β γ δ : Type} {wrap : ε → ε'} {mid : α → σ → β → Prop}
  {post : γ → σ → δ → Prop}

/-- Lockstep goes on if it goes on from all results that are related. -/
theorem bind {x : EStateM ε' σ α} {f : α → EStateM ε' σ γ} {y : Except ε β}
    {g : β → Except ε δ} {s : σ} (first : Lockstep wrap mid (x s) y)
    (next : ∀ a s₁ b, mid a s₁ b → Lockstep wrap post (f a s₁) (g b)) :
    Lockstep wrap post ((x >>= f) s) (y >>= g) := by
  change Lockstep wrap post (EStateM.bind x f s) (y >>= g)
  rw [EStateM.bind]
  generalize x s = result at first
  cases first with
  | ok related => exact next _ _ _ related
  | error => exact error

/-- The first computation may add what cannot fail. -/
theorem andThen {x : EStateM ε' σ α} {f : α → EStateM ε' σ γ} {y : Except ε β} {s : σ}
    {last : γ → σ → β → Prop} (first : Lockstep wrap mid (x s) y)
    (next : ∀ a s₁ b, mid a s₁ b → ∃ c s₂, f a s₁ = .ok c s₂ ∧ last c s₂ b) :
    Lockstep wrap last ((x >>= f) s) y := by
  change Lockstep wrap last (EStateM.bind x f s) y
  rw [EStateM.bind]
  generalize x s = result at first
  cases first with
  | ok related =>
    obtain ⟨c, s₂, run, related'⟩ := next _ _ _ related
    simp only [run]
    exact ok related'
  | error => exact error

/-- The second computation may go on to return something. -/
theorem thenReturn {x : EStateM.Result ε' σ α} {y : Except ε β} {g : β → δ}
    {last : α → σ → δ → Prop} (first : Lockstep wrap mid x y)
    (next : ∀ a s b, mid a s b → last a s (g b)) :
    Lockstep wrap last x (y >>= fun b => pure (g b)) := by
  cases first with
  | ok related => exact ok (next _ _ _ related)
  | error => exact error

/-- Results that are related are those of the second computation. -/
theorem remember {x : EStateM.Result ε' σ α} {y : Except ε β} (lockstep : Lockstep wrap mid x y) :
    Lockstep wrap (fun a s b => y = pure b ∧ mid a s b) x y := by
  cases lockstep with
  | ok related => exact ok ⟨rfl, related⟩
  | error => exact error

theorem mono {x : EStateM.Result ε' σ α} {y : Except ε β} {weaker : α → σ → β → Prop}
    (lockstep : Lockstep wrap mid x y) (imp : ∀ a s b, mid a s b → weaker a s b) :
    Lockstep wrap weaker x y := by
  cases lockstep with
  | ok related => exact ok (imp _ _ _ related)
  | error => exact error

/-- The problems of both may be wrapped. -/
theorem adaptExcept {x : EStateM ε σ α} {y : Except ε β} {s : σ} (wrap : ε → ε')
    (lockstep : Lockstep (fun problem => problem) mid (x s) y) :
    Lockstep wrap mid (x.adaptExcept wrap s) y := by
  change Lockstep wrap mid (match x s with | .error e s => .error (wrap e) s | .ok a s => .ok a s) y
  generalize x s = result at lockstep
  cases lockstep with
  | ok related => exact ok related
  | error => exact error

end Lockstep

namespace Desugar

open Edge (Alike)
open JsxFactory.Tree (Builds Owns)

variable {options : Options} {t : Tree} {tally : Tally} {footprint : List Place} {id : NodeId}
  {term : Term} {α : Type}

/-! ## Steps that cannot fail -/

theorem tree_bind {ε σ : Type} {memory : σ} (f : Tree → EStateM ε (Walk.State σ) α) :
    (Walk.tree >>= f) ⟨t, memory⟩ = f t ⟨t, memory⟩ := rfl

theorem push_bind (slot : Slot) (f : NodeId → Step α) :
    (push slot >>= f) ⟨t, tally⟩ = f (t.push slot).1 ⟨(t.push slot).2, tally⟩ := rfl

/-! ## The arguments of a call -/

theorem builds_spelled (t : Tree) (footprint : List Place) (quoted : Bool) (name : String) :
    t.Builds (t.push (spelled quoted name)).2 footprint
      [.node (t.push (spelled quoted name)).1] [.node (Term.spelled quoted name)] := by
  cases quoted <;> exact (Builds.leaf t rfl).mono (List.nil_subset _)

theorem tagName_lockstep (owns : t.Owns [.node id] [.node term] footprint) :
    Lockstep (fun problem => problem)
      (fun tag s _ => t.Builds s.tree footprint [.node tag]
        [.node (Term.tagArgument options term term)])
      (tagName options id ⟨t, tally⟩) (Term.checkTag term) := by
  obtain ⟨inner, below, same, rfl, _, _, ownsBelow⟩ := Owns.node_iff.mp owns
  have alike := ownsBelow.represents.alike
  obtain rfl := Edge.node.inj same
  rw [tagName, tree_bind, Term.checkTag_fill alike]
  cases slot : t.node id with
  | jsxIdentifier name | identifier name =>
    -- A new node is pushed, and the old one is no longer on the footprint.
    rw [slot] at alike
    cases alike
    exact .ok (builds_spelled t _ _ name)
  | jsxMember | member =>
    rw [slot] at alike owns
    repeat cases ‹Alike _ _›
    exact .ok (.of_owns owns)
  | jsxAttribute _ value => cases value <;> exact .error
  | _ => exact .error

theorem attributeValue_lockstep {value : Option NodeId} {inner : Option Term}
    (owns : t.Owns (value.toList.map .node) (inner.toList.map .node) footprint) :
    Lockstep (fun problem => problem)
      (fun v s _ => t.Builds s.tree footprint [.node v] [.node (inner.getD Term.trueValue)])
      (attributeValue value ⟨t, tally⟩) (Term.checkValue inner) := by
  have alikeOuter := owns.represents.alike
  cases value with
  | none =>
    cases inner with
    | none => exact .ok ((Builds.leaf t rfl).mono (List.nil_subset _))
    | some => cases alikeOuter
  | some id =>
    cases inner with
    | none => cases alikeOuter
    | some term =>
      obtain ⟨parts, below, same, rfl, _, _, ownsBelow⟩ := Owns.node_iff.mp owns
      have alike := ownsBelow.represents.alike
      obtain rfl := Edge.node.inj same
      rw [attributeValue, tree_bind, Term.checkValue_fill alike]
      cases slot : t.node id with
      | literal | jsxContainer =>
        rw [slot] at alike owns
        repeat cases ‹Alike _ _›
        exact .ok (.of_owns owns)
      | jsxAttribute _ value => cases value <;> exact .error
      | _ => exact .error

/-- The key of a property is new, and the value of the attribute is taken over. -/
theorem attribute_lockstep {key : NodeId} {value : Option NodeId} {keyTerm : Term}
    (valueTerm : Option Term) (slot : t.node id = .jsxAttribute key value)
    (owns : t.Owns (.node key :: value.toList.map .node)
      (.node keyTerm :: valueTerm.toList.map .node) footprint) :
    Lockstep (fun problem => problem)
      (fun property s _ => t.Builds s.tree footprint [.node property]
        [.node (Term.entryProperty options ⟨.jsxAttribute keyTerm valueTerm⟩)])
      (entryProperty options id ⟨t, tally⟩)
      (Term.checkEntry ⟨.jsxAttribute keyTerm valueTerm⟩) := by
  obtain ⟨_, _, first, rest, same, rfl, ownsKey, ownsValue, disjoint⟩ := owns.uncons
  obtain ⟨rfl, rfl⟩ := List.cons.inj same
  obtain ⟨inner, below, same, rfl, _, _, ownsBelow⟩ := Owns.node_iff.mp ownsKey
  have alike := ownsBelow.represents.alike
  obtain rfl := Edge.node.inj same
  rw [entryProperty, tree_bind, Term.checkEntry, Term.checkKey_fill alike]
  simp only [slot]
  rw [tree_bind]
  cases keySlot : t.node key with
  | jsxIdentifier name =>
    rw [keySlot] at alike
    cases alike
    -- The node of the key stays behind; the property gets one of its own.
    have built := builds_spelled t (.node key :: below) options.quotePropNames name
    have ownsValue₁ := built.frame ownsValue disjoint
    change Lockstep _ _ ((push _ >>= _) ⟨t, tally⟩) (Term.checkValue valueTerm)
    rw [push_bind]
    refine Lockstep.andThen (attributeValue_lockstep ownsValue₁) fun v s _ builtValue => ?_
    have both : t.Builds s.tree _ (Node.plainProperty _ v : Slot).edges _ :=
      built.cons builtValue disjoint ownsValue.inside
    exact ⟨_, _, rfl, both.push⟩
  | jsxAttribute _ value => cases value <;> exact .error
  | _ => exact .error

theorem entryProperty_lockstep (owns : t.Owns [.node id] [.node term] footprint) :
    Lockstep (fun problem => problem)
      (fun property s _ => t.Builds s.tree footprint [.node property]
        [.node (Term.entryProperty options term)])
      (entryProperty options id ⟨t, tally⟩) (Term.checkEntry term) := by
  obtain ⟨inner, below, same, rfl, _, _, ownsBelow⟩ := Owns.node_iff.mp owns
  have alike := ownsBelow.represents.alike
  obtain rfl := Edge.node.inj same
  cases slot : t.node id with
  | jsxSpreadAttribute argument =>
    rw [slot] at alike ownsBelow
    repeat cases ‹Alike _ _›
    have held : t.Builds t below (Node.spread argument : Slot).edges _ := .of_owns ownsBelow
    rw [entryProperty, tree_bind, slot]
    exact .ok (held.push.mono (List.subset_cons_self ..))
  | jsxAttribute key value =>
    rw [slot] at alike ownsBelow
    cases value <;> repeat cases ‹Alike _ _›
    · exact (attribute_lockstep none slot ownsBelow).mono
        fun _ _ _ builds => builds.mono (List.subset_cons_self ..)
    · exact (attribute_lockstep (some _) slot ownsBelow).mono
        fun _ _ _ builds => builds.mono (List.subset_cons_self ..)
  | generic =>
    rw [entryProperty, tree_bind, slot]
    exact .error
  | _ =>
    rw [slot] at alike
    simp only [Node.edges] at alike
    repeat cases ‹Alike _ _›
    rw [entryProperty, tree_bind, slot]
    exact .error

theorem entryProperties_lockstep {ids : List NodeId} {entries : List Term}
    (owns : t.Owns (ids.map .node) (entries.map .node) footprint) :
    Lockstep (fun problem => problem)
      (fun properties s _ => t.Builds s.tree footprint (properties.map .node)
        ((entries.map (Term.entryProperty options)).map .node))
      (entryProperties options ids ⟨t, tally⟩) (entries.forM Term.checkEntry) := by
  induction ids generalizing t tally entries footprint with
  | nil =>
    cases entries with
    | nil => exact .ok ((Builds.nil t).mono (List.nil_subset _))
    | cons => cases owns.represents
  | cons id ids ih =>
    cases entries with
    | nil => cases owns.represents
    | cons entry entries =>
      obtain ⟨_, _, first, rest, same, rfl, ownsEntry, ownsRest, disjoint⟩ := owns.uncons
      obtain ⟨rfl, rfl⟩ := List.cons.inj same
      refine Lockstep.bind (entryProperty_lockstep ownsEntry) fun property s _ built => ?_
      have ownsRest₁ := built.frame ownsRest disjoint
      refine Lockstep.andThen (ih ownsRest₁) fun properties s₁ _ builtRest => ?_
      exact ⟨_, _, rfl, built.cons builtRest disjoint ownsRest.inside⟩

theorem attributesArgument_lockstep {list : ListId} {entries : List Term}
    (owns : t.Owns [.list list] [.list entries] footprint) :
    Lockstep (fun problem => problem)
      (fun attributes s _ => t.Builds s.tree footprint [.node attributes]
        [.node (Term.attributesArgument (entries.map (Term.entryProperty options)))])
      (attributesArgument options list ⟨t, tally⟩) (entries.forM Term.checkEntry) := by
  obtain ⟨_, below, same, rfl, _, _, ownsBelow⟩ := Owns.list_iff.mp owns
  obtain rfl := Edge.list.inj same
  rw [attributesArgument, tree_bind]
  cases ids : t.list list with
  | nil =>
    rw [ids] at ownsBelow
    cases entries with
    | nil => exact .ok ((Builds.leaf t rfl).mono (List.nil_subset _))
    | cons => cases ownsBelow.represents
  | cons id rest =>
    rw [ids] at ownsBelow
    cases entries with
    | nil => cases ownsBelow.represents
    | cons entry entries =>
      refine Lockstep.andThen (entryProperties_lockstep ownsBelow) fun properties s _ built => ?_
      have object : t.Builds _ _ (Node.object (s.tree.pushList properties).1 : Slot).edges _ :=
        built.pushList
      exact ⟨_, _, rfl, object.push.mono (List.subset_cons_self ..)⟩

/-- The array takes over the sequence of the children. -/
theorem childrenArgument_ok {list : ListId} {children : List Term}
    (owns : t.Owns [.list list] [.list children] footprint) :
    ∃ elements t₁, childrenArgument list ⟨t, tally⟩ = .ok elements ⟨t₁, tally⟩ ∧
      t.Builds t₁ footprint (elements.map .node)
        ((Term.childrenArgument children children).map .node) := by
  obtain ⟨_, below, same, rfl, _, _, ownsBelow⟩ := Owns.list_iff.mp owns
  obtain rfl := Edge.list.inj same
  rw [childrenArgument, tree_bind]
  cases ids : t.list list with
  | nil =>
    rw [ids] at ownsBelow
    cases children with
    | nil => exact ⟨[], t, rfl, (Builds.nil t).mono (List.nil_subset _)⟩
    | cons => cases ownsBelow.represents
  | cons id rest =>
    rw [ids] at ownsBelow
    cases children with
    | nil => cases ownsBelow.represents
    | cons child children =>
      -- The element and the array both hold the sequence until the element is overwritten, but
      -- only the array is on the new footprint.
      have array : t.Builds t _ (Node.array list : Slot).edges _ := .of_owns owns
      exact ⟨_, _, rfl, array.push⟩

/-! ## Nodes -/

/-- A call on top of arguments that stand already. -/
theorem builds_call {t₁ : Tree} {first second : NodeId} {others : List NodeId}
    {tag attributes : Term} {elements : List Term} (options : Options)
    (inside : t.Contains (.node id)) (outside : .node id ∉ footprint)
    (built : t.Builds t₁ footprint (.node first :: .node second :: others.map .node)
      (.node tag :: .node attributes :: elements.map .node)) :
    let callee := t₁.push (.identifier options.factory)
    let list := callee.2.pushList (first :: second :: others)
    t.Builds (list.2.replace id (.call callee.1 list.1 false)) (.node id :: footprint) [.node id]
      [.node ⟨Term.factoryCall options tag attributes elements⟩] := by
  intro callee list
  -- The callee and the sequence of the arguments are new, next to arguments that stay put.
  have both : t.Builds list.2 footprint (Node.call callee.1 list.1 false : Slot).edges
      [.node (Term.identifier options.factory), .list (tag :: attributes :: elements)] := by
    refine built.trans fun middle owns => ?_
    have builtCallee : t₁.Builds callee.2 [] [.node callee.1]
        [.node (Term.identifier options.factory)] := Builds.leaf t₁ rfl
    have owns₁ := builtCallee.frame owns (List.disjoint_nil_left _)
    have builtList : callee.2.Builds list.2 middle [.list list.1]
        [.list (tag :: attributes :: elements)] := Builds.pushList (.of_owns owns₁)
    exact builtCallee.cons builtList (List.disjoint_nil_left _) owns.inside
  exact both.replace inside outside

/-- What is left of a term at a place when its node was entered or visited:
indentation is still there for the walk to take out, and anything else has become
what it should. -/
def Leaves (t : Tree) (footprint : List Place) (id : NodeId) (term : Term) (action : Walk.Action)
    (s : Walk.State Tally) (result : Term) : Prop :=
  if term.isIndentation then action = .remove ∧ s.tree = t ∧ result = .hole
  else action = .continue ∧ t.Builds s.tree footprint [.node id] [.node result]

theorem run_bind {ε σ β : Type} {x : EStateM ε σ β} {f : β → EStateM ε σ α} {s s₁ : σ} {b : β}
    (run : x s = .ok b s₁) : (x >>= f) s = f b s₁ := by
  change EStateM.bind x f s = f b s₁
  rw [EStateM.bind, run]

theorem enterElement_lockstep {name : NodeId} {attributes children : ListId} {nameTerm : Term}
    {entries childTerms : List Term} (selfClosing : Bool) (inside : t.Contains (.node id))
    (outside : .node id ∉ footprint)
    (owns : t.Owns [.node name, .list attributes, .list children]
      [.node nameTerm, .list entries, .list childTerms] footprint) :
    Lockstep (fun problem => problem)
      (fun action s node => Leaves t (.node id :: footprint) id
        ⟨.jsxElement nameTerm entries childTerms selfClosing⟩ action s ⟨node⟩)
      (enterElement options id name attributes children ⟨t, tally⟩)
      (Term.enter options ⟨.jsxElement nameTerm entries childTerms selfClosing⟩) := by
  obtain ⟨_, _, first, _, same, rfl, ownsName, owns, disjoint⟩ := owns.uncons
  obtain ⟨rfl, rfl⟩ := List.cons.inj same
  obtain ⟨_, _, second, third, same, rfl, ownsEntries, ownsChildren, disjoint'⟩ := owns.uncons
  obtain ⟨rfl, rfl⟩ := List.cons.inj same
  obtain ⟨apart, apart'⟩ := List.disjoint_append_right.mp disjoint
  -- The name, the entries and the children lie apart, so each step leaves alone what the
  -- later ones work on.
  refine Lockstep.bind (tagName_lockstep ownsName) fun tag s₁ _ builtTag => ?_
  have ownsEntries₁ := builtTag.frame ownsEntries apart
  refine Lockstep.bind (attributesArgument_lockstep ownsEntries₁) fun object s₂ _ builtObject => ?_
  have ownsChildren₁ := builtTag.frame ownsChildren apart'
  have ownsChildren₂ := builtObject.frame ownsChildren₁ disjoint'
  obtain ⟨elements, t₃, run, builtElements⟩ := childrenArgument_ok ownsChildren₂
  rw [run_bind run]
  have rest := builtObject.cons builtElements disjoint' ownsChildren₁.inside
  have arguments := builtTag.cons rest disjoint owns.inside
  exact .ok ⟨rfl, builds_call options inside outside arguments⟩

/-- The expression moves up to the place of its braces, and nothing holds the
hole that it leaves. -/
theorem enterContainer_lockstep {expression : NodeId} {inner : Term}
    (inside : t.Contains (.node id)) (outside : .node id ∉ footprint)
    (owns : t.Owns [.node expression] [.node inner] footprint) :
    Lockstep (fun problem => problem)
      (fun action s node =>
        Leaves t (.node id :: footprint) id ⟨.jsxContainer inner⟩ action s ⟨node⟩)
      (enterContainer id expression ⟨t, tally⟩) (Term.enter options ⟨.jsxContainer inner⟩) := by
  obtain ⟨parts, below, same, rfl, contains, unheld, ownsBelow⟩ := Owns.node_iff.mp owns
  obtain rfl := Edge.node.inj same
  have kind : Term.kind ⟨(t.node expression).fill parts⟩ = (t.node expression).kind :=
    Node.kind_fill ownsBelow.represents.alike
  have kinds : bareKinds = Term.expressionKinds := rfl
  rw [enterContainer, tree_bind, kinds, Term.enter, kind]
  by_cases bare : (t.node expression).kind ∈ Term.expressionKinds
  · rw [if_pos bare, if_pos bare]
    -- The hole is built beside the children of the expression and then dropped.
    have hole : t.Builds (t.replace expression .hole) [.node expression] [.node expression] _ :=
      Builds.replace (Builds.nil t) contains List.not_mem_nil
    have apart : List.Disjoint [.node expression] below := List.singleton_disjoint.mpr unheld
    have moved := hole.cons (.of_owns (hole.frame ownsBelow apart)) apart ownsBelow.inside
    exact .ok ⟨rfl, moved.drop.replace inside outside⟩
  · rw [if_neg bare, if_neg bare]
    exact .error

theorem enterText_lockstep (inside : t.Contains (.node id)) (value : String) :
    Lockstep (fun problem => problem)
      (fun action s node => Leaves t [.node id] id ⟨.jsxText value⟩ action s ⟨node⟩)
      (enterText id value ⟨t, tally⟩) (Term.enter options ⟨.jsxText value⟩) := by
  rw [enterText, Term.enter]
  cases indents : Text.isIndentation value with
  | true =>
    refine .ok ?_
    rw [Leaves, Term.isIndentation, if_pos indents]
    exact ⟨rfl, rfl, rfl⟩
  | false =>
    have childless : t.Builds t [] (Node.text (Text.trim value) : Slot).edges [] := .nil t
    refine .ok ?_
    rw [Leaves, Term.isIndentation, if_neg (Bool.not_eq_true _ ▸ indents)]
    exact ⟨rfl, childless.replace inside List.not_mem_nil⟩

/-- Entering the node of a term and entering the term go in lockstep. -/
theorem enter_lockstep (owns : t.Owns [.node id] [.node term] footprint) :
    Lockstep (fun problem => problem)
      (fun action s node => Leaves t footprint id term action s ⟨node⟩)
      (enter options id ⟨t, tally⟩) (Term.enter options term) := by
  obtain ⟨inner, below, same, rfl, inside, outside, ownsBelow⟩ := Owns.node_iff.mp owns
  have alike := ownsBelow.represents.alike
  obtain rfl := Edge.node.inj same
  rw [enter, tree_bind]
  cases slot : t.node id with
  | jsxText value =>
    rw [slot] at alike ownsBelow
    cases alike
    cases ownsBelow.represents
    exact enterText_lockstep inside value
  | jsxContainer expression =>
    rw [slot] at alike ownsBelow
    repeat cases ‹Alike _ _›
    exact enterContainer_lockstep inside outside ownsBelow
  | jsxElement name attributes children selfClosing =>
    rw [slot] at alike ownsBelow
    simp only [Node.edges] at alike
    repeat cases ‹Alike _ _›
    exact enterElement_lockstep selfClosing inside outside ownsBelow
  | jsxIdentifier name =>
    rw [slot] at alike ownsBelow
    cases alike
    have childless : t.Builds t below (Node.identifier name : Slot).edges _ := .of_owns ownsBelow
    exact .ok ⟨rfl, childless.replace inside outside⟩
  | jsxMember base name =>
    rw [slot] at alike ownsBelow
    repeat cases ‹Alike _ _›
    have held : t.Builds t below (Node.member base name false false : Slot).edges _ :=
      .of_owns ownsBelow
    exact .ok ⟨rfl, held.replace inside outside⟩
  | generic kind fields =>
    rw [slot] at owns
    by_cases fragment : kind = "JSXFragment"
    · simp only [Node.fill, Term.enter, if_pos fragment]
      exact .error
    · simp only [Node.fill, Term.enter, if_neg fragment]
      exact .ok ⟨rfl, .of_owns owns⟩
  | jsxAttribute name value =>
    rw [slot] at alike owns
    cases value <;> simp only [Node.edges] at alike <;> (repeat cases ‹Alike _ _›) <;>
      exact .ok ⟨rfl, .of_owns owns⟩
  | _ =>
    rw [slot] at alike owns
    simp only [Node.edges] at alike
    repeat cases ‹Alike _ _›
    exact .ok ⟨rfl, .of_owns owns⟩

end Desugar

end JsxFactory
