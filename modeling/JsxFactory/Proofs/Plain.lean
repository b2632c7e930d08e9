/-
# Trees without markup

A plain node is one that entering leaves alone, and the walk goes on to its
children. A walk of an owned tree whose nodes are all plain therefore changes no
place of the store, whatever the options are. What desugaring leaves behind is
such a tree, although its places are no longer in the order in which they were
added: to desugar it again, even with other options, is to do nothing.
-/

import JsxFactory.Proofs.Outcome

namespace JsxFactory

/-- Entering a plain term gives its own node. -/
theorem Term.enter_of_plain (options : Options) {node : Node Term (List Term)}
    (plain : node.Plain) : Term.enter options ⟨node⟩ = pure node := by
  cases node with
  | generic kind fields =>
    have notFragment : kind ≠ "JSXFragment" := plain
    rw [Term.enter, if_neg notFragment]
  | jsxElement | jsxText | jsxContainer | jsxIdentifier | jsxMember => exact plain.elim
  | _ => rfl

namespace Desugar

variable {options : Options} {t : Tree} {tally : Tally} {footprint : List Place} {id : NodeId}
  {term : Term} {fuel : Nat}

/-- Entering a plain node in a store changes nothing. -/
theorem enter_of_plain (options : Options) (tally : Tally) (plain : (t.node id).Plain) :
    enter options id ⟨t, tally⟩ = .ok .continue ⟨t, tally⟩ := by
  rw [enter, tree_bind]
  cases slot : t.node id with
  | generic kind fields =>
    rw [slot] at plain
    have notFragment : kind ≠ "JSXFragment" := plain
    simp only [if_neg notFragment]
    rfl
  | jsxElement | jsxText | jsxContainer | jsxIdentifier | jsxMember =>
    rw [slot] at plain
    exact plain.elim
  | _ => rfl

section Unchanged

variable {visit : NodeId → Walk.Run Tally DesugarError Walk.Action} {s : Walk.State Tally}

/-- A visit goes on and leaves everything as it is. -/
def Unchanged (visit : NodeId → Walk.Run Tally DesugarError Walk.Action) (s : Walk.State Tally)
    (id : NodeId) : Prop :=
  visit id s = .ok .continue s

/-- A walk along a sequence changes nothing if no visit of an item does. -/
theorem visitList_unchanged {list : ListId} {index : Nat}
    (unchanged : ∀ child ∈ s.tree.list list, Unchanged visit s child)
    (enough : (s.tree.list list).length - index < fuel) :
    Walk.visitList visit list fuel index s = .ok () s := by
  induction fuel generalizing index with
  | zero => exact absurd enough (Nat.not_lt_zero _)
  | succ fuel ih =>
    rw [Walk.visitList, tree_bind]
    cases found : (s.tree.list list)[index]? with
    | none => rfl
    | some child =>
      obtain ⟨inside, -⟩ := List.getElem?_eq_some_iff.mp found
      have visited : visit child s = .ok .continue s :=
        unchanged child (List.mem_of_getElem? found)
      -- The item is still there, so the walk goes on at the next index.
      have next : Walk.visitList visit list fuel (index + 1) s = .ok () s := ih (by omega)
      change EStateM.bind (visit child) _ s = _
      rw [EStateM.bind, visited]
      exact next

/-- A walk along the children of a node changes nothing if no visit of a child
does. -/
theorem visitEdges_unchanged {places : List Place}
    (singles : ∀ child, .node child ∈ places → Unchanged visit s child)
    (sequences : ∀ list, .list list ∈ places → (s.tree.list list).length < fuel ∧
      ∀ child ∈ s.tree.list list, Unchanged visit s child) :
    Walk.visitEdges visit fuel places s = .ok () s := by
  induction places with
  | nil => rfl
  | cons place places ih =>
    have rest := ih (fun child mem => singles child (List.mem_cons_of_mem _ mem))
      (fun list mem => sequences list (List.mem_cons_of_mem _ mem))
    cases place with
    | node child =>
      have visited : visit child s = .ok .continue s := singles child List.mem_cons_self
      rw [Walk.visitEdges]
      change EStateM.bind (visit child) _ s = _
      rw [EStateM.bind, visited]
      exact rest
    | list list =>
      obtain ⟨short, unchanged⟩ := sequences list List.mem_cons_self
      have walked : Walk.visitList visit list fuel 0 s = .ok () s :=
        visitList_unchanged unchanged short
      rw [Walk.visitEdges]
      change EStateM.bind (Walk.visitList visit list fuel 0) _ s = _
      rw [EStateM.bind, walked]
      exact rest

end Unchanged

/-- Visiting a term without markup changes nothing, given enough steps. -/
theorem visit_unchanged (enough : term.Enough options fuel)
    (plain : term.Everywhere fun inner => inner.node.Plain)
    (represents : t.Represents [.node id] [.node term] footprint) :
    Unchanged (Walk.visit (visitor options) fuel) ⟨t, tally⟩ id := by
  induction fuel generalizing term id footprint with
  | zero => exact enough.elim
  | succ fuel ih =>
    obtain ⟨parts, below, same, rfl, inside⟩ := Tree.Represents.node_iff.mp represents
    obtain rfl := Edge.node.inj same
    obtain ⟨here, children⟩ := Term.everywhere_mk.mp plain
    -- The node is not changed, so the steps that are left are enough for its own children.
    have enoughBelow := enough _ (Term.enter_of_plain options here)
    rw [Node.edges_fill inside.alike] at enoughBelow
    rw [Node.children, Node.edges_fill inside.alike] at children
    have visited : ∀ {child inner below'}, t.Represents [.node child] [.node inner] below' →
        (∃ part ∈ parts, inner ∈ part.items) →
        Unchanged (Walk.visit (visitor options) fuel) ⟨t, tally⟩ child := by
      rintro child inner below' representsChild ⟨part, memParts, memItems⟩
      refine ih ((enoughBelow part memParts).2 inner memItems) ?_ representsChild
      exact children inner (List.mem_flatMap.mpr ⟨part, memParts, memItems⟩)
    have edges : Walk.visitEdges (Walk.visit (visitor options) fuel) fuel (t.node id).edges
        ⟨t, tally⟩ = .ok () ⟨t, tally⟩ := by
      refine visitEdges_unchanged ?_ ?_
      · intro child mem
        obtain ⟨part, memParts, _, representsChild⟩ := inside.exists_of_mem_places mem
        obtain ⟨_, _, rfl, _⟩ := Tree.Represents.node_iff.mp representsChild
        exact visited representsChild ⟨_, memParts, List.mem_cons_self⟩
      · intro list mem
        obtain ⟨part, memParts, _, representsList⟩ := inside.exists_of_mem_places mem
        obtain ⟨terms, _, rfl, _, items⟩ := Tree.Represents.list_iff.mp representsList
        have length : (t.list list).length = terms.length := by
          simpa using items.alike.length_eq
        refine ⟨length ▸ (enoughBelow _ memParts).1, fun child memList => ?_⟩
        obtain ⟨item, memTerms, _, representsItem⟩ :=
          items.exists_of_mem_places (List.mem_map_of_mem memList)
        obtain ⟨inner, memInner, rfl⟩ := List.mem_map.mp memTerms
        exact visited representsItem ⟨_, memParts, memInner⟩
    have plainSlot : (t.node id).Plain := (Node.plain_fill inside.alike).mp here
    have entered := enter_of_plain options tally plainSlot
    rw [Unchanged, Walk.visit]
    change EStateM.bind ((enter options id).adaptExcept Walk.Stop.failed) _ ⟨t, tally⟩ = _
    rw [EStateM.bind, EStateM.adaptExcept, entered]
    change EStateM.bind (Walk.visitEdges _ fuel (t.node id).edges) _ ⟨t, tally⟩ = _
    rw [EStateM.bind, edges]
    rfl

end Desugar

namespace Tree

variable {t : Tree}

/-- A tree is free of markup if the term that it owns is. -/
theorem Owns.forall_plain_iff {term : Term} {footprint : List Place}
    (owns : t.Owns [.node t.root] [.node term] footprint) :
    (∀ id, t.Reachable (.node id) → (t.node id).Plain) ↔
      term.Everywhere fun inner => inner.node.Plain :=
  owns.represents.forall_reachable_iff Represents.plain_iff

/-- A walk of an owned tree without markup leaves the store as it is. -/
theorem Owns.desugar_of_plain {term : Term} {footprint : List Place}
    (owns : t.Owns [.node t.root] [.node term] footprint)
    (plain : term.Everywhere fun inner => inner.node.Plain) (options : Options) :
    t.desugar options = .ok t := by
  have visited : ∀ tally, Walk.visit (Desugar.visitor options) (Desugar.fuel t) t.root
      ⟨t, tally⟩ = .ok .continue ⟨t, tally⟩ := fun tally =>
    Desugar.visit_unchanged (owns.enough options) plain owns.represents
  have walked : Desugar.run options t = .ok () ⟨t, {}⟩ := by
    change EStateM.bind (Walk.visit (Desugar.visitor options) (Desugar.fuel t) t.root) _ _ = _
    rw [EStateM.bind, visited]
    rfl
  rw [Tree.desugar, walked]

/-- Desugaring changes nothing in a tree without markup, and nothing in what it
left of a document before: an owned tree whose nodes are all plain is desugared,
with whatever options, to itself, with every node, every sequence and the root as
they were; and so is the result of desugaring a document, with whatever options
that was done. -/
theorem desugar_eq_self (t : Tree) :
    (t.Owned → (∀ id, t.Reachable (.node id) → (t.node id).Plain) →
      ∀ options, t.desugar options = .ok t) ∧
    (t.IsRead → ∀ options again t', t.desugar options = .ok t' → t'.desugar again = .ok t') := by
  constructor
  · intro owned plain options
    obtain ⟨term, footprint, owns⟩ := owned.exists_owns
    exact owns.desugar_of_plain (owns.forall_plain_iff.mp plain) options
  · intro isRead options again t' succeeds
    obtain ⟨term, footprint, owns⟩ := isRead.owned.exists_owns
    obtain ⟨t₁, result, new, desugars, expected, owns'⟩ | ⟨problem, fails, _⟩ :=
      owns.desugar_cases options
    · -- The first run leaves an owned tree without markup, which is all that the second needs.
      cases succeeds.symm.trans desugars
      exact owns'.desugar_of_plain (Term.everywhere_plain_of_desugar expected) again
    · cases succeeds.symm.trans fails

theorem desugar_eq_self_nestedElement :
    (ofTerm Term.nestedElement).IsRead ∧
      ∃ t', (ofTerm Term.nestedElement).desugar {} = .ok t' ∧
        (∀ again, t'.desugar again = .ok t') ∧
        t'.Owned ∧ (∀ id, t'.Reachable (.node id) → (t'.node id).Plain) ∧
        ∀ options, t'.desugar options = .ok t' := by
  have isRead := isRead_nestedElement
  have desugars : Term.nestedElement.desugar {} = .ok Term.nestedCall := rfl
  obtain ⟨t', _, succeeds, owns⟩ := exists_desugar_ofTerm desugars
  refine ⟨isRead, t', succeeds, fun again => ?_, owns.owned, ?_⟩
  · exact (desugar_eq_self (ofTerm Term.nestedElement)).2 isRead {} again t' succeeds
  · have plain := owns.forall_plain_iff.mpr (Term.everywhere_plain_of_desugar desugars)
    exact ⟨plain, (desugar_eq_self t').1 owns.owned plain⟩

end Tree

end JsxFactory
