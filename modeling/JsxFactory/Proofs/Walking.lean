/-
# The walk desugars terms

A walk that desugars the tree in place gives, at the place of each term, the
desugared term, or stops with the first problem. The invariant is ownership: a
visit changes only what the term below the visited place owns, so what was
visited before stays as it was left and what comes after is still as it was at
first. That the walk looks at a sequence anew at each step, while items are taken
out of it, is the case of `visitList_lockstep`.
-/

import JsxFactory.Proofs.Depth
import JsxFactory.Proofs.Entering
import JsxFactory.Proofs.Sources

namespace JsxFactory

namespace Desugar

open Edge (Alike)
open JsxFactory.Tree (Builds Owns Represents Rebuilds)

variable {options : Options} {t : Tree} {tally : Tally} {footprint : List Place} {id : NodeId}
  {term : Term} {fuel : Nat}

/-- Visiting a term at a place of any tree that owns it goes in lockstep with
desugaring it. -/
def Visits (options : Options) (visit : NodeId → Walk.Run Tally DesugarError Walk.Action)
    (term : Term) : Prop :=
  ∀ ⦃t : Tree⦄ ⦃tally : Tally⦄ ⦃id : NodeId⦄ ⦃footprint : List Place⦄,
    t.Owns [.node id] [.node term] footprint →
    Lockstep .failed (Leaves t footprint id term) (visit id ⟨t, tally⟩) (term.desugar options)

variable {visit : NodeId → Walk.Run Tally DesugarError Walk.Action}

/-- What a walk along a sequence leaves behind: what was passed before, and then
the desugared items. -/
def LeavesList (t : Tree) (footprint : List Place) (list : ListId) (passed : List NodeId)
    (s : Walk.State Tally) (items : List Term) : Prop :=
  ∃ ids new, s.tree.list list = passed ++ ids ∧
    s.tree.Represents (ids.map .node) (items.map .node) new ∧
    t.Rebuilds s.tree (.list list :: footprint) (.list list :: new)

section LeavesList

variable {list : ListId} {passed ids : List NodeId} {first rest : List Place} {t₁ : Tree}
  {s : Walk.State Tally} {items : List Term}

/-- After an item was taken out, the rest is walked from the same index on. -/
theorem LeavesList.of_removed (inside : t.Contains (.list list)) (outside : .list list ∉ rest)
    (nodup : rest.Nodup) (insideRest : ∀ place ∈ rest, t.Contains place)
    (leaves : LeavesList (t.removeItem list passed.length) rest list passed s items) :
    LeavesList t (first ++ rest) list passed s items := by
  obtain ⟨ids', new, found', represents, rebuilds⟩ := leaves
  refine ⟨ids', new, found', represents, ?_⟩
  -- Only the sequence itself has changed before the rest is walked; the item stays behind unheld.
  have removed := Tree.rebuilds_setList inside ((t.list list).eraseIdx passed.length)
  have kept := Rebuilds.keep nodup fun place mem => removed.contains (insideRest place mem)
  have both := removed.append kept (List.singleton_disjoint.mpr outside) insideRest
  refine (both.trans rebuilds).mono ?_
  simp

/-- After an item was visited and stayed, the rest is walked from the next index
on. -/
theorem LeavesList.of_visited {item : Term} (built : t.Builds t₁ first [.node id] [.node item])
    (inside : t.Contains (.list list)) (outside : .list list ∉ first)
    (disjoint : first.Disjoint rest) (insideRest : ∀ place ∈ rest, t.Contains place)
    (leaves : LeavesList t₁ rest list (passed ++ [id]) s items) :
    LeavesList t (first ++ rest) list passed s (item :: items) := by
  obtain ⟨new₁, represents₁, rebuilds₁⟩ := built
  obtain ⟨ids', new₂, found, represents₂, rebuilds₂⟩ := leaves
  have apart : first.Disjoint (.list list :: rest) :=
    List.disjoint_cons_right.mpr ⟨outside, disjoint⟩
  have inside' : ∀ place ∈ .list list :: rest, t.Contains place :=
    List.forall_mem_cons.mpr ⟨inside, insideRest⟩
  have head := Builds.stays represents₁ rebuilds₁ rebuilds₂ apart inside'
  refine ⟨id :: ids', new₁ ++ new₂, by simpa using found, head.cons represents₂, ?_⟩
  have both := rebuilds₁.append rebuilds₂ apart inside'
  exact (both.perm List.perm_middle).mono (List.perm_middle.subset)

/-- A sequence that was walked from its start is built anew. -/
theorem LeavesList.builds {footprint : List Place}
    (leaves : LeavesList t footprint list [] s items) :
    t.Builds s.tree (.list list :: footprint) [.list list] [.list items] := by
  obtain ⟨ids, new, found, represents, rebuilds⟩ := leaves
  refine ⟨_, Represents.list_iff.mpr ⟨items, new, rfl, rfl, ?_⟩, rebuilds⟩
  rw [found]
  exact represents

end LeavesList

/-- An item that is taken out makes room for the next. -/
theorem list_removeItem {list : ListId} {passed ids : List NodeId}
    (inside : t.Contains (.list list)) (found : t.list list = passed ++ id :: ids) :
    (t.removeItem list passed.length).list list = passed ++ ids := by
  rw [Tree.removeItem, Tree.list_setList inside, found,
    List.eraseIdx_append_of_length_le (Nat.le_refl _), Nat.sub_self]
  rfl

/-- A walk along a sequence goes in lockstep with desugaring its items. The index
is the number of items that were passed and stayed. -/
theorem visitList_lockstep {list : ListId} {passed ids : List NodeId} {terms : List Term}
    (visits : ∀ term ∈ terms, Visits options visit term) (enough : terms.length < fuel)
    (found : t.list list = passed ++ ids) (inside : t.Contains (.list list))
    (outside : .list list ∉ footprint)
    (owns : t.Owns (ids.map .node) (terms.map .node) footprint) :
    Lockstep .failed (fun _ s items => LeavesList t footprint list passed s items)
      (Walk.visitList visit list fuel passed.length ⟨t, tally⟩)
      (Term.desugarItems options terms) := by
  -- The tree varies from step to step, and with it the footprint of what is still ahead.
  induction terms generalizing t tally fuel passed ids footprint with
  | nil =>
    obtain ⟨less, rfl⟩ : ∃ less, fuel = less + 1 := ⟨fuel - 1, by omega⟩
    cases ids with
    | cons => cases owns.represents
    | nil =>
      rw [Walk.visitList, tree_bind, found, List.getElem?_append_right (Nat.le_refl _)]
      have kept : t.Rebuilds t [.list list] [.list list] :=
        .keep (List.nodup_singleton _) (by simpa using inside)
      exact .ok ⟨[], [], found, .nil, kept.mono (by simp)⟩
  | cons term terms ih =>
    obtain ⟨less, rfl⟩ : ∃ less, fuel = less + 1 := ⟨fuel - 1, by omega⟩
    rw [List.length_cons] at enough
    cases ids with
    | nil => cases owns.represents
    | cons id ids =>
      obtain ⟨_, _, first, rest, same, rfl, ownsFirst, ownsRest, disjoint⟩ := owns.uncons
      obtain ⟨rfl, rfl⟩ := List.cons.inj same
      have visitFirst := visits term List.mem_cons_self
      have visitsRest : ∀ term ∈ terms, Visits options visit term := fun term mem =>
        visits term (List.mem_cons_of_mem _ mem)
      rw [List.mem_append, not_or] at outside
      rw [Walk.visitList, tree_bind, found, List.getElem?_append_right (Nat.le_refl _),
        Nat.sub_self]
      cases indents : term.isIndentation with
      | true =>
        rw [Term.desugarItems_of_indentation options indents]
        refine Lockstep.bind (visitFirst ownsFirst) fun action s _ leaves => ?_
        rw [Leaves, if_pos indents] at leaves
        obtain ⟨rfl, rfl, -⟩ := leaves
        change Lockstep _ _ (Walk.visitList visit list less passed.length
          ⟨s.tree.removeItem list passed.length, s.memory⟩) _
        have removed := Tree.rebuilds_setList inside ((s.tree.list list).eraseIdx passed.length)
        have found₁ := list_removeItem inside found
        have ownsRest₁ := ownsRest.frame removed (List.singleton_disjoint.mpr outside.2)
        refine (ih visitsRest (by omega) found₁ (removed.contains inside) outside.2
          ownsRest₁).mono fun _ _ _ leaves => ?_
        exact leaves.of_removed inside outside.2 ownsRest.nodup ownsRest.inside
      | false =>
        rw [Term.desugarItems_cons options indents]
        refine Lockstep.bind (visitFirst ownsFirst) fun action s item leaves => ?_
        rw [Leaves, if_neg (Bool.not_eq_true _ ▸ indents)] at leaves
        obtain ⟨rfl, built⟩ := leaves
        change Lockstep _ _ (Walk.visitList visit list less (passed.length + 1) s) _
        -- The visit changed the item and what is below it, but not the sequence that holds it.
        have same : s.tree.list list = t.list list := built.kept inside outside.1
        have found₁ : s.tree.list list = (passed ++ [id]) ++ ids := by rw [same, found]; simp
        have next : passed.length + 1 = (passed ++ [id]).length := by simp
        have ownsRest₁ := built.frame ownsRest disjoint
        rw [next]
        refine (ih visitsRest (Nat.lt_of_succ_lt_succ enough) found₁ (built.contains inside)
          outside.2 ownsRest₁).thenReturn fun _ _ _ leaves => ?_
        exact leaves.of_visited built inside outside.1 disjoint ownsRest.inside

/-! ## Children -/

/-- A node that stands alone and is taken out leaves a hole. -/
theorem builds_hole (owns : t.Owns [.node id] [.node term] footprint) :
    t.Builds (t.replace id .hole) footprint [.node id] [.node .hole] := by
  obtain ⟨_, below, _, rfl, inside, _, _⟩ := Owns.node_iff.mp owns
  have childless : t.Builds t [] (Node.hole : Slot).edges [] := .nil t
  exact (childless.replace inside List.not_mem_nil).mono (by simp)

/-- A walk along the children of a node goes in lockstep with desugaring them. -/
theorem visitEdges_lockstep {places : List Place} {parts : List Part}
    (visits : ∀ part ∈ parts, part.items.length < fuel ∧
      ∀ term ∈ part.items, Visits options visit term)
    (owns : t.Owns places parts footprint) :
    Lockstep .failed (fun _ s results => t.Builds s.tree footprint places results)
      (Walk.visitEdges visit fuel places ⟨t, tally⟩)
      (Term.desugarParts options parts) := by
  induction places generalizing t tally parts footprint with
  | nil =>
    cases owns.represents
    exact .ok (.nil t)
  | cons place places ih =>
    obtain ⟨part, others, first, rest, rfl, rfl, ownsFirst, ownsRest, disjoint⟩ := owns.uncons
    obtain ⟨⟨short, visitsFirst⟩, visitsRest⟩ := List.forall_mem_cons.mp visits
    -- However the first part was visited, the others are still owned and come next.
    have goOn : ∀ {s : Walk.State Tally} {result : Part},
        t.Builds s.tree first [place] [result] →
        Lockstep .failed
          (fun _ s results => t.Builds s.tree (first ++ rest) (place :: places) results)
          (Walk.visitEdges visit fuel places s)
          (Term.desugarParts options others >>= fun results => pure (result :: results)) := by
      intro s result built
      refine (ih visitsRest (built.frame ownsRest disjoint)).thenReturn fun _ _ _ builtRest => ?_
      exact built.cons builtRest disjoint ownsRest.inside
    cases place with
    | node child =>
      obtain ⟨inner, below, rfl, _⟩ := Owns.node_iff.mp ownsFirst
      rw [Walk.visitEdges, Term.desugarParts_node]
      have visitFirst := visitsFirst _ List.mem_cons_self
      refine Lockstep.bind (visitFirst ownsFirst) fun action s result leaves => ?_
      rw [Leaves] at leaves
      split at leaves
      · obtain ⟨rfl, rfl, rfl⟩ := leaves
        change Lockstep _ _ (Walk.visitEdges visit fuel places
          ⟨s.tree.replace child .hole, s.memory⟩) _
        exact goOn (builds_hole ownsFirst)
      · obtain ⟨rfl, built⟩ := leaves
        exact goOn built
    | list list =>
      obtain ⟨terms, below, rfl, rfl, inside, outside, ownsItems⟩ := Owns.list_iff.mp ownsFirst
      rw [Walk.visitEdges, Term.desugarParts_list]
      have found : t.list list = [] ++ t.list list := rfl
      refine Lockstep.bind (visitList_lockstep visitsFirst short found inside outside ownsItems)
        fun _ s items leaves => ?_
      exact goOn leaves.builds

/-! ## The walk -/

/-- Visiting a term goes in lockstep with desugaring it, given enough steps. -/
theorem visit_lockstep (enough : term.Enough options fuel) :
    Visits options (Walk.visit (visitor options) fuel) term := by
  induction fuel generalizing term with
  | zero => exact enough.elim
  | succ fuel ih =>
    intro t tally id footprint owns
    rw [Walk.visit, Term.desugar_eq]
    refine Lockstep.bind (Lockstep.adaptExcept Walk.Stop.failed (enter_lockstep owns)).remember
      fun action s entered ⟨succeeds, leaves⟩ => ?_
    by_cases indents : term.isIndentation = true
    · -- Taking the node out is left to the caller.
      rw [Leaves, if_pos indents] at leaves
      obtain ⟨rfl, rfl, hole⟩ := leaves
      cases hole
      refine .ok ?_
      rw [Leaves, if_pos indents]
      exact ⟨rfl, rfl, rfl⟩
    · rw [Leaves, if_neg indents] at leaves
      obtain ⟨rfl, new, represents, rebuilds⟩ := leaves
      -- What entering built is owned again, so its children can be visited in turn.
      obtain ⟨parts, below, same, rfl, inside, outside, ownsBelow⟩ :=
        Owns.node_iff.mp (Owns.of_rebuilds represents rebuilds)
      obtain rfl := Term.mk.inj (Edge.node.inj same)
      have alike := ownsBelow.represents.alike
      have enoughBelow := enough _ succeeds
      rw [Node.edges_fill alike] at enoughBelow ⊢
      change Lockstep _ _ ((Walk.visitEdges _ fuel (s.tree.node id).edges >>=
        fun _ => pure Walk.Action.continue) s) _
      have visits : ∀ part ∈ parts, part.items.length < fuel ∧ ∀ inner ∈ part.items,
          Visits options (Walk.visit (visitor options) fuel) inner := fun part mem =>
        ⟨(enoughBelow part mem).1, fun inner mem' => ih ((enoughBelow part mem).2 inner mem')⟩
      refine Lockstep.bind (visitEdges_lockstep visits ownsBelow) fun _ s₁ results built => ?_
      refine .ok ?_
      rw [Leaves, if_neg indents]
      refine ⟨rfl, ?_⟩
      have alike' : Alike (s.tree.node id).edges results :=
        built.elim fun _ built => built.1.alike
      rw [Node.fill_fill alike alike']
      obtain ⟨new, represents', rebuilds'⟩ := built.under inside outside
      exact ⟨new, represents', rebuilds.trans rebuilds'⟩

theorem run_lockstep (options : Options) (owns : t.Owns [.node t.root] [.node term] footprint) :
    Lockstep .failed
      (fun _ s result => t.Builds s.tree footprint [.node t.root] [.node result])
      (run options t) (term.desugar options) := by
  change Lockstep _ _ (Walk.walk (visitor options) (fuel t) ⟨t, {}⟩) _
  rw [Walk.walk, tree_bind]
  have visits := visit_lockstep (owns.enough options)
  refine Lockstep.andThen (visits owns) fun action s result leaves => ?_
  rw [Leaves] at leaves
  split at leaves
  · obtain ⟨rfl, rfl, rfl⟩ := leaves
    exact ⟨_, _, rfl, builds_hole owns⟩
  · obtain ⟨rfl, built⟩ := leaves
    exact ⟨_, _, rfl, built⟩

end Desugar

namespace Tree

variable {t : Tree} {term : Term} {footprint : List Place}

/-- A tree that owns a term at its root has that term. -/
theorem Owns.toTerm? (owns : t.Owns [.node t.root] [.node term] footprint) :
    t.toTerm? = some term := by
  have unfolds := owns.represents.unfold (nodeCount_le_size owns.nodup owns.inside)
  simpa [Tree.toTerm?, Tree.term?, Edge.mapM, Option.bind_eq_some_iff] using unfolds

/-- Desugaring a tree and desugaring the term that it owns end alike: the tree
then owns the desugared term, or the problem is the same. -/
theorem Owns.desugar_cases (owns : t.Owns [.node t.root] [.node term] footprint)
    (options : Options) :
    (∃ t' result new, t.desugar options = .ok t' ∧ term.desugar options = .ok result ∧
      t'.Owns [.node t'.root] [.node result] new) ∨
    (∃ problem, t.desugar options = .error (.failed problem) ∧
      term.desugar options = .error problem) := by
  have lockstep := Desugar.run_lockstep options owns
  rw [Tree.desugar]
  generalize Desugar.run options t = ended at lockstep ⊢
  generalize term.desugar options = expected at lockstep ⊢
  cases lockstep with
  | @ok _ s result built =>
    obtain ⟨new, represents, rebuilds⟩ := built
    refine .inl ⟨s.tree, result, new, rfl, rfl, ?_⟩
    rw [rebuilds.root_eq]
    exact .of_rebuilds represents rebuilds
  | @error problem => exact .inr ⟨problem, rfl, rfl⟩

theorem Owns.exists_desugar {options : Options} {result : Term}
    (owns : t.Owns [.node t.root] [.node term] footprint)
    (desugars : term.desugar options = .ok result) :
    ∃ t' new, t.desugar options = .ok t' ∧ t'.Owns [.node t'.root] [.node result] new := by
  obtain ⟨t', result', new, succeeds, expected, owns'⟩ | ⟨problem, _, fails⟩ :=
    owns.desugar_cases options
  · cases desugars.symm.trans expected
    exact ⟨t', new, succeeds, owns'⟩
  · cases desugars.symm.trans fails

theorem exists_desugar_ofTerm {options : Options} {result : Term}
    (desugars : term.desugar options = .ok result) :
    ∃ t' new, (ofTerm term).desugar options = .ok t' ∧
      t'.Owns [.node t'.root] [.node result] new := by
  obtain ⟨footprint, owns⟩ := owns_ofTerm term
  exact owns.exists_desugar desugars

theorem isRead_nestedElement : (ofTerm Term.nestedElement).IsRead :=
  isRead_ofTerm (rfl : Estree.read Term.nestedElement.toEstree = .ok Term.nestedElement)

/-- The walk that desugars a tree in place does what the recursion over terms
says. Trees that are read from documents or lowered from programs are owned, and
of any owned tree, the term of the desugared tree is the desugared term of the
tree; where there is none, the walk stops with the problem of the recursion. -/
theorem toTerm?_desugar (options : Options) (t : Tree)
    (source : t.IsRead ∨ t.IsLowered ∨ t.Owned) :
    ∃ term, t.toTerm? = some term ∧
      (t.desugar options).map Tree.toTerm? =
        ((term.desugar options).map some).mapError Walk.Stop.failed := by
  obtain ⟨term, footprint, owns⟩ := (owned_of_source source).exists_owns
  refine ⟨term, owns.toTerm?, ?_⟩
  obtain ⟨t', result, new, desugars, expected, owns'⟩ | ⟨problem, fails, expected⟩ :=
    owns.desugar_cases options
  · rw [desugars, expected, Except.map, owns'.toTerm?]
    rfl
  · rw [fails, expected]
    rfl

theorem toTerm?_desugar_nestedElement :
    (ofTerm Term.nestedElement).Owned ∧
      ((ofTerm Term.nestedElement).desugar {}).map Tree.toTerm? =
        .ok (some Term.nestedCall) := by
  have owned := owned_ofTerm Term.nestedElement
  obtain ⟨footprint, owns⟩ := owns_ofTerm Term.nestedElement
  obtain ⟨term, read, same⟩ := toTerm?_desugar {} (ofTerm Term.nestedElement) (.inr (.inr owned))
  cases read.symm.trans owns.toTerm?
  exact ⟨owned, same⟩

end Tree

end JsxFactory
