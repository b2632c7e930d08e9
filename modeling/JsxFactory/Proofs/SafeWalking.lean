/-
# Walks keep their store well owned

All that happens in the course of a desugaring is sound: every place that is looked
at or overwritten lies in the store, every item that is taken out is there to be
taken out, braces that are opened are the only holder of their expression, and
each time that a node was entered or taken out the store is well owned. A visit
builds something else on what the visited place owns; around that, the tree stays
as it was and is still reached, and so the walk goes on in a well-owned store.
-/

import JsxFactory.Proofs.SafeEntering
import JsxFactory.Proofs.Walking

namespace JsxFactory

namespace Desugar

namespace Watched

open JsxFactory.Tree (Builds Owns)
open Walk.Watched (resting Watches Ends)

variable {α : Type} {options : Options} {t : Tree} {tally : Tally} {id : NodeId} {list : ListId}
  {footprint : List Place} {term : Term} {fuel : Nat}
  {visit : NodeId → Walk.Run Tally DesugarError Walk.Action}
  {watched : NodeId → Walk.Watched Tally (Walk.Stop DesugarError) Walk.Action}

/-- Part of a walk that does only what is sound and leaves the store well owned,
however it ends. -/
def Keeps {ε : Type} (x : Walk.Watched Tally ε α) (s : Walk.State Tally) : Prop :=
  Ends (fun _ s₁ => s₁.tree.WellOwned) (fun s₁ => s₁.tree.WellOwned) (x s)

/-- Entering a node of a well-owned tree leaves it well owned, also when it
fails. -/
theorem enter_keeps (well : t.WellOwned) (reachable : t.Reachable (.node id))
    (owns : t.Owns [.node id] [.node term] footprint) :
    Ends (fun action s => s.tree.WellOwned ∧ ∃ node, Term.enter options term = .ok node ∧
        Leaves t footprint id term action s ⟨node⟩)
      (fun s => s.tree.WellOwned) (resting (enter options id) ⟨t, tally⟩) := by
  have enters : Enters (enter options id) ⟨t, tally⟩ := enter_enters well reachable
  have ends := enters.alongside (watches_enter options id) (enter_lockstep owns)
  refine Ends.resting (ends.mono ?good ?early) (fun _ _ here => here.1) fun _ here => here
  case good =>
    rintro action s ⟨closed, node, succeeds, leaves⟩
    refine ⟨?_, node, succeeds, leaves⟩
    rw [Leaves] at leaves
    split at leaves
    · rw [leaves.2.1]
      exact well
    · exact well.of_builds reachable owns leaves.2 closed
  case early => exact fun s grown => grown.wellOwned well

theorem leaveHole_ends {ε : Type} (well : t.WellOwned) (reachable : t.Reachable (.node id))
    (owns : t.Owns [.node id] [.node term] footprint) :
    Ends (fun _ s => s.tree.WellOwned ∧ t.Builds s.tree footprint [.node id] [.node .hole])
      (fun s => s.tree.WellOwned)
      ((Walk.Watched.leaveHole id : Walk.Watched Tally ε Unit) ⟨t, tally⟩) := by
  have inside := well.inside reachable
  have closed : (t.replace id .hole).Closed := well.closed.replace inside (by simp [Node.edges])
  have built := builds_hole owns
  have well₁ := well.of_builds reachable owns built closed
  refine Ends.resting ?_ (fun _ _ here => here.1) fun _ here => here
  exact Ends.note inside (Ends.step rfl ⟨well₁, built⟩)

/-- Taking out an item leaves the sequence where it was. -/
theorem takeOut_ends {ε : Type} (well : t.WellOwned) (reachable : t.Reachable (.list list))
    {index : Nat} (lt : index < (t.list list).length) :
    Ends (fun _ s => s.tree = t.removeItem list index ∧ s.tree.WellOwned ∧
        s.tree.Reachable (.list list)) (fun s => s.tree.WellOwned)
      ((Walk.Watched.takeOut list index : Walk.Watched Tally ε Unit) ⟨t, tally⟩) := by
  have inside := well.inside reachable
  obtain ⟨part, footprint, owns⟩ := well.owned.exists_owns_of_reachable reachable
  obtain ⟨part', builds⟩ := owns.removeItem index
  have closed := well.closed.removeItem inside index
  have well₁ := well.of_builds reachable owns builds closed
  have reachable₁ := reachable.of_builds well.owned owns builds reachable fun _ => rfl
  refine Ends.resting ?_ (fun _ _ here => here.2.1) fun _ here => here
  exact Ends.note ⟨inside, lt⟩ (Ends.step rfl ⟨rfl, well₁, reachable₁⟩)

/-- Visiting a term at a place of any well-owned tree that is reached does only
what is sound. -/
def VisitKeeps (watched : NodeId → Walk.Watched Tally (Walk.Stop DesugarError) Walk.Action)
    (term : Term) : Prop :=
  ∀ ⦃t : Tree⦄ ⦃tally : Tally⦄ ⦃id : NodeId⦄ ⦃footprint : List Place⦄, t.WellOwned →
    t.Reachable (.node id) → t.Owns [.node id] [.node term] footprint →
    Keeps (watched id) ⟨t, tally⟩

theorem visitList_keeps (watches : ∀ id, Watches (watched id) (visit id)) {passed ids : List NodeId}
    {terms : List Term} (visits : ∀ term ∈ terms, Visits options visit term)
    (keeps : ∀ term ∈ terms, VisitKeeps watched term) (well : t.WellOwned)
    (reachable : t.Reachable (.list list)) (found : t.list list = passed ++ ids)
    (outside : .list list ∉ footprint) (owns : t.Owns (ids.map .node) (terms.map .node) footprint) :
    Keeps (Walk.Watched.visitList watched list fuel passed.length) ⟨t, tally⟩ := by
  have inside := well.inside reachable
  -- As the walk goes on the tree varies, and with it the footprint of what is still ahead.
  induction terms generalizing t tally fuel passed ids footprint with
  | nil =>
    cases ids with
    | cons => cases owns.represents
    | nil =>
      cases fuel with
      | zero => exact Ends.throw well
      | succ fuel =>
        refine Ends.note inside (Ends.step_bind rfl ?_)
        simp only [found, List.getElem?_append_right (Nat.le_refl _)]
        exact Ends.pure well
  | cons term terms ih =>
    cases ids with
    | nil => cases owns.represents
    | cons id ids =>
      cases fuel with
      | zero => exact Ends.throw well
      | succ fuel =>
        obtain ⟨_, _, first, rest, same, rfl, ownsFirst, ownsRest, disjoint⟩ := owns.uncons
        obtain ⟨rfl, rfl⟩ := List.cons.inj same
        obtain ⟨visitFirst, visitsRest⟩ := List.forall_mem_cons.mp visits
        obtain ⟨keepFirst, keepsRest⟩ := List.forall_mem_cons.mp keeps
        rw [List.mem_append, not_or] at outside
        have reachableFirst : t.Reachable (.node id) := by
          refine reachable.tail ?_
          simp [Tree.Holds, Tree.below, found]
        refine Ends.note inside (Ends.step_bind rfl ?_)
        simp only [found, List.getElem?_append_right (Nat.le_refl _), Nat.sub_self,
          List.getElem?_cons_zero]
        refine ((keepFirst well reachableFirst ownsFirst).alongside (watches id)
          (visitFirst ownsFirst)).bind ?_
        rintro action s ⟨well₁, _, _, leaves⟩
        rw [Leaves] at leaves
        split at leaves
        · obtain ⟨rfl, rfl, -⟩ := leaves
          have lt : passed.length < (s.tree.list list).length := by simp [found]
          refine (takeOut_ends well reachable lt).bind ?_
          rintro _ ⟨_, _⟩ ⟨rfl, well₂, reachable₂⟩
          have removed := Tree.rebuilds_setList inside ((s.tree.list list).eraseIdx passed.length)
          have ownsRest₁ := ownsRest.frame removed (List.singleton_disjoint.mpr outside.2)
          exact ih visitsRest keepsRest well₂ reachable₂ (list_removeItem inside found) outside.2
            ownsRest₁ (removed.contains inside)
        · obtain ⟨rfl, built⟩ := leaves
          have same : s.tree.list list = t.list list := built.kept inside outside.1
          have found₁ : s.tree.list list = (passed ++ [id]) ++ ids := by rw [same, found]; simp
          have next : passed.length + 1 = (passed ++ [id]).length := by simp
          have reachable₁ := reachableFirst.of_builds well.owned ownsFirst built reachable
            fun mem => absurd mem outside.1
          rw [next]
          exact ih visitsRest keepsRest well₁ reachable₁ found₁ outside.2
            (built.frame ownsRest disjoint) (built.contains inside)

theorem visitEdges_keeps (watches : ∀ id, Watches (watched id) (visit id)) {places : List Place}
    {parts : List Part}
    (visits : ∀ part ∈ parts, part.items.length < fuel ∧
      ∀ term ∈ part.items, Visits options visit term)
    (keeps : ∀ part ∈ parts, ∀ term ∈ part.items, VisitKeeps watched term) (well : t.WellOwned)
    (reachable : ∀ place ∈ places, t.Reachable place) (owns : t.Owns places parts footprint) :
    Keeps (Walk.Watched.visitEdges watched fuel places) ⟨t, tally⟩ := by
  induction places generalizing t tally parts footprint with
  | nil => exact Ends.pure well
  | cons place places ih =>
    obtain ⟨part, others, first, rest, rfl, rfl, ownsFirst, ownsRest, disjoint⟩ := owns.uncons
    obtain ⟨⟨short, visitsFirst⟩, visitsRest⟩ := List.forall_mem_cons.mp visits
    obtain ⟨keepsFirst, keepsRest⟩ := List.forall_mem_cons.mp keeps
    obtain ⟨reachableFirst, reachableRest⟩ := List.forall_mem_cons.mp reachable
    -- Whatever was built in the first place, the others are still owned and still reached.
    have goOn : ∀ {s : Walk.State Tally} {result : Part}, s.tree.WellOwned →
        t.Builds s.tree first [place] [result] →
        Keeps (Walk.Watched.visitEdges watched fuel places) s := by
      intro s result well₁ built
      refine ih visitsRest keepsRest well₁ (fun other mem => ?_) (built.frame ownsRest disjoint)
      refine reachableFirst.of_builds well.owned ownsFirst built (reachableRest other mem) ?_
      intro memFirst
      exact absurd (ownsRest.represents.mem_of_mem_places mem) (disjoint memFirst)
    cases place with
    | node child =>
      obtain ⟨inner, below, rfl, _⟩ := Owns.node_iff.mp ownsFirst
      have keepFirst : Keeps (watched child) ⟨t, tally⟩ :=
        keepsFirst _ List.mem_cons_self well reachableFirst ownsFirst
      have visitFirst := visitsFirst _ List.mem_cons_self
      refine (keepFirst.alongside (watches child) (visitFirst ownsFirst)).bind ?_
      rintro action s ⟨well₁, _, _, leaves⟩
      rw [Leaves] at leaves
      split at leaves
      · obtain ⟨rfl, rfl, -⟩ := leaves
        refine (leaveHole_ends well reachableFirst ownsFirst).bind ?_
        rintro _ s₁ ⟨well₂, built⟩
        exact goOn well₂ built
      · obtain ⟨rfl, built⟩ := leaves
        exact goOn well₁ built
    | list list =>
      obtain ⟨terms, below, rfl, rfl, inside, outside, ownsItems⟩ := Owns.list_iff.mp ownsFirst
      have found : t.list list = [] ++ t.list list := rfl
      have keepList : Keeps (Walk.Watched.visitList watched list fuel 0) ⟨t, tally⟩ :=
        visitList_keeps watches visitsFirst keepsFirst well reachableFirst found outside ownsItems
      refine (keepList.alongside (Walk.Watched.watches_visitList watches list fuel 0)
        (visitList_lockstep visitsFirst short found inside outside ownsItems)).bind ?_
      rintro _ s ⟨well₁, _, _, leaves⟩
      exact goOn well₁ leaves.builds

/-- Visiting a term at a place that is reached keeps the store well owned, given
enough steps. -/
theorem visit_keeps (enough : term.Enough options fuel) :
    VisitKeeps (Walk.Watched.visit (enter options) fuel) term := by
  induction fuel generalizing term with
  | zero => exact enough.elim
  | succ fuel ih =>
    intro t tally id footprint well reachable owns
    rw [Walk.Watched.visit]
    refine ((enter_keeps well reachable owns).adaptExcept Walk.Stop.failed).bind ?_
    rintro action s ⟨well₁, node, succeeds, leaves⟩
    rw [Leaves] at leaves
    split at leaves
    · obtain ⟨rfl, -⟩ := leaves
      exact Ends.pure well₁
    · obtain ⟨rfl, built⟩ := leaves
      have reachable₁ := reachable.of_builds well.owned owns built reachable fun _ => rfl
      obtain ⟨new, represents, rebuilds⟩ := built
      obtain ⟨parts, below, same, rfl, inside, -, ownsBelow⟩ :=
        Owns.node_iff.mp (Owns.of_rebuilds represents rebuilds)
      obtain rfl := Term.mk.inj (Edge.node.inj same)
      have enoughBelow := enough _ succeeds
      rw [Node.edges_fill ownsBelow.represents.alike] at enoughBelow
      refine Ends.note inside (Ends.step_bind rfl ?_)
      have visits : ∀ part ∈ parts, part.items.length < fuel ∧ ∀ inner ∈ part.items,
          Visits options (Walk.visit (visitor options) fuel) inner := fun part mem =>
        ⟨(enoughBelow part mem).1, fun inner memInner =>
          visit_lockstep ((enoughBelow part mem).2 inner memInner)⟩
      have edges : Keeps (Walk.Watched.visitEdges _ fuel (s.tree.node id).edges) s :=
        visitEdges_keeps (Walk.Watched.watches_visit (watches_enter options) fuel) visits
          (fun part mem inner memInner => ih ((enoughBelow part mem).2 inner memInner)) well₁
          (fun place holds => reachable₁.tail holds) ownsBelow
      exact edges.bind fun _ _ well₂ => Ends.pure well₂

theorem run_keeps (options : Options) (well : t.WellOwned) :
    Ends (fun _ s => s.tree.WellOwned) (fun s => s.tree.WellOwned) (run options t) := by
  obtain ⟨term, footprint, owns⟩ := well.owned.exists_owns
  have enough := owns.enough options
  have keeps : Keeps (Walk.Watched.visit (enter options) (Desugar.fuel t) t.root) ⟨t, {}⟩ :=
    visit_keeps enough well .refl owns
  have watches := Walk.Watched.watches_visit (watches_enter options) (Desugar.fuel t) t.root
  change Ends _ _ (Walk.Watched.walk (enter options) (Desugar.fuel t) ⟨t, {}⟩)
  refine Ends.step_bind rfl ((keeps.alongside watches (visit_lockstep enough owns)).bind ?_)
  rintro action s ⟨well₁, _, _, leaves⟩
  rw [Leaves] at leaves
  split at leaves
  · obtain ⟨rfl, rfl, -⟩ := leaves
    exact (leaveHole_ends well .refl owns).mono (fun _ _ here => here.1) fun _ here => here
  · obtain ⟨rfl, -⟩ := leaves
    exact Ends.pure well₁

end Watched

end Desugar

namespace Tree

/-- Trees that are read from documents or lowered from programs are well owned, and
while a well-owned tree is desugared, in a run that succeeds or fails, it is well
owned again each time that a node was entered or taken out. No place outside the
store is ever looked at or overwritten, no item is taken out at an index that is not
there, and braces are the only holder of the expression that moves out of them. -/
theorem wellOwned_throughout (options : Options) (t : Tree)
    (source : t.IsRead ∨ t.IsLowered ∨ t.WellOwned) :
    t.WellOwned ∧
    (Desugar.Watched.run options t).1 = Desugar.run options t ∧
    (∀ moment ∈ (Desugar.Watched.run options t).2, moment.Sound) ∧
    (∀ s, Desugar.run options t = .ok () s → s.tree.WellOwned) ∧
    (∀ stop s, Desugar.run options t = .error stop s →
      (∃ problem, stop = .failed problem) ∧ s.tree.WellOwned) := by
  have well := wellOwned_of_source source
  have watched := Desugar.Watched.run_fst options t
  have keeps := Desugar.Watched.run_keeps options well
  obtain ⟨term, footprint, owns⟩ := well.owned.exists_owns
  have lockstep := Desugar.run_lockstep options owns
  refine ⟨well, watched, keeps.sound, ?_, ?_⟩
  · intro s succeeds
    exact keeps.of_fst_eq_ok (watched.trans succeeds)
  · intro stop s fails
    refine ⟨?_, keeps.of_fst_eq_error (watched.trans fails)⟩
    rw [fails] at lockstep
    generalize term.desugar options = expected at lockstep
    cases lockstep with
    | error => exact ⟨_, rfl⟩

/-- The record tells, among others, of the braces around the call `f(<b />)`. -/
theorem wellOwned_throughout_nestedElement :
    (ofTerm Term.nestedElement).IsRead ∧
    (∀ moment ∈ (Desugar.Watched.run {} (ofTerm Term.nestedElement)).2, moment.Sound) ∧
    (Desugar.Watched.run {} (ofTerm Term.nestedElement)).2[40]?.map Walk.Moment.event =
      some (.opens ⟨9⟩ ⟨8⟩) := by
  have isRead := isRead_nestedElement
  obtain ⟨_, _, sound, _⟩ := wellOwned_throughout {} (ofTerm Term.nestedElement) (.inl isRead)
  exact ⟨isRead, sound, by decide +kernel⟩

end Tree

end JsxFactory
