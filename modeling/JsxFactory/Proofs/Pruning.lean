/-
# Walks that only decide

A visitor may leave the tree alone and answer by the place of a node only. A walk with such a
visitor goes on below a node exactly if the answer there is to continue. So it comes to the
places to which a way leads from the root on which every node is answered so, to each one once
and in the order of the tree.

On the way it takes the items that are to be removed out of the sequences it comes to, however
many there are in a row, and leaves a hole for a node that is to be removed and stands alone.
It changes nothing else.
-/

import JsxFactory.Proofs.Preorder

namespace JsxFactory

open Relation (ReflTransGen TransGen)

/-- The visitor leaves the tree alone, never fails, and answers by the place of a node. -/
def Walk.Visitor.Decides {σ ε : Type} (visitor : Walk.Visitor σ ε)
    (answer : NodeId → Walk.Action) : Prop :=
  ∀ id s, ∃ memory, visitor.enter id s = .ok (answer id) ⟨s.tree, memory⟩

namespace Tree

variable {t t₁ t₂ : Tree} {answer : NodeId → Walk.Action} {id : NodeId} {list : ListId}
  {place : Place} {places met below footprint : List Place} {parts : List Part}

/-! ## The places that a walk comes to -/

/-- The places to which a walk goes on from a place: what a sequence holds, and what a node
holds if the answer there is to continue. -/
def onward (t : Tree) (answer : NodeId → Walk.Action) : Place → List Place
  | .node id => if answer id = .continue then (t.node id).edges else []
  | .list list => (t.list list).map .node

/-- A walk goes on from one place to another. -/
def Passes (t : Tree) (answer : NodeId → Walk.Action) (holder held : Place) : Prop :=
  held ∈ t.onward answer holder

theorem onward_of_continue (goesOn : answer id = .continue) :
    t.onward answer (.node id) = (t.node id).edges :=
  if_pos goesOn

theorem onward_of_stop (stops : answer id ≠ .continue) : t.onward answer (.node id) = [] :=
  if_neg stops

namespace Passes

variable {holder held : Place}

theorem continue_eq (passes : t.Passes answer (.node id) held) : answer id = .continue := by
  by_contra stops
  rw [Passes, onward_of_stop stops] at passes
  cases passes

theorem of_continue (goesOn : answer id = .continue) (holds : t.Holds (.node id) held) :
    t.Passes answer (.node id) held := by
  rw [Passes, onward_of_continue goesOn]
  exact holds

theorem holds (passes : t.Passes answer holder held) : t.Holds holder held := by
  cases holder with
  | list => exact passes
  | node id =>
    have goesOn := passes.continue_eq
    rw [Passes, onward_of_continue goesOn] at passes
    exact passes

end Passes

/-- Starting from some places, a walk comes to others, to each one before those it goes on to
from there, and to these before those beside it. -/
inductive Meets (t : Tree) (answer : NodeId → Walk.Action) : List Place → List Place → Prop
  | nil : Meets t answer [] []
  | cons {place : Place} {places below rest : List Place} :
    Meets t answer (t.onward answer place) below →
    Meets t answer places rest →
    Meets t answer (place :: places) (place :: (below ++ rest))

/-- A walk keeps to the footprint and to its order. -/
theorem Represents.exists_meets (represents : t.Represents places parts footprint)
    (answer : NodeId → Walk.Action) : ∃ met, t.Meets answer places met ∧ met.Sublist footprint := by
  induction represents with
  | nil => exact ⟨[], .nil, .slnil⟩
  | @node id _ _ _ below rest _ _ ihBelow ihRest =>
    obtain ⟨metRest, meetsRest, sublistRest⟩ := ihRest
    by_cases goesOn : answer id = .continue
    · obtain ⟨metBelow, meetsBelow, sublistBelow⟩ := ihBelow
      rw [← onward_of_continue goesOn] at meetsBelow
      exact ⟨_, .cons meetsBelow meetsRest, (sublistBelow.append sublistRest).cons_cons _⟩
    · have meetsBelow : t.Meets answer (t.onward answer (.node id)) [] := by
        rw [onward_of_stop goesOn]
        exact .nil
      have sublist := sublistRest.trans (List.sublist_append_right below rest)
      exact ⟨_, .cons meetsBelow meetsRest, sublist.cons_cons _⟩
  | list _ _ ihBelow ihRest =>
    obtain ⟨metRest, meetsRest, sublistRest⟩ := ihRest
    obtain ⟨metBelow, meetsBelow, sublistBelow⟩ := ihBelow
    exact ⟨_, .cons meetsBelow meetsRest, (sublistBelow.append sublistRest).cons_cons _⟩

namespace Meets

theorem subset (meets : t.Meets answer places met) : places ⊆ met := by
  induction meets with
  | nil => exact List.Subset.refl _
  | cons _ _ _ ih => exact List.cons_subset_cons _ (List.subset_append_of_subset_right _ ih)

theorem mem_of_passes (meets : t.Meets answer places met) {holder held : Place}
    (mem : holder ∈ met) (passes : t.Passes answer holder held) : held ∈ met := by
  induction meets with
  | nil => cases mem
  | cons meetsBelow _ ihBelow ihRest =>
    simp only [List.mem_cons, List.mem_append] at mem ⊢
    obtain rfl | mem | mem := mem
    · exact .inr (.inl (meetsBelow.subset passes))
    · exact .inr (.inl (ihBelow mem))
    · exact .inr (.inr (ihRest mem))

/-- A walk comes exactly to the places to which there is a way. -/
theorem mem_iff (meets : t.Meets answer places met) :
    place ∈ met ↔ ∃ origin ∈ places, ReflTransGen (t.Passes answer) origin place := by
  constructor
  · intro mem
    induction meets with
    | nil => cases mem
    | @cons first places _ _ _ _ ihBelow ihRest =>
      simp only [List.mem_cons, List.mem_append] at mem
      obtain rfl | mem | mem := mem
      · exact ⟨place, List.mem_cons_self, .refl⟩
      · obtain ⟨next, passes, way⟩ := ihBelow mem
        exact ⟨first, List.mem_cons_self, .head passes way⟩
      · obtain ⟨origin, memPlaces, way⟩ := ihRest mem
        exact ⟨origin, List.mem_cons_of_mem _ memPlaces, way⟩
  · rintro ⟨origin, mem, way⟩
    induction way with
    | refl => exact meets.subset mem
    | tail _ passes ih => exact meets.mem_of_passes ih passes

/-- Each node that a walk starts from is one that it comes to. -/
theorem length_le_nodeCount {ids : List NodeId} (meets : t.Meets answer (ids.map .node) met) :
    ids.length ≤ nodeCount met := by
  induction ids generalizing met with
  | nil => exact Nat.zero_le _
  | cons id ids ih =>
    cases meets with
    | cons _ rest =>
      have others := ih rest
      rw [List.length_cons, nodeCount, nodeCount_append]
      omega

end Meets

/-- What is held by two places that are reached is held by one. -/
theorem Owned.holder_unique (owned : t.Owned) {holder other held : Place}
    (reached : t.Reachable holder) (reached' : t.Reachable other) (holds : t.Holds holder held)
    (holds' : t.Holds other held) : holder = other := by
  have ne : held ≠ .node t.root := by
    rintro rfl
    exact owned.not_holds_root reached holds
  obtain ⟨_, _, unique⟩ := owned.one_holder held (reached.tail holds) ne
  exact (unique holder ⟨reached, holds⟩).trans (unique other ⟨reached', holds'⟩).symm

/-- In an owned tree there is a way to the places above which every node is answered to
continue. -/
theorem Owned.way_iff (owned : t.Owned) :
    ReflTransGen (t.Passes answer) (.node t.root) place ↔
      t.Reachable place ∧ ∀ above, t.Reachable (.node above) →
        TransGen t.Holds (.node above) place → answer above = .continue := by
  have reached_of_way : ∀ {place}, ReflTransGen (t.Passes answer) (.node t.root) place →
      t.Reachable place := ReflTransGen.mono (fun _ _ => Passes.holds) _ _
  constructor
  · intro way
    refine ⟨reached_of_way way, fun above reached isAbove => ?_⟩
    induction way with
    | refl => exact absurd (TransGen.trans_right reached isAbove) (owned.acyclic _ .refl)
    | @tail holder held way passes ih =>
      -- Whatever is above the place is its one holder, or above that.
      obtain ⟨last, steps, holds⟩ := TransGen.tail'_iff.mp isAbove
      obtain rfl : last = holder :=
        owned.holder_unique (reached.trans steps) (reached_of_way way) holds passes.holds
      obtain rfl | isAbove := Relation.reflTransGen_iff_eq_or_transGen.mp steps
      · exact passes.continue_eq
      · exact ih isAbove
  · rintro ⟨reachable, allContinue⟩
    induction reachable with
    | refl => exact .refl
    | @tail holder held reached holds ih =>
      have way := ih fun above reachedAbove isAbove =>
        allContinue above reachedAbove (isAbove.tail holds)
      refine way.tail ?_
      cases holder with
      | list => exact holds
      | node id => exact .of_continue (allContinue id reached (.single holds)) holds

/-- The way to a sequence is over a node that holds it. -/
theorem way_list_iff {origin : NodeId} :
    ReflTransGen (t.Passes answer) (.node origin) (.list list) ↔
      ∃ id, ReflTransGen (t.Passes answer) (.node origin) (.node id) ∧ answer id = .continue ∧
        t.Holds (.node id) (.list list) := by
  constructor
  · intro way
    obtain same | ⟨holder, way, passes⟩ := way.cases_tail
    · cases same
    · cases holder with
      | node id => exact ⟨id, way, passes.continue_eq, passes.holds⟩
      | list => simp [Passes, onward] at passes
  · rintro ⟨id, way, goesOn, holds⟩
    exact way.tail (.of_continue goesOn holds)

/-! ## Pruned trees -/

/-- Whether a node stands alone: as the root, or in a field of a node that is reached. -/
def Alone (t : Tree) (id : NodeId) : Prop :=
  id = t.root ∨ ∃ holder, t.Reachable (.node holder) ∧ t.Holds (.node holder) (.node id)

/-- The second tree is the first without the items that are to be removed, in some sequences,
and with holes instead of some nodes. -/
structure Pruned (t : Tree) (answer : NodeId → Walk.Action) (stripped : ListId → Prop)
    (vacated : NodeId → Prop) (t₁ : Tree) : Prop where
  root_eq : t₁.root = t.root
  nodes_size : t₁.nodes.size = t.nodes.size
  lists_size : t₁.lists.size = t.lists.size
  list_stripped : ∀ list, stripped list →
    t₁.list list = (t.list list).filter (answer · ≠ .remove)
  list_kept : ∀ list, ¬ stripped list → t₁.list list = t.list list
  node_vacated : ∀ id, vacated id → t₁.node id = .hole
  node_kept : ∀ id, ¬ vacated id → t₁.node id = t.node id

section Pruned

variable {stripped stripped₁ : ListId → Prop} {vacated vacated₁ : NodeId → Prop}

theorem Pruned.refl (t : Tree) (answer : NodeId → Walk.Action) :
    t.Pruned answer (fun _ => False) (fun _ => False) t where
  root_eq := rfl
  nodes_size := rfl
  lists_size := rfl
  list_stripped _ none := none.elim
  list_kept _ _ := rfl
  node_vacated _ none := none.elim
  node_kept _ _ := rfl

/-- Pruning twice is pruning here and there. What is done already is not undone. -/
theorem Pruned.trans (first : t.Pruned answer stripped vacated t₁)
    (second : t₁.Pruned answer stripped₁ vacated₁ t₂) :
    t.Pruned answer (fun list => stripped list ∨ stripped₁ list)
      (fun id => vacated id ∨ vacated₁ id) t₂ where
  root_eq := second.root_eq.trans first.root_eq
  nodes_size := second.nodes_size.trans first.nodes_size
  lists_size := second.lists_size.trans first.lists_size
  list_stripped list here := by
    by_cases there : stripped₁ list
    · rw [second.list_stripped list there]
      by_cases here : stripped list
      · rw [first.list_stripped list here, List.filter_filter]
        simp only [Bool.and_self]
      · rw [first.list_kept list here]
    · rw [second.list_kept list there, first.list_stripped list (here.resolve_right there)]
  list_kept list nowhere := by
    rw [second.list_kept list fun there => nowhere (.inr there),
      first.list_kept list fun here => nowhere (.inl here)]
  node_vacated id here := by
    by_cases there : vacated₁ id
    · exact second.node_vacated id there
    · rw [second.node_kept id there, first.node_vacated id (here.resolve_right there)]
  node_kept id nowhere := by
    rw [second.node_kept id fun there => nowhere (.inr there),
      first.node_kept id fun here => nowhere (.inl here)]

theorem Pruned.congr (pruned : t.Pruned answer stripped vacated t₁)
    (lists : ∀ list, stripped list ↔ stripped₁ list) (nodes : ∀ id, vacated id ↔ vacated₁ id) :
    t.Pruned answer stripped₁ vacated₁ t₁ := by
  obtain rfl : stripped = stripped₁ := funext fun list => propext (lists list)
  obtain rfl : vacated = vacated₁ := funext fun id => propext (nodes id)
  exact pruned

theorem Pruned.contains (pruned : t.Pruned answer stripped vacated t₁)
    (inside : t.Contains place) : t₁.Contains place := by
  cases place with
  | node id => exact Nat.lt_of_lt_of_eq inside pruned.nodes_size.symm
  | list id => exact Nat.lt_of_lt_of_eq inside pruned.lists_size.symm

/-- A sequence that is left alone may be overwritten before or after. -/
theorem Pruned.setList (pruned : t.Pruned answer stripped vacated t₁) (kept : ¬ stripped list)
    (inside : t.Contains (.list list)) (items : List NodeId) :
    (t.setList list items).Pruned answer stripped vacated (t₁.setList list items) where
  root_eq := pruned.root_eq
  nodes_size := pruned.nodes_size
  lists_size := by simpa [Tree.setList] using pruned.lists_size
  list_stripped other here := by
    have ne : other ≠ list := by
      rintro rfl
      exact kept here
    rw [list_setList_of_ne ne, list_setList_of_ne ne, pruned.list_stripped other here]
  list_kept other nowhere := by
    have inside₁ := pruned.contains inside
    by_cases same : other = list
    · subst same
      rw [list_setList inside, list_setList inside₁]
    · rw [list_setList_of_ne same, list_setList_of_ne same, pruned.list_kept other nowhere]
  node_vacated := pruned.node_vacated
  node_kept := pruned.node_kept

/-- A node that is taken out of a single place leaves a hole. -/
theorem pruned_replace (inside : t.Contains (.node id)) :
    t.Pruned answer (fun _ => False) (· = id) (t.replace id .hole) where
  root_eq := rfl
  nodes_size := by simp [Tree.replace]
  lists_size := rfl
  list_stripped _ none := none.elim
  list_kept _ _ := rfl
  node_vacated other same := by rw [same, node_replace inside]
  node_kept other ne := node_replace_of_ne ne _

theorem pruned_setList (inside : t.Contains (.list list)) :
    t.Pruned answer (· = list) (fun _ => False)
      (t.setList list ((t.list list).filter (answer · ≠ .remove))) where
  root_eq := rfl
  nodes_size := rfl
  lists_size := by simp [Tree.setList]
  list_stripped other same := by rw [same, list_setList inside]
  list_kept other ne := list_setList_of_ne ne _
  node_vacated _ none := none.elim
  node_kept _ _ := rfl

theorem setList_setList (t : Tree) (list : ListId) (items others : List NodeId) :
    (t.setList list items).setList list others = t.setList list others := by
  simp [Tree.setList]

theorem setList_eq_self (t : Tree) (list : ListId) : t.setList list (t.list list) = t := by
  have same : t.lists.setIfInBounds list.index (t.list list) = t.lists := by
    apply Array.ext
    · exact Array.size_setIfInBounds
    · intro i _ inside
      rw [Array.getElem_setIfInBounds inside]
      split
      · rename_i here
        subst here
        simp [Tree.list, Array.getD_eq_getD_getElem?, inside]
      · rfl
  exact congrArg (fun lists => { t with lists }) same

end Pruned

/-- What stands in a sequence does not stand alone. -/
theorem Owned.not_alone (owned : t.Owned) (reached : t.Reachable (.list list))
    (mem : id ∈ t.list list) : ¬ t.Alone id := by
  have holds : t.Holds (.list list) (.node id) := List.mem_map_of_mem mem
  rintro (rfl | ⟨holder, reachedHolder, holds'⟩)
  · exact owned.not_holds_root reached holds
  · cases owned.holder_unique reached reachedHolder holds holds'

end Tree

/-! ## The walk -/

namespace Walk

open Desugar (run_bind tree_bind)
open JsxFactory.Tree (Meets Pruned nodeIds nodeCount)

variable {σ ε α β : Type} {t : Tree} {answer : NodeId → Action} {id : NodeId} {list : ListId}
  {places met below : List Place} {s s₁ s₂ : State (Logged σ)}

/-- Places that a walk of the first tree is still to come to: it has changed nothing there. -/
structure Ahead (t now : Tree) (met : List Place) : Prop where
  nodup : met.Nodup
  reached : ∀ place ∈ met, t.Reachable place
  inside : ∀ place ∈ met, now.Contains place
  same : ∀ place ∈ met, t.SameAt now place

namespace Ahead

variable {now : Tree} {others footprint : List Place} {parts : List Part}

/-- At first nothing is changed anywhere. -/
theorem start (owns : t.Owns [.node t.root] parts footprint) (sublist : met.Sublist footprint) :
    Ahead t t met where
  nodup := sublist.nodup owns.nodup
  reached place mem :=
    owns.represents.reached_of_mem (by simp [ReflTransGen.refl]) (sublist.subset mem)
  inside place mem := owns.inside place (sublist.subset mem)
  same place _ := by cases place <;> rfl

theorem sublist (ahead : Ahead t now met) (sublist : others.Sublist met) : Ahead t now others where
  nodup := sublist.nodup ahead.nodup
  reached place mem := ahead.reached place (sublist.subset mem)
  inside place mem := ahead.inside place (sublist.subset mem)
  same place mem := ahead.same place (sublist.subset mem)

theorem left (ahead : Ahead t now (met ++ others)) : Ahead t now met :=
  ahead.sublist (List.sublist_append_left ..)

/-- A sequence that is not ahead may be overwritten. -/
theorem setList (ahead : Ahead t now met) (outside : .list list ∉ met) (items : List NodeId) :
    Ahead t (now.setList list items) met where
  nodup := ahead.nodup
  reached := ahead.reached
  inside place mem := by
    cases place with
    | node id => exact ahead.inside _ mem
    | list other => simpa [Tree.Contains, Tree.setList] using ahead.inside _ mem
  same place mem := by
    cases place with
    | node id => exact ahead.same _ mem
    | list other =>
      have ne : other ≠ list := by
        rintro rfl
        exact outside mem
      exact (Tree.list_setList_of_ne ne items).trans (ahead.same _ mem)

end Ahead

/-- Between the two states the walk has entered the nodes among some places, and has pruned the
tree at some places. -/
structure Prunes (t : Tree) (answer : NodeId → Action) (entered met : List Place)
    (s s₁ : State (Logged σ)) : Prop where
  entered_eq : s₁.memory.entered = s.memory.entered ++ nodeIds entered
  pruned : s.tree.Pruned answer (fun list => .list list ∈ met)
    (fun id => .node id ∈ met ∧ answer id = .remove ∧ t.Alone id) s₁.tree

namespace Prunes

variable {entered entered₁ met₁ : List Place}

theorem refl (t : Tree) (answer : NodeId → Action) (s : State (Logged σ)) :
    Prunes t answer [] [] s s where
  entered_eq := (List.append_nil _).symm
  pruned := (Pruned.refl s.tree answer).congr (by simp) (by simp)

theorem trans (first : Prunes t answer entered met s s₁)
    (second : Prunes t answer entered₁ met₁ s₁ s₂) :
    Prunes t answer (entered ++ entered₁) (met ++ met₁) s s₂ where
  entered_eq := by
    rw [second.entered_eq, first.entered_eq, List.append_assoc]
    simp [nodeIds]
  pruned := (first.pruned.trans second.pruned).congr (by simp) (by simp [or_and_right])

/-- A node that stays is pruned when all below it is, and so is one that is to be taken out of a
sequence. -/
theorem node (prunes : Prunes t answer entered met s s₁)
    (stays : answer id = .remove → ¬ t.Alone id) :
    Prunes t answer entered (.node id :: met) s s₁ where
  entered_eq := prunes.entered_eq
  pruned := by
    refine prunes.pruned.congr (by simp) fun other => ?_
    have ne : answer other = .remove ∧ t.Alone other → other ≠ id := by
      rintro ⟨removed, alone⟩ rfl
      exact stays removed alone
    rw [List.mem_cons, Edge.node.injEq]
    tauto

/-- A node that stands alone and is to be removed is pruned when a hole is left for it. -/
theorem leaveHole (prunes : Prunes t answer entered met s s₁) (removed : answer id = .remove)
    (alone : t.Alone id) (inside : s.tree.Contains (.node id)) :
    Prunes t answer entered (met ++ [.node id]) s ⟨s₁.tree.replace id .hole, s₁.memory⟩ where
  entered_eq := prunes.entered_eq
  pruned := by
    have both := prunes.pruned.trans (Tree.pruned_replace (prunes.pruned.contains inside))
    refine both.congr (by simp) fun other => ?_
    constructor
    · rintro (⟨mem, vacated⟩ | rfl)
      · exact ⟨List.mem_append_left _ mem, vacated⟩
      · exact ⟨by simp, removed, alone⟩
    · rintro ⟨mem, vacated⟩
      obtain mem | mem := List.mem_append.mp mem
      · exact .inl ⟨mem, vacated⟩
      · exact .inr (Edge.node.inj (List.mem_singleton.mp mem))

/-- A sequence is pruned when its items that are to be removed are out of it. -/
theorem strip (s : State (Logged σ)) (inside : s.tree.Contains (.list list)) :
    Prunes t answer [.list list] [.list list] s
      ⟨s.tree.setList list ((s.tree.list list).filter (answer · ≠ .remove)), s.memory⟩ where
  entered_eq := (List.append_nil _).symm
  pruned := (Tree.pruned_setList inside).congr (by simp) (by simp)

/-- A sequence to which the walk has not come may be overwritten before or after. -/
theorem setList (prunes : Prunes t answer entered met s s₁) (outside : .list list ∉ met)
    (inside : s.tree.Contains (.list list)) (items : List NodeId) :
    Prunes t answer entered met ⟨s.tree.setList list items, s.memory⟩
      ⟨s₁.tree.setList list items, s₁.memory⟩ where
  entered_eq := prunes.entered_eq
  pruned := prunes.pruned.setList outside inside items

/-- What the walk is still to come to is where it has not yet been. -/
theorem ahead (prunes : Prunes t answer entered met s s₁)
    (ahead : Ahead t s.tree (met ++ met₁)) : Ahead t s₁.tree met₁ where
  nodup := (List.nodup_append'.mp ahead.nodup).2.1
  reached place mem := ahead.reached place (List.mem_append_right _ mem)
  inside place mem := prunes.pruned.contains (ahead.inside place (List.mem_append_right _ mem))
  same place mem := by
    have outside : place ∉ met := fun memMet =>
      (List.nodup_append'.mp ahead.nodup).2.2 memMet mem
    refine (ahead.same place (List.mem_append_right _ mem)).trans ?_
    cases place with
    | node id => exact prunes.pruned.node_kept id fun vacated => outside vacated.1
    | list list => exact prunes.pruned.list_kept list outside

end Prunes

/-- Visiting a node with what is below it comes to both and prunes what is below. The node itself
is left to the caller. -/
def Visits (t : Tree) (answer : NodeId → Action) (visit : NodeId → Run (Logged σ) ε Action)
    (fuel : Nat) : Prop :=
  ∀ ⦃id : NodeId⦄ ⦃below : List Place⦄ ⦃s : State (Logged σ)⦄,
    t.Meets answer (t.onward answer (.node id)) below → Ahead t s.tree (.node id :: below) →
    nodeCount (.node id :: below) < fuel →
    ∃ s₁, visit id s = .ok (answer id) s₁ ∧ Prunes t answer (.node id :: below) below s s₁

variable {visit : NodeId → Run (Logged σ) ε Action} {fuel : Nat}

/-- A walk along a sequence prunes its items and keeps those that are not to be removed. The
index is the number of items that were passed and kept. -/
theorem visitList_prunes (visits : Visits t answer visit fuel) (owned : t.Owned)
    (reached : t.Reachable (.list list)) {passed ids : List NodeId} {steps : Nat}
    (meets : t.Meets answer (ids.map .node) met) (ahead : Ahead t s.tree met)
    (subset : ids ⊆ t.list list) (outside : .list list ∉ met)
    (inside : s.tree.Contains (.list list)) (found : s.tree.list list = passed ++ ids)
    (enough : nodeCount met < fuel) (short : ids.length < steps) :
    ∃ s₁, visitList visit list steps passed.length s = .ok () s₁ ∧
      Prunes t answer met met
        ⟨s.tree.setList list (passed ++ ids.filter (answer · ≠ .remove)), s.memory⟩ s₁ := by
  -- The tree varies from step to step, but not at the items that are still ahead.
  induction ids generalizing s passed steps met with
  | nil =>
    obtain ⟨steps, rfl⟩ : ∃ less, steps = less + 1 := ⟨steps - 1, by omega⟩
    cases meets
    refine ⟨s, ?_, ?_⟩
    · rw [visitList, tree_bind, found, List.getElem?_append_right (Nat.le_refl _)]
      rfl
    · rw [List.filter_nil, ← found, Tree.setList_eq_self]
      exact .refl t answer s
  | cons id ids ih =>
    obtain ⟨steps, rfl⟩ : ∃ less, steps = less + 1 := ⟨steps - 1, by omega⟩
    obtain ⟨mem, subset⟩ := List.cons_subset.mp subset
    cases meets with
    | @cons _ _ below rest meetsBelow meetsRest =>
      rw [← List.cons_append, List.mem_append, not_or] at outside
      rw [← List.cons_append, Tree.nodeCount_append] at enough
      rw [List.length_cons] at short
      obtain ⟨s₁, ran, visited⟩ := visits meetsBelow ahead.left (by omega)
      have item : Prunes t answer (.node id :: below) (.node id :: below) s s₁ :=
        visited.node fun _ => owned.not_alone reached mem
      have aheadRest : Ahead t s₁.tree rest := item.ahead ahead
      have inside₁ := item.pruned.contains inside
      -- The visit did not change the sequence that holds the item.
      have found₁ : s₁.tree.list list = passed ++ id :: ids :=
        (item.pruned.list_kept list outside.1).trans found
      have enoughRest : nodeCount rest < fuel := by omega
      have shortRest : ids.length < steps := Nat.lt_of_succ_lt_succ short
      rw [visitList, tree_bind, found, List.getElem?_append_right (Nat.le_refl _), Nat.sub_self]
      cases answered : answer id with
      | remove =>
        -- The next item is now at the same index.
        have dropped : (id :: ids).filter (answer · ≠ .remove) = ids.filter (answer · ≠ .remove) :=
          List.filter_cons_of_neg (by simp [answered])
        have removed := Tree.rebuilds_setList inside₁ ((s₁.tree.list list).eraseIdx passed.length)
        obtain ⟨s₂, ranRest, prunesRest⟩ := ih
          (s := ⟨s₁.tree.removeItem list passed.length, s₁.memory⟩) meetsRest
          (aheadRest.setList outside.2 _) subset outside.2 (removed.contains inside₁)
          (Desugar.list_removeItem inside₁ found₁) enoughRest shortRest
        rw [Tree.removeItem, Tree.setList_setList] at prunesRest
        rw [answered] at ran
        rw [dropped]
        exact ⟨s₂, (run_bind ran).trans ranRest, (item.setList outside.1 inside _).trans prunesRest⟩
      | «continue» | skip =>
        have kept : passed ++ (id :: ids).filter (answer · ≠ .remove) =
            (passed ++ [id]) ++ ids.filter (answer · ≠ .remove) := by simp [answered]
        have found₂ : s₁.tree.list list = (passed ++ [id]) ++ ids := by simp [found₁]
        obtain ⟨s₂, ranRest, prunesRest⟩ :=
          ih meetsRest aheadRest subset outside.2 inside₁ found₂ enoughRest shortRest
        rw [List.length_append] at ranRest
        rw [answered] at ran
        rw [kept]
        exact ⟨s₂, (run_bind ran).trans ranRest, (item.setList outside.1 inside _).trans prunesRest⟩

/-- A walk along the children of a node prunes them. -/
theorem visitEdges_prunes (visits : Visits t answer visit fuel) (owned : t.Owned)
    (meets : t.Meets answer places met) (ahead : Ahead t s.tree met)
    (alone : ∀ id, .node id ∈ places → t.Alone id) (enough : nodeCount met < fuel) :
    ∃ s₁, visitEdges visit fuel places s = .ok () s₁ ∧ Prunes t answer met met s s₁ := by
  induction places generalizing s met with
  | nil =>
    cases meets
    exact ⟨s, rfl, .refl t answer s⟩
  | cons place places ih =>
    cases meets with
    | @cons _ _ below rest meetsBelow meetsRest =>
      rw [← List.cons_append, Tree.nodeCount_append] at enough
      have aloneRest : ∀ id, .node id ∈ places → t.Alone id := fun id mem =>
        alone id (List.mem_cons_of_mem _ mem)
      -- However the first place was pruned, the others come next.
      have goOn : ∀ {s₁}, Prunes t answer (place :: below) (place :: below) s s₁ →
          ∃ s₂, visitEdges visit fuel places s₁ = .ok () s₂ ∧
            Prunes t answer (place :: (below ++ rest)) (place :: (below ++ rest)) s s₂ := by
        intro s₁ prunes
        obtain ⟨s₂, ran, prunesRest⟩ :=
          ih meetsRest (prunes.ahead ahead) aloneRest (by omega)
        exact ⟨s₂, ran, prunes.trans prunesRest⟩
      have here := ahead.reached place List.mem_cons_self
      cases place with
      | node id =>
        obtain ⟨s₁, ran, prunes⟩ := visits meetsBelow ahead.left (by omega)
        cases answered : answer id with
        | remove =>
          -- Nothing below the node was walked, and the node itself gives way to a hole.
          rw [Tree.onward_of_stop (by simp [answered])] at meetsBelow
          cases meetsBelow
          have inside := ahead.inside _ List.mem_cons_self
          have vacated := prunes.leaveHole answered (alone id List.mem_cons_self) inside
          obtain ⟨s₂, ranRest, prunesAll⟩ := goOn vacated
          rw [answered] at ran
          exact ⟨s₂, (run_bind ran).trans ranRest, prunesAll⟩
        | «continue» | skip =>
          obtain ⟨s₂, ranRest, prunesAll⟩ := goOn (prunes.node (by simp [answered]))
          rw [answered] at ran
          exact ⟨s₂, (run_bind ran).trans ranRest, prunesAll⟩
      | list list =>
        rw [nodeCount] at enough
        have inside := ahead.inside _ List.mem_cons_self
        have same : s.tree.list list = t.list list := ahead.same _ List.mem_cons_self
        have found : s.tree.list list = [] ++ t.list list := same
        have outside : .list list ∉ below := (List.nodup_cons.mp ahead.left.nodup).1
        have aheadBelow := ahead.left.sublist (List.sublist_cons_self ..)
        have short : (t.list list).length < fuel :=
          Nat.lt_of_le_of_lt meetsBelow.length_le_nodeCount (by omega)
        obtain ⟨s₁, ran, prunes⟩ := visitList_prunes visits owned here meetsBelow aheadBelow
          (List.Subset.refl _) outside inside found (by omega) short
        rw [← same] at prunes
        obtain ⟨s₂, ranRest, prunesAll⟩ := goOn ((Prunes.strip s inside).trans prunes)
        exact ⟨s₂, (run_bind ran).trans ranRest, prunesAll⟩

variable {visitor : Visitor σ ε}

/-- Entering a node changes nothing but what is remembered. -/
theorem enter_prunes (decides : visitor.Decides answer) (t : Tree) (id : NodeId)
    (s : State (Logged σ)) :
    ∃ s₁, (visitor.logging.enter id).adaptExcept Stop.failed s = .ok (answer id) s₁ ∧
      s₁.tree = s.tree ∧ Prunes t answer [.node id] [] s s₁ := by
  obtain ⟨memory, entered⟩ := decides id s.unlogged
  refine ⟨⟨s.tree, memory, s.memory.entered ++ [id]⟩, ?_, rfl, rfl, ?_⟩
  · simp only [EStateM.adaptExcept, Visitor.logging]
    rw [entered]
    rfl
  · exact (Prunes.refl t answer s).pruned

/-- Visiting a node comes to the places to which there is a way below it, given enough fuel. -/
theorem visit_prunes (decides : visitor.Decides answer) (owned : t.Owned) (fuel : Nat) :
    Visits t answer (Walk.visit visitor.logging fuel) fuel := by
  induction fuel with
  | zero => exact fun _ _ _ _ _ enough => absurd enough (Nat.not_lt_zero _)
  | succ fuel ih =>
    intro id below s meets ahead enough
    rw [nodeCount] at enough
    obtain ⟨s₁, ran, sameTree, enters⟩ := enter_prunes decides t id s
    rw [Walk.visit]
    cases answered : answer id with
    | «continue» =>
      rw [Tree.onward_of_continue answered] at meets
      have here := ahead.reached _ List.mem_cons_self
      have alone : ∀ child, .node child ∈ (t.node id).edges → t.Alone child :=
        fun child mem => .inr ⟨id, here, mem⟩
      have sameNode : s₁.tree.node id = t.node id := sameTree ▸ ahead.same _ List.mem_cons_self
      have aheadBelow := enters.ahead (ahead.sublist (List.sublist_cons_self ..))
      obtain ⟨s₂, ranBelow, prunes⟩ :=
        visitEdges_prunes ih owned meets aheadBelow alone (Nat.lt_of_succ_lt_succ enough)
      rw [← sameNode] at ranBelow
      rw [answered] at ran
      exact ⟨s₂, (run_bind ran).trans (run_bind ranBelow), enters.trans prunes⟩
    | skip | remove =>
      rw [Tree.onward_of_stop (by simp [answered])] at meets
      cases meets
      rw [answered] at ran
      exact ⟨s₁, run_bind ran, enters⟩

/-- The walk from the root prunes the tree at the places it comes to. -/
theorem walk_prunes (decides : visitor.Decides answer) (owned : t.Owned)
    (meets : t.Meets answer [.node t.root] met) (ahead : Ahead t t met)
    (enough : nodeCount met < fuel) (memory : σ) :
    ∃ s₁, walk visitor.logging fuel ⟨t, memory, []⟩ = .ok () s₁ ∧
      Prunes t answer met met ⟨t, memory, []⟩ s₁ := by
  have visits := visit_prunes decides owned fuel
  cases meets with
  | cons meetsBelow none =>
    cases none
    rw [List.append_nil] at ahead enough ⊢
    obtain ⟨s₁, ran, prunes⟩ := visits (s := ⟨t, memory, []⟩) meetsBelow ahead enough
    rw [walk, tree_bind]
    cases answered : answer t.root with
    | remove =>
      rw [Tree.onward_of_stop (by simp [answered])] at meetsBelow
      cases meetsBelow
      rw [answered] at ran
      have inside := ahead.inside _ List.mem_cons_self
      exact ⟨_, run_bind ran, prunes.leaveHole answered (.inl rfl) inside⟩
    | «continue» | skip =>
      rw [answered] at ran
      exact ⟨s₁, run_bind ran, prunes.node (by simp [answered])⟩

end Walk

namespace Tree

variable {σ ε : Type} {visitor : Walk.Visitor σ ε} {t : Tree} {answer : NodeId → Walk.Action}

/-- A walk of an owned tree with a visitor that only decides ends, given fuel for as many nodes
as there are, and always in the same way. It enters the nodes above which every node is answered
to continue, each of them once and in the order of the tree. It leaves a tree without the items
that are to be removed, in the sequences of the nodes it entered and went on from, and with a
hole for each node it entered that is to be removed and stands alone. All else stays. -/
theorem walk_deciding (decides : visitor.Decides answer) (owned : t.Owned) (memory : σ) :
    ∃ t' memory' entered,
      (∀ fuel, t.nodes.size < fuel →
        Walk.walk visitor fuel ⟨t, memory⟩ = .ok () ⟨t', memory'⟩ ∧
        Walk.walk visitor.logging fuel ⟨t, memory, []⟩ = .ok () ⟨t', memory', entered⟩) ∧
      entered.Nodup ∧
      (∀ depth, t.nodes.size ≤ depth → entered.Sublist (t.preorder depth t.root)) ∧
      (∀ id, id ∈ entered ↔ t.Reachable (.node id) ∧ ∀ above, t.Reachable (.node above) →
        TransGen t.Holds (.node above) (.node id) → answer above = .continue) ∧
      t.Pruned answer
        (fun list => ∃ id ∈ entered, answer id = .continue ∧ t.Holds (.node id) (.list list))
        (fun id => id ∈ entered ∧ answer id = .remove ∧ t.Alone id) t' := by
  obtain ⟨term, footprint, owns⟩ := owned.exists_owns
  obtain ⟨met, meets, sublist⟩ := owns.represents.exists_meets answer
  have way : ∀ {place}, place ∈ met ↔ ReflTransGen (t.Passes answer) (.node t.root) place := by
    intro place
    rw [meets.mem_iff]
    simp
  have ahead : Walk.Ahead t t met := .start owns sublist
  have count : nodeCount met ≤ t.nodes.size := nodeCount_le_size ahead.nodup ahead.inside
  obtain ⟨⟨t', memory', entered⟩, ran, log, pruned⟩ :=
    Walk.walk_prunes decides owned meets ahead (Nat.lt_succ_of_le count) memory
  obtain rfl : entered = nodeIds met := log
  refine ⟨t', memory', nodeIds met, ?ends, ?nodup, ?order, ?precisely, ?pruned⟩
  case ends =>
    intro fuel le
    have logged : Walk.walk visitor.logging fuel ⟨t, memory, []⟩ =
        .ok () ⟨t', memory', nodeIds met⟩ := by
      rw [Walk.walk_eq_of_le _ le (by simp [ran]), ran]
    refine ⟨?_, logged⟩
    have forgets := Walk.walk_forgets visitor fuel ⟨t, memory, []⟩
    rw [logged] at forgets
    exact forgets.symm
  case nodup => exact nodup_nodeIds ahead.nodup
  case order =>
    intro depth enough
    rw [owns.preorder_eq enough]
    exact sublist.filterMap _
  case precisely =>
    intro id
    rw [mem_nodeIds, way, owned.way_iff]
  case pruned =>
    refine pruned.congr (fun list => ?_) fun id => by rw [mem_nodeIds]
    rw [way, way_list_iff]
    simp only [mem_nodeIds, way]

/-- Here the object of the tag's name is removed, and so are the inner element and two texts in a
row; the braces at the end are left out. -/
def sampleAnswer (id : NodeId) : Walk.Action :=
  if id.index ∈ [1, 7, 13, 14] then .remove else if id.index = 16 then .skip else .continue

/-- The visitor that gives the answers of the sample and remembers nothing. -/
def sampleVisitor : Walk.Visitor Unit Empty :=
  ⟨fun id => pure (sampleAnswer id)⟩

/-- The nodes that were entered when a walk of the sample ended. -/
def sampleLog :
    EStateM.Result (Walk.Stop Empty) (Walk.State (Walk.Logged Unit)) Unit → List NodeId
  | .ok _ s | .error _ s => s.memory.entered

theorem walk_deciding_nestedElement :
    sampleVisitor.Decides sampleAnswer ∧ (ofTerm Term.nestedElement).Owned ∧
    ∃ t' entered,
      Walk.walk sampleVisitor 19 ⟨ofTerm Term.nestedElement, ()⟩ = .ok () ⟨t', ()⟩ ∧
      Walk.walk sampleVisitor.logging 19 ⟨ofTerm Term.nestedElement, (), []⟩ =
        .ok () ⟨t', (), entered⟩ ∧
      entered = [17, 3, 1, 2, 10, 4, 9, 8, 5, 7, 12, 11, 13, 14, 16].map NodeId.mk ∧
      t'.list ⟨2⟩ = [] ∧ t'.list ⟨3⟩ = [⟨10⟩, ⟨12⟩] ∧ t'.list ⟨4⟩ = [⟨16⟩] ∧
      t'.node ⟨1⟩ = .hole ∧ (t'.node ⟨13⟩).kind = "JSXText" := by
  have decides : sampleVisitor.Decides sampleAnswer := fun _ s => ⟨s.memory, rfl⟩
  have owned := owned_ofTerm Term.nestedElement
  refine ⟨decides, owned, ?_⟩
  obtain ⟨t', ⟨⟩, entered, ends, _, _, precisely, pruned⟩ := walk_deciding decides owned ()
  obtain ⟨ran, logged⟩ := ends 19 (by decide +kernel)
  have log : sampleLog (Walk.walk sampleVisitor.logging 19 ⟨ofTerm Term.nestedElement, (), []⟩) =
      [17, 3, 1, 2, 10, 4, 9, 8, 5, 7, 12, 11, 13, 14, 16].map NodeId.mk := by
    decide +kernel
  obtain rfl : entered = _ := (congrArg sampleLog logged).symm.trans log
  have call : .list ⟨2⟩ ∈ (ofTerm Term.nestedElement).below (.node ⟨8⟩) := by decide +kernel
  have attributes : .list ⟨3⟩ ∈ (ofTerm Term.nestedElement).below (.node ⟨17⟩) := by
    decide +kernel
  have children : .list ⟨4⟩ ∈ (ofTerm Term.nestedElement).below (.node ⟨17⟩) := by decide +kernel
  have name : .node ⟨1⟩ ∈ (ofTerm Term.nestedElement).below (.node ⟨3⟩) := by decide +kernel
  have reached : ∀ id ∈ [⟨3⟩, ⟨17⟩], (ofTerm Term.nestedElement).Reachable (.node id) :=
    fun id mem => ((precisely id).mp (by revert id; decide)).1
  refine ⟨t', _, ran, logged, rfl, ?_, ?_, ?_, ?_, ?_⟩
  · exact (pruned.list_stripped ⟨2⟩ ⟨⟨8⟩, by decide, by decide, call⟩).trans (by decide +kernel)
  · exact (pruned.list_stripped ⟨3⟩ ⟨⟨17⟩, by decide, by decide, attributes⟩).trans
      (by decide +kernel)
  · exact (pruned.list_stripped ⟨4⟩ ⟨⟨17⟩, by decide, by decide, children⟩).trans
      (by decide +kernel)
  · exact pruned.node_vacated _ ⟨by decide, by decide, .inr ⟨_, reached ⟨3⟩ (by decide), name⟩⟩
  · have inChildren : ⟨13⟩ ∈ (ofTerm Term.nestedElement).list ⟨4⟩ := by decide +kernel
    have reachedChildren := (reached ⟨17⟩ (by decide)).tail children
    have kept := pruned.node_kept ⟨13⟩ fun vacated =>
      owned.not_alone reachedChildren inChildren vacated.2.2
    exact (congrArg Node.kind kept).trans (by decide +kernel)

end Tree

end JsxFactory
