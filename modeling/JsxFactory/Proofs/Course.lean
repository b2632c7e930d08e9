/-
# The course of a desugaring

The course of a walk that desugars an owned tree is laid out as a derivation: the node at
a place is entered, what is then below it is walked, and then what is beside it, each
time on a footprint that nothing else touches. The trail of the course lists the visits
in order. What can be said of a whole walk, of the tree that it leaves, of the nodes that
it enters and of what it counts, is said of courses by induction.
-/

import JsxFactory.Proofs.Logging
import JsxFactory.Proofs.Renewing
import JsxFactory.Proofs.Walking

namespace JsxFactory

namespace Desugar

open JsxFactory.Tree (Builds Owns Represents Rebuilds)

/-! ## Trails -/

/-- A visit: to a node, with what was found there and whether the place stays in the tree,
or to a sequence. -/
inductive Visit
  | node (id : NodeId) (found : Slot) (stays : Bool)
  | list (id : ListId)

namespace Visit

def place : Visit → Place
  | .node id _ _ => .node id
  | .list id => .list id

def id? : Visit → Option NodeId
  | .node id _ _ => some id
  | .list _ => none

def stays : Visit → Bool
  | .node _ _ stays => stays
  | .list _ => true

/-- Whether a node with some property was found. -/
def finds (p : Slot → Bool) : Visit → Bool
  | .node _ found _ => p found
  | .list _ => false

end Visit

/-- The places of a trail. -/
def visited (trail : List Visit) : List Place :=
  trail.map Visit.place

/-- The places of a trail that stay in the tree. -/
def stayed (trail : List Visit) : List Place :=
  (trail.filter Visit.stays).map Visit.place

@[simp] theorem visited_cons (visit : Visit) (trail : List Visit) :
    visited (visit :: trail) = visit.place :: visited trail :=
  rfl

@[simp] theorem visited_append (trail₁ trail₂ : List Visit) :
    visited (trail₁ ++ trail₂) = visited trail₁ ++ visited trail₂ :=
  List.map_append

@[simp] theorem stayed_node (id : NodeId) (found : Slot) (trail : List Visit) :
    stayed (.node id found true :: trail) = .node id :: stayed trail :=
  rfl

@[simp] theorem stayed_list (list : ListId) (trail : List Visit) :
    stayed (.list list :: trail) = .list list :: stayed trail :=
  rfl

@[simp] theorem stayed_append (trail₁ trail₂ : List Visit) :
    stayed (trail₁ ++ trail₂) = stayed trail₁ ++ stayed trail₂ := by
  simp [stayed]

theorem stayed_sublist (trail : List Visit) : (stayed trail).Sublist (visited trail) :=
  List.filter_sublist.map _

/-- The sequence that is walked, if it is one. -/
def held : Option ListId → List Place
  | none => []
  | some list => [.list list]

/-- The course of a walk of places on a footprint. Along a sequence, indentation is
dropped, and elsewhere it leaves a hole. Of the places that are walked some are left. -/
inductive Course (options : Options) :
    Option ListId → Tree → List Place → List Place → Tree → List Place → List Visit → Prop
  | nil {holder : Option ListId} {t : Tree} :
    (∀ place ∈ held holder, t.Contains place) → Course options holder t [] [] t [] []
  | node {holder : Option ListId} {t t₁ t₂ t₃ : Tree} {id : NodeId}
      {below below₁ rest places left : List Place} {trail₁ trail₂ : List Visit} :
    Entered options t id below t₁ below₁ →
    Course options none t₁ below₁ (t₁.node id).edges t₂ (t₁.node id).edges trail₁ →
    Course options holder t₂ rest places t₃ left trail₂ →
    (.node id :: below).Disjoint (held holder ++ rest) →
    (∀ place ∈ held holder ++ rest, t.Contains place) →
    Course options holder t (.node id :: (below ++ rest)) (.node id :: places) t₃
      (.node id :: left) (.node id (t.node id) true :: (trail₁ ++ trail₂))
  | hole {t t₁ : Tree} {id : NodeId} {rest places left : List Place} {trail : List Visit} :
    (t.node id).indents = true → .node id ∉ rest → (∀ place ∈ rest, t.Contains place) →
    Course options none (t.replace id .hole) rest places t₁ left trail →
    Course options none t (.node id :: rest) (.node id :: places) t₁ (.node id :: left)
      (.node id (t.node id) true :: trail)
  | drop {list : ListId} {t t₁ : Tree} {id : NodeId} {index : Nat} {rest places left : List Place}
      {trail : List Visit} :
    (t.list list)[index]? = some id → (t.node id).indents = true → .list list ∉ rest →
    .node id ∉ rest → (∀ place ∈ rest, t.Contains place) →
    Course options (some list) (t.removeItem list index) rest places t₁ left trail →
    Course options (some list) t (.node id :: rest) (.node id :: places) t₁ left
      (.node id (t.node id) false :: trail)
  | list {t t₁ t₂ : Tree} {list : ListId} {below rest places left : List Place}
      {trail₁ trail₂ : List Visit} :
    Course options (some list) t below ((t.list list).map .node) t₁ ((t₁.list list).map .node)
      trail₁ →
    Course options none t₁ rest places t₂ left trail₂ → .list list ∉ below →
    (.list list :: below).Disjoint rest → (∀ place ∈ rest, t.Contains place) →
    Course options none t (.list list :: (below ++ rest)) (.list list :: places) t₂
      (.list list :: left) (.list list :: (trail₁ ++ trail₂))

end Desugar

namespace Tree

variable {t t₁ : Tree}

/-- A place beside a footprint that is rebuilt may be counted in. -/
theorem Rebuilds.cons {old new : List Place} (rebuilds : t.Rebuilds t₁ old new) {place : Place}
    (inside : t.Contains place) (outside : place ∉ old) :
    t.Rebuilds t₁ (place :: old) (place :: new) := by
  have kept : t₁.Rebuilds t₁ [place] [place] :=
    .keep (List.nodup_singleton _) (by simpa using rebuilds.contains inside)
  have both := rebuilds.append kept (by simpa using outside) (by simpa using inside)
  exact (both.mono (by simp)).perm (List.perm_append_singleton _ _)

/-- A change before a footprint is rebuilt may lie inside of it. -/
theorem Rebuilds.before {t₂ : Tree} {old₁ old₂ new₁ new₂ : List Place}
    (first : t.Rebuilds t₁ old₁ new₁) (second : t₁.Rebuilds t₂ old₂ new₂) (subset : old₁ ⊆ old₂) :
    t.Rebuilds t₂ old₂ new₂ where
  nodes_le := Nat.le_trans first.nodes_le second.nodes_le
  lists_le := Nat.le_trans first.lists_le second.lists_le
  root_eq := second.root_eq.trans first.root_eq
  kept place inside outside :=
    (first.kept place inside fun mem => outside (subset mem)).trans
      (second.kept place (first.contains inside) outside)
  inside := second.inside
  source place mem := (second.source place mem).imp_right fun new inside =>
    new (first.contains inside)
  nodup := second.nodup

end Tree

namespace Desugar

open JsxFactory.Tree (Builds Owns Represents Rebuilds)

variable {options : Options} {holder : Option ListId} {t t' : Tree}
  {footprint places left : List Place} {trail : List Visit}

namespace Course

/-- A course rebuilds its footprint into the places that it visits. -/
theorem rebuilds (course : Course options holder t footprint places t' left trail) :
    t.Rebuilds t' (held holder ++ footprint) (held holder ++ visited trail) := by
  induction course with
  | @nil holder t inside =>
    have nodup : (held holder).Nodup := by cases holder <;> simp [held]
    have kept := Rebuilds.keep nodup inside
    rwa [← List.append_nil (held holder)] at kept
  | @node holder t t₁ t₂ t₃ id below below₁ rest places left trail₁ trail₂ entered _ _ disjoint
      inside ihBelow ihRest =>
    have insideNode := entered.rebuilds.inside _ List.mem_cons_self
    have first := entered.rebuilds.trans (ihBelow.cons insideNode entered.outside₁)
    have both := first.append ihRest disjoint inside
    -- The sequence that is walked comes before the node, not after it.
    rw [visited_cons, visited_append]
    exact (both.mono (List.perm_append_comm_assoc _ _ _).subset).perm
      (List.perm_append_comm_assoc _ _ _)
  | @hole t t₁ id rest places left trail indents outside inside _ ih =>
    have contains := Tree.contains_of_sugar (Node.sugar_of_indents indents)
    have changed := Tree.rebuilds_replace contains .hole
    exact changed.append ih (List.singleton_disjoint.mpr outside) inside
  | @drop list t t₁ id index rest places left trail found indents outsideList outside inside _ ih =>
    have contains := Tree.contains_of_sugar (Node.sugar_of_indents indents)
    have containsList := Tree.contains_of_mem (List.mem_of_getElem? found)
    have removed := Tree.rebuilds_setList containsList ((t.list list).eraseIdx index)
    have rest := (removed.before ih (by simp [held])).cons contains (by simp [held, outside])
    exact (rest.mono (List.Perm.swap ..).subset).perm (List.Perm.swap ..)
  | @list t t₁ t₂ list below rest places left trail₁ trail₂ _ _ outside disjoint inside ihBelow
      ihRest =>
    rw [visited_cons, visited_append]
    exact ihBelow.append ihRest disjoint inside

theorem evolves (course : Course options holder t footprint places t' left trail) :
    t.Evolves t' := by
  induction course with
  | nil => exact .refl _
  | node entered _ _ _ _ ihBelow ihRest => exact (entered.enters.evolves.trans ihBelow).trans ihRest
  | hole indents _ _ _ ih =>
    have sugar := Node.sugar_of_indents indents
    exact (Tree.Evolves.replace sugar (by simp [Node.Markup])).trans ih
  | drop found indents _ _ _ _ ih => exact (Tree.Evolves.removeItem found indents).trans ih
  | list _ _ _ _ _ ihBelow ihRest => exact ihBelow.trans ihRest

/-- The places that are left are represented on the places that stay. -/
theorem represents (course : Course options holder t footprint places t' left trail) :
    ∃ results, t'.Represents left results (stayed trail) := by
  induction course with
  | nil => exact ⟨[], .nil⟩
  | @node holder t t₁ t₂ t₃ id below below₁ rest places left trail₁ trail₂ entered courseBelow
      courseRest disjoint inside ihBelow ihRest =>
    obtain ⟨parts, representsBelow⟩ := ihBelow
    obtain ⟨others, representsRest⟩ := ihRest
    have insideNode := entered.rebuilds.inside _ List.mem_cons_self
    have same : t₂.node id = t₁.node id :=
      courseBelow.rebuilds.kept (.node id) insideNode entered.outside₁
    rw [← same] at representsBelow
    have here := Represents.node_iff.mpr ⟨parts, _, rfl, rfl, representsBelow⟩
    -- What is beside the node is walked after it and leaves it alone.
    have under := courseBelow.rebuilds.sublist (stayed_sublist trail₁)
    have first := entered.rebuilds.trans (under.cons insideNode entered.outside₁)
    have stays := Builds.stays here first courseRest.rebuilds disjoint inside
    have both := stays.cons representsRest
    rw [stayed_node, stayed_append]
    exact ⟨_, both⟩
  | @hole t t₁ id rest places left trail indents outside inside course ih =>
    obtain ⟨others, representsRest⟩ := ih
    have contains := Tree.contains_of_sugar (Node.sugar_of_indents indents)
    have hole : (t.replace id .hole).Represents [.node id] [_] [.node id] :=
      Represents.node_iff.mpr ⟨[], [], rfl, rfl, by
        rw [Tree.node_replace contains]
        exact .nil⟩
    have changed := Tree.rebuilds_replace contains .hole
    have stays := Builds.stays hole changed course.rebuilds (List.singleton_disjoint.mpr outside)
      inside
    exact ⟨_, stays.cons representsRest⟩
  | drop _ _ _ _ _ _ ih => exact ih
  | @list t t₁ t₂ list below rest places left trail₁ trail₂ courseBelow courseRest outside disjoint
      inside ihBelow ihRest =>
    obtain ⟨parts, representsBelow⟩ := ihBelow
    obtain ⟨others, representsRest⟩ := ihRest
    obtain ⟨terms, rfl⟩ := representsBelow.exists_terms
    have here := Represents.list_iff.mpr ⟨terms, _, rfl, rfl, representsBelow⟩
    have first := courseBelow.rebuilds.sublist ((stayed_sublist trail₁).cons_cons _)
    have stays := Builds.stays here first courseRest.rebuilds disjoint inside
    have both := stays.cons representsRest
    rw [stayed_list, stayed_append]
    exact ⟨_, both⟩

theorem owns (course : Course options none t footprint places t' left trail) :
    ∃ results, t'.Owns left results (stayed trail) := by
  obtain ⟨results, represents⟩ := course.represents
  have rebuilds := course.rebuilds.sublist (stayed_sublist trail)
  exact ⟨results, represents, rebuilds.nodup, rebuilds.inside⟩

end Course

/-! ## The course of a visit -/

/-- A node that stays was visited: it was entered, and what is then below it was walked. -/
inductive Visited (options : Options) (t : Tree) (id : NodeId) :
    List Place → Tree → List Visit → Prop
  | intro {t₁ t₂ : Tree} {below below₁ : List Place} {trail : List Visit} :
    Entered options t id below t₁ below₁ →
    Course options none t₁ below₁ (t₁.node id).edges t₂ (t₁.node id).edges trail →
    Visited options t id (.node id :: below) t₂ (.node id (t.node id) true :: trail)

variable {t₁ t₂ : Tree} {id : NodeId} {first rest : List Place} {trail₁ trail₂ : List Visit}

theorem Visited.rebuilds (visited : Visited options t id first t₁ trail) :
    t.Rebuilds t₁ first (Desugar.visited trail) := by
  cases visited with
  | intro entered course =>
    have insideNode := entered.rebuilds.inside _ List.mem_cons_self
    exact entered.rebuilds.trans (course.rebuilds.cons insideNode entered.outside₁)

/-- After a node that stays, what is beside it is walked. -/
theorem Visited.course (visited : Visited options t id first t₁ trail₁)
    (course : Course options holder t₁ rest places t₂ left trail₂)
    (disjoint : first.Disjoint (held holder ++ rest))
    (inside : ∀ place ∈ held holder ++ rest, t.Contains place) :
    Course options holder t (first ++ rest) (.node id :: places) t₂ (.node id :: left)
      (trail₁ ++ trail₂) := by
  cases visited with
  | intro entered below => exact .node entered below course disjoint inside

/-- What a logging visitor remembers after a trail. -/
def after (memory : Walk.Logged Tally) (trail : List Visit) : Walk.Logged Tally where
  memory := ⟨memory.memory.elements + trail.countP (Visit.finds Node.isElement),
    memory.memory.removedText + trail.countP (Visit.finds Node.indents)⟩
  entered := memory.entered ++ trail.filterMap Visit.id?

theorem after_nil (memory : Walk.Logged Tally) : after memory [] = memory := by
  simp [after]

theorem after_append (memory : Walk.Logged Tally) (trail₁ trail₂ : List Visit) :
    after memory (trail₁ ++ trail₂) = after (after memory trail₁) trail₂ := by
  simp [after, Nat.add_assoc]

theorem after_node (memory : Walk.Logged Tally) (id : NodeId) (found : Slot) (stays : Bool)
    (trail : List Visit) :
    after memory (.node id found stays :: trail) =
      after ⟨counted found memory.memory, memory.entered ++ [id]⟩ trail := by
  have counts : ∀ (p : Slot → Bool), (Visit.node id found stays :: trail).countP (Visit.finds p) =
      (if p found then 1 else 0) + trail.countP (Visit.finds p) := by
    intro p
    rw [List.countP_cons, Nat.add_comm]
    rfl
  simp [after, counted, counts, Visit.id?, Nat.add_assoc]

theorem after_list (memory : Walk.Logged Tally) (list : ListId) (trail : List Visit) :
    after memory (.list list :: trail) = after memory trail := by
  simp [after, Visit.finds, Visit.id?, List.filterMap_cons]

/-- What a visit with a log does to a node of a tree that owns it, if it succeeds. -/
def Follows (options : Options)
    (visit : NodeId → Walk.Run (Walk.Logged Tally) DesugarError Walk.Action) : Prop :=
  ∀ ⦃s s' : Walk.State (Walk.Logged Tally)⦄ ⦃action : Walk.Action⦄ ⦃id : NodeId⦄ ⦃part : Part⦄
    ⦃footprint : List Place⦄, s.tree.Owns [.node id] [part] footprint →
    visit id s = .ok action s' →
    (action = .remove ∧ (s.tree.node id).indents = true ∧ footprint = [.node id] ∧
      s' = ⟨s.tree, after s.memory [.node id (s.tree.node id) false]⟩) ∨
    (action = .continue ∧ ∃ trail, Visited options s.tree id footprint s'.tree trail ∧
      s'.memory = after s.memory trail)

variable {visit : NodeId → Walk.Run (Walk.Logged Tally) DesugarError Walk.Action}
  {s s' : Walk.State (Walk.Logged Tally)} {fuel : Nat} {parts : List Part}

theorem visitList_course (follows : Follows options visit) {list : ListId}
    {passed ids : List NodeId} (found : s.tree.list list = passed ++ ids)
    (inside : s.tree.Contains (.list list))
    (outside : .list list ∉ footprint) (owns : s.tree.Owns (ids.map .node) parts footprint)
    (succeeds : Walk.visitList visit list fuel passed.length s = .ok () s') :
    ∃ ids' trail, s'.tree.list list = passed ++ ids' ∧ s'.memory = after s.memory trail ∧
      Course options (some list) s.tree footprint (ids.map .node) s'.tree (ids'.map .node)
        trail := by
  -- The items before the index have stayed, and those from it on are still to be visited.
  induction ids generalizing s passed parts footprint fuel with
  | nil =>
    cases fuel with
    | zero => cases succeeds
    | succ fuel =>
      cases owns.represents
      have none : (s.tree.list list)[passed.length]? = none := by simp [found]
      obtain ⟨_, _, ran, succeeds⟩ := exists_of_bind_eq_ok succeeds
      cases ran
      rw [none] at succeeds
      cases succeeds
      refine ⟨[], [], found, (after_nil _).symm, .nil ?_⟩
      simpa [held] using inside
  | cons id ids ih =>
    cases fuel with
    | zero => cases succeeds
    | succ fuel =>
      obtain ⟨_, _, first, rest, rfl, rfl, ownsFirst, ownsRest, disjoint⟩ := owns.uncons
      rw [List.mem_append, not_or] at outside
      have some : (s.tree.list list)[passed.length]? = some id := by simp [found]
      obtain ⟨_, _, ran, succeeds⟩ := exists_of_bind_eq_ok succeeds
      cases ran
      rw [some] at succeeds
      obtain ⟨action, s₁, ran, succeeds⟩ := exists_of_bind_eq_ok succeeds
      obtain ⟨rfl, indents, rfl, rfl⟩ | ⟨rfl, trail₁, visited, memory⟩ := follows ownsFirst ran
      · change Walk.visitList visit list fuel passed.length
          ⟨s.tree.removeItem list passed.length, after s.memory _⟩ = .ok () s' at succeeds
        have removed := Tree.rebuilds_setList inside ((s.tree.list list).eraseIdx passed.length)
        have ownsRest₁ := ownsRest.frame removed (List.singleton_disjoint.mpr outside.2)
        obtain ⟨ids', trail, found', memory, course⟩ := ih (list_removeItem inside found)
          (removed.contains inside) outside.2 ownsRest₁ succeeds
        refine ⟨ids', _, found', ?_, .drop some indents outside.2 ?_ ownsRest.inside course⟩
        · rw [memory, ← after_append]
          rfl
        · exact List.singleton_disjoint.mp disjoint
      · change Walk.visitList visit list fuel (passed.length + 1) s₁ = .ok () s' at succeeds
        have rebuilds := visited.rebuilds
        -- The visit left the sequence that holds the node alone, and what comes next.
        have same : s₁.tree.list list = s.tree.list list :=
          rebuilds.kept (.list list) inside outside.1
        have found₁ : s₁.tree.list list = (passed ++ [id]) ++ ids := by rw [same, found]; simp
        have next : passed.length + 1 = (passed ++ [id]).length := by simp
        rw [next] at succeeds
        obtain ⟨ids', trail, found', memory', course⟩ := ih found₁ (rebuilds.contains inside)
          outside.2 (ownsRest.frame rebuilds disjoint) succeeds
        refine ⟨id :: ids', trail₁ ++ trail, by simpa using found', ?_,
          visited.course course ?_ ?_⟩
        · rw [memory', memory, after_append]
        · exact List.disjoint_append_right.mpr ⟨List.disjoint_singleton.mpr outside.1, disjoint⟩
        · exact List.forall_mem_cons.mpr ⟨inside, ownsRest.inside⟩

theorem visitEdges_course (follows : Follows options visit)
    (owns : s.tree.Owns places parts footprint)
    (succeeds : Walk.visitEdges visit fuel places s = .ok () s') :
    ∃ trail, s'.memory = after s.memory trail ∧
      Course options none s.tree footprint places s'.tree places trail := by
  induction places generalizing s parts footprint with
  | nil =>
    cases owns.represents
    cases succeeds
    exact ⟨[], (after_nil _).symm, .nil (by simp [held])⟩
  | cons place places ih =>
    obtain ⟨part, others, first, rest, rfl, rfl, ownsFirst, ownsRest, disjoint⟩ := owns.uncons
    cases place with
    | node child =>
      obtain ⟨action, s₁, ran, succeeds⟩ := exists_of_bind_eq_ok succeeds
      obtain ⟨rfl, indents, rfl, rfl⟩ | ⟨rfl, trail₁, visited, memory⟩ := follows ownsFirst ran
      · change Walk.visitEdges visit fuel places
          ⟨s.tree.replace child .hole, after s.memory _⟩ = .ok () s' at succeeds
        have contains := Tree.contains_of_sugar (Node.sugar_of_indents indents)
        have changed := Tree.rebuilds_replace contains .hole
        obtain ⟨trail, memory, course⟩ := ih (ownsRest.frame changed disjoint) succeeds
        have outside := List.singleton_disjoint.mp disjoint
        refine ⟨_, ?_, .hole indents outside ownsRest.inside course⟩
        rw [memory, after_node, after_node, after_nil]
      · change Walk.visitEdges visit fuel places s₁ = .ok () s' at succeeds
        obtain ⟨trail, memory', course⟩ := ih (ownsRest.frame visited.rebuilds disjoint) succeeds
        refine ⟨trail₁ ++ trail, ?_, visited.course course disjoint ownsRest.inside⟩
        rw [memory', memory, after_append]
    | list list =>
      obtain ⟨terms, below, rfl, rfl, inside, outside, ownsItems⟩ := Owns.list_iff.mp ownsFirst
      obtain ⟨_, s₁, ran, succeeds⟩ := exists_of_bind_eq_ok succeeds
      have found : s.tree.list list = [] ++ s.tree.list list := rfl
      obtain ⟨ids, trail₁, left, memory, courseItems⟩ :=
        visitList_course follows found inside outside ownsItems ran
      obtain ⟨trail, memory', course⟩ :=
        ih (ownsRest.frame courseItems.rebuilds disjoint) succeeds
      rw [List.nil_append] at left
      refine ⟨.list list :: (trail₁ ++ trail), ?_,
        .list (left ▸ courseItems) course outside disjoint ownsRest.inside⟩
      rw [after_list, memory', memory, after_append]

/-! ## The course of the walk -/

theorem ok_of_adaptExcept {ε ε' σ α : Type} {x : EStateM ε σ α} {wrap : ε → ε'} {s s' : σ} {a : α}
    (succeeds : x.adaptExcept wrap s = .ok a s') : x s = .ok a s' := by
  simp only [EStateM.adaptExcept] at succeeds
  cases ran : x s with
  | ok =>
    rw [ran] at succeeds
    cases succeeds
    rfl
  | error =>
    rw [ran] at succeeds
    cases succeeds

/-- The log grows by the node that is entered. -/
theorem exists_of_logging_enter {action : Walk.Action}
    (succeeds : (visitor options).logging.enter id s = .ok action s') :
    ∃ s₁, enter options id s.unlogged = .ok action s₁ ∧
      s' = ⟨s₁.tree, s₁.memory, s.memory.entered ++ [id]⟩ := by
  simp only [Walk.Visitor.logging] at succeeds
  cases ran : (visitor options).enter id s.unlogged with
  | ok =>
    rw [ran] at succeeds
    cases succeeds
    exact ⟨_, ran, rfl⟩
  | error =>
    rw [ran] at succeeds
    cases succeeds

/-- A node of an owned tree that was entered and stays. -/
theorem entered_of_enters {s₁ : Walk.State Tally} {tally : Tally} {part : Part}
    (owns : t.Owns [.node id] [part] footprint) (enters : Enters options t id s₁.tree)
    (succeeds : enter options id ⟨t, tally⟩ = .ok .continue s₁) :
    ∃ below below₁, footprint = .node id :: below ∧ Entered options t id below s₁.tree below₁ := by
  obtain ⟨inner, below, rfl, rfl, contains, outside, ownsBelow⟩ := Owns.node_iff.mp owns
  have lockstep : Lockstep (fun problem => problem) _ (enter options id ⟨t, tally⟩)
    (Term.enter options ⟨(t.node id).fill inner⟩) := enter_lockstep owns
  rw [succeeds] at lockstep
  generalize Term.enter options _ = expected at lockstep
  cases lockstep with
  | ok leaves =>
    rw [Leaves] at leaves
    split at leaves
    · cases leaves.1
    · obtain ⟨new, represents, rebuilds⟩ := leaves.2
      obtain ⟨parts, below₁, _, rfl, representsBelow⟩ := Represents.node_iff.mp represents
      exact ⟨below, below₁, rfl, enters, contains, outside, ⟨_, ownsBelow⟩, ⟨_, representsBelow⟩,
        rebuilds⟩

theorem visit_follows (options : Options) (fuel : Nat) :
    Follows options (Walk.visit (visitor options).logging fuel) := by
  induction fuel with
  | zero =>
    intro s s' action id part footprint _ succeeds
    cases succeeds
  | succ fuel ih =>
    intro s s' action id part footprint owns succeeds
    obtain ⟨found, s₁, ran, succeeds⟩ := exists_of_bind_eq_ok succeeds
    obtain ⟨s₂, entersNode, rfl⟩ := exists_of_logging_enter (ok_of_adaptExcept ran)
    obtain ⟨_, below, _, rfl, contains, _, ownsBelow⟩ := Owns.node_iff.mp owns
    have inside : ∀ place ∈ (s.tree.node id).edges, s.tree.Contains place := fun place mem =>
      ownsBelow.inside place (ownsBelow.represents.mem_of_mem_places mem)
    obtain ⟨memory, ⟨rfl, indents, same⟩ | ⟨rfl, _, enters⟩⟩ := enter_ok contains inside entersNode
    · -- Indentation has no children, so its footprint is its own place.
      cases succeeds
      have childless : (s.tree.node id).edges = [] := Node.edges_of_indents indents
      rw [childless] at ownsBelow
      cases ownsBelow.represents
      refine .inl ⟨rfl, indents, rfl, ?_⟩
      rw [after_node, after_nil, same, memory]
      rfl
    · obtain ⟨below, below₁, same, entered⟩ := entered_of_enters owns enters entersNode
      cases same
      obtain ⟨_, _, ran, succeeds⟩ := exists_of_bind_eq_ok succeeds
      cases ran
      obtain ⟨_, s₃, ran, succeeds⟩ := exists_of_bind_eq_ok succeeds
      cases succeeds
      obtain ⟨parts, owns₁⟩ := entered.owns₁
      obtain ⟨trail, memory', course⟩ := visitEdges_course ih owns₁ ran
      refine .inr ⟨rfl, _, .intro entered course, ?_⟩
      rw [memory', after_node, memory]
      rfl

/-- A walk with a log that succeeds has a course. -/
theorem walk_course {term : Term} (owns : t.Owns [.node t.root] [.node term] footprint)
    {memory : Walk.Logged Tally}
    (succeeds : Walk.walk (visitor options).logging fuel ⟨t, memory⟩ = .ok () s') :
    ∃ trail, s'.memory = after memory trail ∧
      Course options none t footprint [.node t.root] s'.tree [.node t.root] trail := by
  obtain ⟨_, _, ran, succeeds⟩ := exists_of_bind_eq_ok succeeds
  cases ran
  obtain ⟨action, s₁, ran, succeeds⟩ := exists_of_bind_eq_ok succeeds
  obtain ⟨rfl, indents, rfl, rfl⟩ | ⟨rfl, trail, visited, memory'⟩ :=
    visit_follows options fuel owns ran
  · cases succeeds
    refine ⟨[.node t.root (t.node t.root) true], rfl, ?_⟩
    exact .hole indents List.not_mem_nil (by simp) (.nil (by simp [held]))
  · cases succeeds
    have none : Course options none s'.tree [] [] s'.tree [] [] := .nil (by simp [held])
    have course := visited.course none (by simp [held]) (by simp [held])
    rw [List.append_nil, List.append_nil] at course
    exact ⟨trail, memory', course⟩

/-- A desugaring that succeeds has a course, which tells what was counted and which nodes
were entered. -/
theorem exists_course {term : Term} {s : Walk.State Tally}
    (owns : t.Owns [.node t.root] [.node term] footprint) (succeeds : run options t = .ok () s) :
    ∃ trail, Course options none t footprint [.node t.root] s.tree [.node t.root] trail ∧
      s.memory = (after ⟨{}, []⟩ trail).memory ∧
      Walk.walk (visitor options).logging (Desugar.fuel t) ⟨t, {}, []⟩ =
        .ok () ⟨s.tree, after ⟨{}, []⟩ trail⟩ := by
  have forgets : Walk.forget _ = run options t :=
    Walk.walk_forgets (visitor options) (Desugar.fuel t) ⟨t, {}, []⟩
  rw [succeeds] at forgets
  cases ended : Walk.walk (visitor options).logging (Desugar.fuel t) ⟨t, {}, []⟩ with
  | ok _ s' =>
    rw [ended] at forgets
    obtain ⟨trail, memory, course⟩ := walk_course owns ended
    cases forgets
    refine ⟨trail, course, congrArg Walk.Logged.memory memory, ?_⟩
    rw [← memory]
    rfl
  | error =>
    rw [ended] at forgets
    cases forgets

end Desugar

theorem Tree.exists_run_of_desugar {options : Options} {t t' : Tree}
    (succeeds : t.desugar options = .ok t') :
    ∃ s, Desugar.run options t = .ok () s ∧ s.tree = t' := by
  rw [desugar] at succeeds
  cases ended : Desugar.run options t with
  | ok _ s =>
    rw [ended] at succeeds
    cases succeeds
    exact ⟨s, rfl, rfl⟩
  | error =>
    rw [ended] at succeeds
    cases succeeds

end JsxFactory
