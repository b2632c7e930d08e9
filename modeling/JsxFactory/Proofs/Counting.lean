/-
# No element is lost or made twice

A desugared tree has as many calls as the tree had calls and elements, and the tally of
the walk counts each element and each indentation once. Elements and texts stay on the
footprint until they are visited, so the visits are counted along the course. Calls may
move out of braces on the way, which changes their places but not their number.
-/

import JsxFactory.Proofs.Retracing
import Mathlib.Data.Set.Card

namespace JsxFactory

namespace Node

variable {α β : Type}

/-- Whether a node is a call. -/
def isCall : Node α β → Bool
  | .call .. => true
  | _ => false

/-- Whether a node is a call, or an element, which becomes one. -/
def callable (node : Node α β) : Bool :=
  node.isCall || node.isElement

theorem ite_callable (node : Node α β) : (if node.callable then 1 else 0) =
    (if node.isCall then 1 else 0) + (if node.isElement then 1 else 0) := by
  cases node <;> rfl

theorem not_inert_of_callable {node : Node α β} (callable : node.callable = true) :
    ¬ node.Inert := by
  cases node with
  | call | jsxElement => exact fun inert => inert
  | _ => cases callable

theorem callable_of_indents {node : Node α β} (indents : node.indents = true) :
    node.callable = false := by
  cases node with
  | jsxText => rfl
  | _ => cases indents

/-- Whether a property singles out elements or texts. -/
def Singles (p : Node α β → Bool) : Prop :=
  ∀ node, p node = true → node.Markup ∧ ¬ node.Inert

theorem singles_isElement : Singles (isElement : Node α β → Bool) := by
  intro node element
  cases node with
  | jsxElement => exact ⟨trivial, fun inert => inert⟩
  | _ => cases element

theorem singles_indents : Singles (indents : Node α β → Bool) := by
  intro node indents
  cases node with
  | jsxText => exact ⟨trivial, fun inert => inert⟩
  | _ => cases indents

end Node

namespace Tree

variable {t t₁ : Tree} {places footprint rest old new : List Place} {parts : List Part}

/-- Whether the node at a place has a property. -/
def finds (t : Tree) (p : Slot → Bool) : Place → Bool
  | .node id => p (t.node id)
  | .list _ => false

theorem finds_eq_of_sameAt (p : Slot → Bool) {place : Place} (same : t.SameAt t₁ place) :
    t₁.finds p place = t.finds p place := by
  cases place with
  | node id => exact congrArg p same
  | list => rfl

theorem countP_eq_of_sameAt (p : Slot → Bool) (same : ∀ place ∈ rest, t.SameAt t₁ place) :
    rest.countP (t₁.finds p) = rest.countP (t.finds p) :=
  List.countP_congr fun place mem => by rw [finds_eq_of_sameAt p (same place mem)]

/-- What is beside a footprint that was rebuilt counts as before. -/
theorem Rebuilds.countP_eq (rebuilds : t.Rebuilds t₁ old new) (p : Slot → Bool)
    (disjoint : old.Disjoint rest) (inside : ∀ place ∈ rest, t.Contains place) :
    rest.countP (t₁.finds p) = rest.countP (t.finds p) :=
  countP_eq_of_sameAt p fun place mem =>
    rebuilds.kept place (inside place mem) fun memOld => disjoint memOld mem

/-- The number of nodes in the tree that have a property. -/
noncomputable def population (t : Tree) (p : Slot → Bool) : ℕ :=
  {id : NodeId | t.Reachable (.node id) ∧ p (t.node id) = true}.ncard

theorem Owns.population_eq (owns : t.Owns [.node t.root] parts footprint) (p : Slot → Bool) :
    t.population p = footprint.countP (t.finds p) := by
  -- A footprint lists what is reachable, and lists nothing twice.
  have listed : (Edge.node : NodeId → Place) ''
      {id : NodeId | t.Reachable (.node id) ∧ p (t.node id) = true} =
      (footprint.filter (t.finds p)).toFinset := by
    ext place
    simp only [Set.mem_image, Set.mem_ofPred_eq, List.coe_toFinset, List.mem_filter]
    constructor
    · rintro ⟨id, ⟨reachable, here⟩, rfl⟩
      exact ⟨owns.mem_of_reachable reachable, here⟩
    · rintro ⟨mem, here⟩
      cases place with
      | node id =>
        have reachable : t.Reachable (.node id) :=
          owns.represents.reached_of_mem (by simp [Relation.ReflTransGen.refl]) mem
        exact ⟨id, ⟨reachable, here⟩, rfl⟩
      | list => cases here
  rw [population, ← Set.ncard_image_of_injective _ fun _ _ => Edge.node.inj, listed,
    Set.ncard_coe_finset, List.toFinset_card_of_nodup (owns.nodup.filter _),
    List.countP_eq_length_filter]

theorem countP_callable (t : Tree) (footprint : List Place) :
    footprint.countP (t.finds Node.callable) =
      footprint.countP (t.finds Node.isCall) + footprint.countP (t.finds Node.isElement) := by
  induction footprint with
  | nil => rfl
  | cons place rest ih =>
    have here : (if t.finds Node.callable place then 1 else 0) =
        (if t.finds Node.isCall place then 1 else 0) +
          (if t.finds Node.isElement place then 1 else 0) := by
      cases place with
      | node id => exact (t.node id).ite_callable
      | list => rfl
    rw [List.countP_cons, List.countP_cons, List.countP_cons, ih, here]
    omega

end Tree

namespace Desugar

open JsxFactory.Tree (Rebuilds)

variable {options : Options} {holder : Option ListId} {t t₁ t' : Tree} {id : NodeId}
  {under under₁ footprint places left : List Place} {trail : List Visit} {p : Slot → Bool}

/-! ## Entering a node -/

/-- Entering a node leaves as many elements, texts and calls below it, if none moves up. -/
theorem Entered.countP_eq (entered : Entered options t id under t₁ under₁)
    (followed : ∀ slot, p slot = true → ¬ slot.Inert)
    (unmoved : ∀ expression, t.node id = .jsxContainer expression →
      p (t.node expression) = false) :
    under₁.countP (t₁.finds p) = under.countP (t.finds p) := by
  obtain ⟨_, owns⟩ := entered.owns
  obtain ⟨_, owns₁⟩ := entered.owns₁
  have notInert : ∀ {t : Tree} {place : Place}, t.finds p place = true → ¬ t.InertAt place := by
    intro t place here
    cases place with
    | node => exact followed _ here
    | list => cases here
  -- Neither footprint has repetitions, so it is enough that the members are the same.
  rw [List.countP_eq_length_filter, List.countP_eq_length_filter]
  refine List.Perm.length_eq ((List.perm_ext_iff_of_nodup (owns₁.nodup.filter _)
    (owns.nodup.filter _)).mpr fun place => ?_)
  rw [List.mem_filter, List.mem_filter]
  constructor
  · rintro ⟨mem, here⟩
    have inside : t.Contains place := by
      by_contra new
      exact notInert here (entered.inertAt_of_new mem new)
    rw [Tree.finds_eq_of_sameAt p (entered.sameAt mem inside)] at here
    exact ⟨entered.mem_below mem inside, here⟩
  · rintro ⟨mem, here⟩
    have mem₁ : place ∈ under₁ := by
      by_contra lost
      refine notInert here (entered.inertAt_of_lost mem lost ?_)
      rintro expression found rfl
      cases (unmoved expression found).symm.trans here
    rw [Tree.finds_eq_of_sameAt p (entered.sameAt mem₁ (owns.inside place mem))]
    exact ⟨mem₁, here⟩

/-- No element and no text moves out of braces. -/
theorem Entered.countP_eq_of_singles (entered : Entered options t id under t₁ under₁)
    (singles : Node.Singles p) : under₁.countP (t₁.finds p) = under.countP (t.finds p) := by
  refine entered.countP_eq (fun slot here => (singles slot here).2) fun expression found => ?_
  obtain ⟨bare, _⟩ := entered.below_eq_of_braces found
  exact Bool.eq_false_iff.mpr fun here => Node.not_markup_of_bare bare (singles _ here).1

/-- A node other than braces is a call after it was entered if it was a call or an element. -/
theorem Entered.isCall_eq (entered : Entered options t id under t₁ under₁)
    (notBraces : ∀ expression, t.node id ≠ .jsxContainer expression) :
    (t₁.node id).isCall = (t.node id).callable := by
  cases entered.enters with
  | plain plain =>
    generalize t.node id = slot at plain
    cases slot with
    | jsxElement => exact plain.elim
    | _ => rfl
  | text found | name found | member found =>
    rw [Tree.node_replace entered.contains, found]
    rfl
  | container found => exact absurd found (notBraces _)
  | element found expands =>
    rw [Tree.node_replace (expands.contains entered.contains), found]
    rfl

/-- Entering a node leaves as many calls and elements in all. What the node itself is then is
no element any more. -/
theorem Entered.countP_callable (entered : Entered options t id under t₁ under₁) :
    [.node id].countP (t₁.finds Node.isCall) + under₁.countP (t₁.finds Node.callable) =
      (.node id :: under).countP (t.finds Node.callable) := by
  rw [List.countP_singleton, List.countP_cons, Nat.add_comm]
  cases found : t.node id with
  | jsxContainer expression =>
    -- The expression counts in its own place before, and in that of the braces after.
    obtain ⟨bare, moved, rfl, same⟩ := entered.below_eq_of_braces found
    have notElement : (t.node expression).isElement = false := Bool.eq_false_iff.mpr fun element =>
      Node.not_markup_of_bare bare (Node.singles_isElement _ element).1
    have here : t.finds Node.callable (.node id) = false := by
      rw [Tree.finds, found]
      rfl
    have inner : t.finds Node.callable (.node expression) = t₁.finds Node.isCall (.node id) := by
      simp [Tree.finds, moved, Node.callable, notElement]
    rw [Tree.countP_eq_of_sameAt _ same, List.countP_cons, here, inner]
    rfl
  | _ =>
    have notBraces : ∀ expression, t.node id ≠ .jsxContainer expression := by simp [found]
    have here : t₁.finds Node.isCall (.node id) = t.finds Node.callable (.node id) :=
      entered.isCall_eq notBraces
    rw [here, entered.countP_eq (fun _ => Node.not_inert_of_callable)
      fun expression found => absurd found (notBraces expression)]

/-! ## Along the course -/

namespace Course

/-- Each element, and each text of a kind, is visited once. -/
theorem countP_trail (course : Course options holder t footprint places t' left trail)
    (singles : Node.Singles p) : trail.countP (Visit.finds p) = footprint.countP (t.finds p) := by
  induction course with
  | nil => rfl
  | @node holder t t₁ t₂ t₃ id under under₁ rest _ _ trail₁ trail₂ entered courseBelow _ disjoint
      inside ihBelow ihRest =>
    have visited := Visited.intro entered courseBelow
    have below : trail₁.countP (Visit.finds p) = under.countP (t.finds p) :=
      ihBelow.trans (entered.countP_eq_of_singles singles)
    have beside : trail₂.countP (Visit.finds p) = rest.countP (t.finds p) :=
      ihRest.trans (visited.rebuilds.countP_eq p (List.disjoint_append_right.mp disjoint).2
        fun place mem => inside place (List.mem_append_right _ mem))
    rw [List.countP_cons, List.countP_cons, List.countP_append, List.countP_append, below, beside]
    rfl
  | @hole t t₁ id rest places left trail indents outside inside _ ih =>
    have contains := Tree.contains_of_sugar (Node.sugar_of_indents indents)
    have beside := (Tree.rebuilds_replace contains .hole).countP_eq p
      (List.singleton_disjoint.mpr outside) inside
    rw [List.countP_cons, List.countP_cons, ih, beside]
    rfl
  | @drop list t t₁ id index rest places left trail found indents outsideList _ inside _ ih =>
    have contains := Tree.contains_of_mem (List.mem_of_getElem? found)
    have beside := (Tree.rebuilds_setList contains ((t.list list).eraseIdx index)).countP_eq p
      (List.singleton_disjoint.mpr outsideList) inside
    rw [List.countP_cons, List.countP_cons, ih, ← beside]
    rfl
  | @list t t₁ t₂ list under rest places left trail₁ trail₂ courseBelow _ _ disjoint inside ihBelow
      ihRest =>
    have beside : trail₂.countP (Visit.finds p) = rest.countP (t.finds p) :=
      ihRest.trans (courseBelow.rebuilds.countP_eq p disjoint inside)
    rw [List.countP_cons, List.countP_cons, List.countP_append, List.countP_append, ihBelow, beside]
    rfl

/-- What stays has as many calls as there were calls and elements. -/
theorem countP_stayed (course : Course options holder t footprint places t' left trail) :
    (stayed trail).countP (t'.finds Node.isCall) = footprint.countP (t.finds Node.callable) := by
  induction course with
  | nil => rfl
  | @node holder t t₁ t₂ t₃ id under under₁ rest _ _ trail₁ trail₂ entered courseBelow courseRest
      disjoint inside ihBelow ihRest =>
    have visited := Visited.intro entered courseBelow
    have here : [.node id].countP (t₃.finds Node.isCall) =
        [.node id].countP (t₁.finds Node.isCall) :=
      Tree.countP_eq_of_sameAt _ (by
        simpa using sameAt_node entered courseBelow courseRest disjoint)
    -- What is below the node is left alone from there on.
    have below : (stayed trail₁).countP (t₃.finds Node.isCall) =
        under₁.countP (t₁.finds Node.callable) := by
      rw [← ihBelow]
      refine Tree.countP_eq_of_sameAt _ fun place mem => ?_
      exact sameAt_of_mem_new visited.rebuilds courseRest.rebuilds disjoint inside
        (List.mem_cons_of_mem _ ((stayed_sublist trail₁).subset mem))
    have beside : (stayed trail₂).countP (t₃.finds Node.isCall) =
        rest.countP (t.finds Node.callable) :=
      ihRest.trans (visited.rebuilds.countP_eq _ (List.disjoint_append_right.mp disjoint).2
        fun place mem => inside place (List.mem_append_right _ mem))
    rw [stayed_node, stayed_append, ← List.singleton_append, List.countP_append,
      List.countP_append, here, below, beside, ← Nat.add_assoc, entered.countP_callable,
      ← List.countP_append, List.cons_append]
  | @hole t t₁ id rest places left trail indents outside inside course ih =>
    have contains := Tree.contains_of_sugar (Node.sugar_of_indents indents)
    have changed := Tree.rebuilds_replace contains .hole
    have beside := changed.countP_eq Node.callable (List.singleton_disjoint.mpr outside) inside
    have hole : t₁.node id = .hole := by
      have same : t₁.node id = (t.replace id .hole).node id :=
        course.rebuilds.kept (.node id) (changed.contains contains) outside
      rw [same, Tree.node_replace contains]
    have before : t.finds Node.callable (.node id) = false := Node.callable_of_indents indents
    have after : t₁.finds Node.isCall (.node id) = false := by rw [Tree.finds, hole]; rfl
    rw [stayed_node, List.countP_cons, List.countP_cons, ih, beside, before, after]
  | @drop list t t₁ id index rest places left trail found indents outsideList _ inside _ ih =>
    have contains := Tree.contains_of_mem (List.mem_of_getElem? found)
    have beside := (Tree.rebuilds_setList contains ((t.list list).eraseIdx index)).countP_eq
      Node.callable (List.singleton_disjoint.mpr outsideList) inside
    have before : t.finds Node.callable (.node id) = false := Node.callable_of_indents indents
    rw [List.countP_cons, before, ← beside]
    exact ih
  | @list t t₁ t₂ list under rest places left trail₁ trail₂ courseBelow courseRest _ disjoint inside
      ihBelow ihRest =>
    have below : (stayed trail₁).countP (t₂.finds Node.isCall) =
        under.countP (t.finds Node.callable) := by
      rw [← ihBelow]
      refine Tree.countP_eq_of_sameAt _ fun place mem => ?_
      exact sameAt_of_mem_new courseBelow.rebuilds courseRest.rebuilds disjoint inside
        (List.mem_cons_of_mem _ ((stayed_sublist trail₁).subset mem))
    have beside : (stayed trail₂).countP (t₂.finds Node.isCall) =
        rest.countP (t.finds Node.callable) :=
      ihRest.trans (courseBelow.rebuilds.countP_eq _ disjoint inside)
    rw [stayed_list, stayed_append, List.countP_cons, List.countP_cons, List.countP_append,
      List.countP_append, below, beside]
    rfl

end Course

end Desugar

namespace Tree

/-- No element is lost or made twice. The desugared tree has a call for each call and each
element of the tree, and the walk has counted each element and each indentation once. -/
theorem population_desugar {options : Options} {t : Tree} {s : Walk.State Desugar.Tally}
    (source : t.IsRead ∨ t.IsLowered ∨ t.WellOwned)
    (succeeds : Desugar.run options t = .ok () s) :
    s.tree.population Node.isCall = t.population Node.isCall + t.population Node.isElement ∧
      s.memory.elements = t.population Node.isElement ∧
      s.memory.removedText = t.population Node.indents := by
  obtain ⟨term, footprint, owns⟩ := (wellOwned_of_source source).owned.exists_owns
  obtain ⟨trail, course, memory, _⟩ := Desugar.exists_course owns succeeds
  obtain ⟨results, owns'⟩ := course.owns
  rw [← course.evolves.root_eq] at owns'
  refine ⟨?calls, ?elements, ?removedText⟩
  case calls =>
    rw [owns'.population_eq, owns.population_eq, owns.population_eq, course.countP_stayed,
      countP_callable]
  case elements =>
    rw [memory, owns.population_eq, ← course.countP_trail Node.singles_isElement]
    exact Nat.zero_add _
  case removedText =>
    rw [memory, owns.population_eq, ← course.countP_trail Node.singles_indents]
    exact Nat.zero_add _

/-- There are two elements, one of them in an argument of a call. -/
theorem population_desugar_nestedElement :
    (ofTerm Term.nestedElement).IsRead ∧
    ∃ s, Desugar.run {} (ofTerm Term.nestedElement) = .ok () s ∧
      s.tree.population Node.isCall = (ofTerm Term.nestedElement).population Node.isCall + 2 ∧
      (ofTerm Term.nestedElement).population Node.isElement = 2 ∧
      (ofTerm Term.nestedElement).population Node.indents = 1 := by
  have isRead := isRead_nestedElement
  have desugars : Term.nestedElement.desugar {} = .ok Term.nestedCall := rfl
  obtain ⟨t', _, succeeds, _⟩ := exists_desugar_ofTerm desugars
  obtain ⟨s, ran, _⟩ := exists_run_of_desugar succeeds
  have tally : (Desugar.run {} (ofTerm Term.nestedElement)).casesOn
      (motive := fun _ => Nat × Nat) (fun _ s => (s.memory.elements, s.memory.removedText))
      (fun _ _ => (0, 0)) = (2, 1) := by decide +kernel
  rw [ran] at tally
  obtain ⟨calls, elements, removedText⟩ := population_desugar (.inl isRead) ran
  rw [← elements] at calls
  obtain ⟨two, one⟩ := Prod.mk.inj tally
  exact ⟨isRead, s, ran, two ▸ calls, elements ▸ two, removedText ▸ one⟩

end Tree

end JsxFactory
