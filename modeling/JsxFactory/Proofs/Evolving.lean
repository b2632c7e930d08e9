/-
# How a store evolves

Desugaring does little to a store. It adds nodes that are no markup, puts something
else in the place of a node that it rewrites, moves an expression out of its braces,
and takes indentation out of sequences. Whatever the tree in the store looks like,
owned or not, the store after any number of such steps has evolved from the one
before: markup is only ever lost, a node that is neither rewritten nor in braces
stays where it is, and a sequence loses nothing but indentation.
-/

import JsxFactory.Desugar
import JsxFactory.Proofs.Building

namespace JsxFactory

namespace Node

variable {α β : Type}

/-- Whether a node has one of the shapes that only markup has. -/
def Markup : Node α β → Prop
  | .jsxElement .. | .jsxIdentifier _ | .jsxMember .. | .jsxAttribute .. | .jsxSpreadAttribute _
  | .jsxContainer _ | .jsxText _ => True
  | _ => False

/-- Whether desugaring puts something else in the place of a node. -/
def Sugar : Node α β → Prop
  | .jsxElement .. | .jsxIdentifier _ | .jsxMember .. | .jsxContainer _ | .jsxText _ => True
  | _ => False

/-- Whether a node is text that only indents. -/
def indents : Node α β → Bool
  | .jsxText value => Text.isIndentation value
  | _ => false

theorem Sugar.markup {node : Node α β} (sugar : node.Sugar) : node.Markup := by
  cases node with
  | jsxElement | jsxIdentifier | jsxMember | jsxContainer | jsxText => trivial
  | _ => exact sugar.elim

theorem sugar_of_indents {node : Node α β} (indents : node.indents = true) : node.Sugar := by
  cases node with
  | jsxText => trivial
  | _ => cases indents

theorem edges_of_indents {node : Node α β} (indents : node.indents = true) : node.edges = [] := by
  cases node with
  | jsxText => rfl
  | _ => cases indents

/-- An expression that may stand without its braces is no markup. -/
theorem not_markup_of_bare {node : Node α β} (bare : node.kind ∈ Desugar.bareKinds) :
    ¬ node.Markup := by
  intro markup
  cases node with
  | jsxElement | jsxIdentifier | jsxMember | jsxAttribute | jsxSpreadAttribute | jsxContainer
  | jsxText => simp [kind, Desugar.bareKinds] at bare
  | _ => exact markup

end Node

namespace Tree

variable {t t₁ t₂ : Tree} {id : NodeId} {list : ListId}

/-! ## Reading a store after a change -/

theorem node_push_eq (t : Tree) (slot : Slot) (id : NodeId) :
    (t.push slot).2.node id = if id = (t.push slot).1 then slot else t.node id := by
  split <;> rename_i same
  · rw [same, node_push]
  · have ne : id.index ≠ t.nodes.size := fun eq => same (congrArg NodeId.mk eq)
    simp [push, Tree.node, Array.getD_eq_getD_getElem?, Array.getElem?_push, ne]

theorem node_replace_of_ne {other : NodeId} (ne : other ≠ id) (slot : Slot) :
    (t.replace id slot).node other = t.node other := by
  have ne' : id.index ≠ other.index := fun eq => ne (congrArg NodeId.mk eq.symm)
  simp [replace, Tree.node, Array.getD_eq_getD_getElem?, ne']

theorem list_setList_of_ne {other : ListId} (ne : other ≠ list) (items : List NodeId) :
    (t.setList list items).list other = t.list other := by
  have ne' : list.index ≠ other.index := fun eq => ne (congrArg ListId.mk eq.symm)
  simp [setList, Tree.list, Array.getD_eq_getD_getElem?, ne']

/-- Outside the store there is no node. -/
theorem node_of_not_contains (outside : ¬ t.Contains (.node id)) : t.node id = .hole := by
  have none : t.nodes.size ≤ id.index := Nat.le_of_not_lt outside
  simp [Tree.node, Array.getD_eq_getD_getElem?, none]

theorem list_of_not_contains (outside : ¬ t.Contains (.list list)) : t.list list = [] := by
  have none : t.lists.size ≤ list.index := Nat.le_of_not_lt outside
  simp [Tree.list, Array.getD_eq_getD_getElem?, none]

theorem contains_of_ne_hole {slot : Slot} (found : t.node id = slot) (notHole : slot ≠ .hole) :
    t.Contains (.node id) := by
  by_contra outside
  exact notHole (found.symm.trans (node_of_not_contains outside))

theorem contains_of_sugar (sugar : (t.node id).Sugar) : t.Contains (.node id) := by
  refine contains_of_ne_hole rfl fun hole => ?_
  rw [hole] at sugar
  exact sugar

theorem contains_of_ne_nil {items : List NodeId} (found : t.list list = items)
    (nonempty : items ≠ []) : t.Contains (.list list) := by
  by_contra outside
  exact nonempty (found.symm.trans (list_of_not_contains outside))

theorem contains_of_mem (mem : id ∈ t.list list) : t.Contains (.list list) :=
  contains_of_ne_nil rfl (List.ne_nil_of_mem mem)

/-! ## Extension -/

/-- The second store is the first with something added. -/
structure Extends (t t₁ : Tree) : Prop where
  nodes_le : t.nodes.size ≤ t₁.nodes.size
  lists_le : t.lists.size ≤ t₁.lists.size
  root_eq : t₁.root = t.root
  kept : ∀ place, t.Contains place → t.SameAt t₁ place

namespace Extends

theorem refl (t : Tree) : t.Extends t :=
  ⟨Nat.le_refl _, Nat.le_refl _, rfl, fun place _ => by cases place <;> rfl⟩

theorem of_rebuilds {new : List Place} (rebuilds : t.Rebuilds t₁ [] new) : t.Extends t₁ :=
  ⟨rebuilds.nodes_le, rebuilds.lists_le, rebuilds.root_eq, fun place inside =>
    rebuilds.kept place inside List.not_mem_nil⟩

theorem push (t : Tree) (slot : Slot) : t.Extends (t.push slot).2 :=
  of_rebuilds (t.rebuilds_push slot)

theorem pushList (t : Tree) (items : List NodeId) : t.Extends (t.pushList items).2 :=
  of_rebuilds (t.rebuilds_pushList items)

theorem contains (extended : t.Extends t₁) {place : Place} (inside : t.Contains place) :
    t₁.Contains place := by
  cases place with
  | node id => exact Nat.lt_of_lt_of_le inside extended.nodes_le
  | list id => exact Nat.lt_of_lt_of_le inside extended.lists_le

theorem trans (first : t.Extends t₁) (second : t₁.Extends t₂) : t.Extends t₂ :=
  ⟨Nat.le_trans first.nodes_le second.nodes_le, Nat.le_trans first.lists_le second.lists_le,
    second.root_eq.trans first.root_eq, fun place inside =>
      (first.kept place inside).trans (second.kept place (first.contains inside))⟩

end Extends

/-! ## Evolution -/

/-- Whether some braces in the store hold a node. -/
def InBraces (t : Tree) (id : NodeId) : Prop :=
  ∃ braces, t.node braces = .jsxContainer id

/-- The items of a sequence that are more than indentation. -/
def lasting (t : Tree) (items : List NodeId) : List NodeId :=
  items.filter fun item => !(t.node item).indents

theorem lasting_eq_self {items : List NodeId}
    (lasts : ∀ item ∈ items, (t.node item).indents = false) : t.lasting items = items := by
  refine List.filter_eq_self.mpr fun item mem => ?_
  rw [lasts item mem]
  rfl

/-- What the second store may have become from the first. -/
structure Evolves (t t₁ : Tree) : Prop where
  nodes_le : t.nodes.size ≤ t₁.nodes.size
  lists_le : t.lists.size ≤ t₁.lists.size
  root_eq : t₁.root = t.root
  /-- Markup is left from before, and is never made. -/
  markup : ∀ id, (t₁.node id).Markup → t₁.node id = t.node id
  /-- What is neither rewritten nor in braces stays where it is. -/
  kept : ∀ id, t.Contains (.node id) → ¬ (t.node id).Sugar → ¬ t.InBraces id →
    t₁.node id = t.node id
  /-- What is not rewritten is not lost, although it may move. -/
  present : ∀ id, ¬ (t.node id).Sugar → t.node id ≠ .hole → ∃ other, t₁.node other = t.node id
  /-- No sequence gets more items or another order of them. -/
  items : ∀ list, t.Contains (.list list) → (t₁.list list).Sublist (t.list list)
  /-- No sequence loses more than indentation. -/
  lasting : ∀ list, t.Contains (.list list) →
    t.lasting (t₁.list list) = t.lasting (t.list list)

namespace Evolves

theorem refl (t : Tree) : t.Evolves t where
  nodes_le := Nat.le_refl _
  lists_le := Nat.le_refl _
  root_eq := rfl
  markup _ _ := rfl
  kept _ _ _ _ := rfl
  present id _ _ := ⟨id, rfl⟩
  items _ _ := .refl _
  lasting _ _ := rfl

theorem contains (evolves : t.Evolves t₁) {place : Place} (inside : t.Contains place) :
    t₁.Contains place := by
  cases place with
  | node id => exact Nat.lt_of_lt_of_le inside evolves.nodes_le
  | list id => exact Nat.lt_of_lt_of_le inside evolves.lists_le

/-- Braces that hold a node are braces from before. -/
theorem inBraces (evolves : t.Evolves t₁) (held : t₁.InBraces id) : t.InBraces id := by
  obtain ⟨braces, found⟩ := held
  refine ⟨braces, ?_⟩
  rw [← evolves.markup braces (by rw [found]; trivial), found]

/-- Indentation is indentation from before. -/
theorem indents (evolves : t.Evolves t₁) (indents : (t₁.node id).indents = true) :
    (t.node id).indents = true := by
  rw [← evolves.markup id (Node.sugar_of_indents indents).markup]
  exact indents

theorem trans (first : t.Evolves t₁) (second : t₁.Evolves t₂) : t.Evolves t₂ where
  nodes_le := Nat.le_trans first.nodes_le second.nodes_le
  lists_le := Nat.le_trans first.lists_le second.lists_le
  root_eq := second.root_eq.trans first.root_eq
  markup id markup := by
    have same := second.markup id markup
    rw [same] at markup ⊢
    exact first.markup id markup
  kept id inside notSugar outside := by
    have same := first.kept id inside notSugar outside
    rw [second.kept id (first.contains inside) (same ▸ notSugar)
      (fun held => outside (first.inBraces held)), same]
  present id notSugar notHole := by
    obtain ⟨other, found⟩ := first.present id notSugar notHole
    obtain ⟨another, found'⟩ := second.present other (found ▸ notSugar) (found ▸ notHole)
    exact ⟨another, found'.trans found⟩
  items list inside := (second.items list (first.contains inside)).trans (first.items list inside)
  lasting list inside := by
    -- What is indentation in between was so from the start, so it is left out on both sides.
    have weaker : ∀ items, t.lasting (t₁.lasting items) = t.lasting items := by
      intro items
      rw [Tree.lasting, Tree.lasting, Tree.lasting, List.filter_filter]
      refine List.filter_congr fun item _ => ?_
      cases later : (t₁.node item).indents with
      | false => simp
      | true => simp [first.indents later]
    rw [← weaker, second.lasting list (first.contains inside), weaker, first.lasting list inside]

/-- A sequence without indentation stays as it is. -/
theorem list_eq (evolves : t.Evolves t₁) (inside : t.Contains (.list list))
    (lasts : ∀ item ∈ t.list list, (t.node item).indents = false) :
    t₁.list list = t.list list := by
  have sublist := evolves.items list inside
  have same := evolves.lasting list inside
  rwa [lasting_eq_self lasts,
    lasting_eq_self fun item mem => lasts item (sublist.subset mem)] at same

/-- A sequence keeps a first item that is more than indentation. -/
theorem list_eq_cons (evolves : t.Evolves t₁) (inside : t.Contains (.list list)) {item : NodeId}
    {others : List NodeId} (found : t.list list = item :: others)
    (lasts : (t.node item).indents = false) : ∃ others', t₁.list list = item :: others' := by
  have sublist := evolves.items list inside
  have same := evolves.lasting list inside
  rw [found] at sublist same
  generalize t₁.list list = items at sublist same
  cases sublist with
  | cons_cons _ rest => exact ⟨_, rfl⟩
  | cons _ rest =>
    -- Without the first item there would be too few that last.
    have shorter := (rest.filter fun item => !(t.node item).indents).length_le
    have length := congrArg List.length same
    simp only [Tree.lasting, List.filter_cons, lasts, Bool.not_false, if_true,
      List.length_cons] at length
    omega

/-- A node that no braces hold stays once it is no longer rewritten. -/
theorem node_eq (evolves : t.Evolves t₁) (inside : t.Contains (.node id)) {slot : Slot}
    (found : t.node id = slot) (notSugar : ¬ slot.Sugar) (outside : ¬ t.InBraces id) :
    t₁.node id = slot := by
  subst found
  exact evolves.kept id inside notSugar outside

/-! ## Steps -/

/-- Adding nodes that are no markup, and sequences. -/
theorem of_extends (extended : t.Extends t₁)
    (plain : ∀ id, ¬ t.Contains (.node id) → ¬ (t₁.node id).Markup) : t.Evolves t₁ where
  nodes_le := extended.nodes_le
  lists_le := extended.lists_le
  root_eq := extended.root_eq
  markup id markup := by
    by_cases inside : t.Contains (.node id)
    · exact extended.kept (.node id) inside
    · exact absurd markup (plain id inside)
  kept id inside _ _ := extended.kept (.node id) inside
  present id _ notHole := ⟨id, extended.kept (.node id) (contains_of_ne_hole rfl notHole)⟩
  items list inside := by
    have same : t₁.list list = t.list list := extended.kept (.list list) inside
    rw [same]
  lasting list inside := congrArg t.lasting (extended.kept (.list list) inside)

theorem push (t : Tree) {slot : Slot} (plain : ¬ slot.Markup) : t.Evolves (t.push slot).2 := by
  refine of_extends (.push t slot) fun id outside => ?_
  rw [node_push_eq]
  split
  · exact plain
  · rw [node_of_not_contains outside]
    exact not_false

theorem pushList (t : Tree) (items : List NodeId) : t.Evolves (t.pushList items).2 := by
  refine of_extends (.pushList t items) fun id outside => ?_
  have same : (t.pushList items).2.node id = t.node id := rfl
  rw [same, node_of_not_contains outside]
  exact not_false

/-- Something that is no markup in the place of a node that is rewritten. -/
theorem replace (sugar : (t.node id).Sugar) {slot : Slot} (plain : ¬ slot.Markup) :
    t.Evolves (t.replace id slot) := by
  have changed := rebuilds_replace (contains_of_sugar sugar) slot
  refine ⟨changed.nodes_le, changed.lists_le, rfl, ?markup, ?kept, ?present, fun _ _ => .refl _,
    fun _ _ => rfl⟩
  case markup =>
    intro other markup
    by_cases same : other = id
    · rw [same, node_replace (contains_of_sugar sugar)] at markup
      exact absurd markup plain
    · exact node_replace_of_ne same slot
  case kept =>
    intro other _ notSugar _
    refine node_replace_of_ne ?_ slot
    rintro rfl
    exact notSugar sugar
  case present =>
    intro other notSugar _
    refine ⟨other, node_replace_of_ne ?_ slot⟩
    rintro rfl
    exact notSugar sugar

/-- An expression moves out of its braces. -/
theorem move {expression : NodeId} (found : t.node id = .jsxContainer expression)
    (bare : (t.node expression).kind ∈ Desugar.bareKinds) :
    t.Evolves ((t.replace expression .hole).replace id (t.node expression)) := by
  have plain := Node.not_markup_of_bare bare
  have inside : t.Contains (.node id) := contains_of_sugar (by rw [found]; trivial)
  have ne : id ≠ expression := by
    rintro rfl
    rw [found] at plain
    exact plain trivial
  have insideAfter : (t.replace expression .hole).Contains (.node id) := by
    simpa [Contains, Tree.replace] using inside
  have here : ((t.replace expression .hole).replace id (t.node expression)).node id =
      t.node expression := node_replace insideAfter _
  have elsewhere : ∀ {other}, other ≠ id → other ≠ expression →
      ((t.replace expression .hole).replace id (t.node expression)).node other = t.node other :=
    fun ne ne' => (node_replace_of_ne ne _).trans (node_replace_of_ne ne' _)
  -- Two places change: that of the braces and that of the expression.
  refine ⟨by simp [Tree.replace], Nat.le_refl _, rfl, ?markup, ?kept, ?present,
    fun _ _ => .refl _, fun _ _ => rfl⟩
  case markup =>
    intro other markup
    by_cases same : other = id
    · rw [same, here] at markup
      exact absurd markup plain
    · refine elsewhere same ?_
      rintro rfl
      -- There is a hole where the expression was, if there was an expression at all.
      rw [node_replace_of_ne same] at markup
      by_cases contained : t.Contains (.node other)
      · rw [node_replace contained] at markup
        exact markup
      · rw [node_of_not_contains contained] at plain bare
        simp [Node.kind, Desugar.bareKinds] at bare
  case kept =>
    intro other _ notSugar outside
    refine elsewhere ?_ ?_
    · rintro rfl
      rw [found] at notSugar
      exact notSugar trivial
    · rintro rfl
      exact outside ⟨id, found⟩
  case present =>
    intro other notSugar _
    by_cases same : other = expression
    · exact ⟨id, same ▸ here⟩
    · refine ⟨other, elsewhere ?_ same⟩
      rintro rfl
      rw [found] at notSugar
      exact notSugar trivial

/-- Indentation is taken out of a sequence. -/
theorem removeItem {index : Nat} {item : NodeId} (found : (t.list list)[index]? = some item)
    (indents : (t.node item).indents = true) : t.Evolves (t.removeItem list index) := by
  have inside : t.Contains (.list list) := contains_of_mem (List.mem_of_getElem? found)
  have changed := rebuilds_setList inside ((t.list list).eraseIdx index)
  have here : (t.removeItem list index).list list = (t.list list).eraseIdx index :=
    list_setList inside _
  have erased : t.lasting ((t.list list).eraseIdx index) = t.lasting (t.list list) := by
    obtain ⟨lt, same⟩ := List.getElem?_eq_some_iff.mp found
    have split := List.take_append_drop index (t.list list)
    rw [List.drop_eq_getElem_cons lt, same] at split
    rw [List.eraseIdx_eq_take_drop_succ, ← congrArg t.lasting split]
    simp [Tree.lasting, indents]
  refine ⟨Nat.le_refl _, changed.lists_le, rfl, fun _ _ => rfl, fun _ _ _ _ => rfl,
    fun id _ _ => ⟨id, rfl⟩, ?sublists, ?lasting⟩
  case sublists =>
    intro other _
    by_cases same : other = list
    · rw [same, here]
      exact List.eraseIdx_sublist ..
    · rw [Tree.removeItem, list_setList_of_ne same]
  case lasting =>
    intro other _
    by_cases same : other = list
    · rw [same, here]
      exact erased
    · rw [Tree.removeItem, list_setList_of_ne same]

end Evolves

end Tree

end JsxFactory
