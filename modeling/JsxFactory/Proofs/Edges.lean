/-
# Nodes and their edges

A node is determined by its shape and its edges: take the children out, put
others of the same sorts in their place, and the node is the same but for them.
Every map over the children of a node is therefore a map over its edges. This is
where the seventeen shapes are told apart once; what follows about children
speaks of lists of edges.
-/

import JsxFactory.Term

namespace JsxFactory

variable {α β γ δ ε ζ : Type} {m : Type → Type}

namespace Edge

/-- The edge with its child or its sequence replaced by the result of `f` or
`g`. -/
def mapM [Monad m] (f : α → m γ) (g : β → m δ) : Edge α β → m (Edge γ δ)
  | .node child => .node <$> f child
  | .list children => .list <$> g children

/-- Edges of the same sorts, one by one. -/
inductive Alike : List (Edge α β) → List (Edge γ δ) → Prop
  | nil : Alike [] []
  | node {child : α} {other : γ} {edges : List (Edge α β)} {others : List (Edge γ δ)} :
    Alike edges others → Alike (.node child :: edges) (.node other :: others)
  | list {children : β} {other : δ} {edges : List (Edge α β)} {others : List (Edge γ δ)} :
    Alike edges others → Alike (.list children :: edges) (.list other :: others)

theorem Alike.refl : ∀ edges : List (Edge α β), Alike edges edges
  | [] => .nil
  | .node _ :: edges => .node (refl edges)
  | .list _ :: edges => .list (refl edges)

theorem Alike.symm {edges : List (Edge α β)} {others : List (Edge γ δ)}
    (alike : Alike edges others) : Alike others edges := by
  induction alike with
  | nil => exact .nil
  | node _ ih => exact .node ih
  | list _ ih => exact .list ih

theorem Alike.trans {edges : List (Edge α β)} {others : List (Edge γ δ)}
    {last : List (Edge ε ζ)} (first : Alike edges others) (second : Alike others last) :
    Alike edges last := by
  induction first generalizing last with
  | nil =>
    cases second
    exact .nil
  | node _ ih =>
    cases second with
    | node second => exact .node (ih second)
  | list _ ih =>
    cases second with
    | list second => exact .list (ih second)

/-- The sort of an edge: whether it leads to a child or to a sequence. -/
def shape : Edge α β → Edge Unit Unit
  | .node _ => .node ()
  | .list _ => .list ()

theorem Alike.map_shape {edges : List (Edge α β)} {others : List (Edge γ δ)}
    (alike : Alike edges others) : edges.map shape = others.map shape := by
  induction alike with
  | nil => rfl
  | node _ ih => exact congrArg (_ :: ·) ih
  | list _ ih => exact congrArg (_ :: ·) ih

theorem Alike.length_eq {edges : List (Edge α β)} {others : List (Edge γ δ)}
    (alike : Alike edges others) : edges.length = others.length := by
  simpa using congrArg List.length alike.map_shape

/-- A map that keeps the sort of each edge. -/
theorem alike_map {f : Edge α β → Edge γ δ} (keeps : ∀ edge, (f edge).shape = edge.shape)
    (edges : List (Edge α β)) : Alike edges (edges.map f) := by
  induction edges with
  | nil => exact .nil
  | cons edge rest ih =>
    have same := keeps edge
    rw [List.map_cons]
    generalize f edge = image at same
    cases edge with
    | node =>
      cases image with
      | node => exact .node ih
      | list => cases same
    | list =>
      cases image with
      | node => cases same
      | list => exact .list ih

theorem alike_map_shape (edges : List (Edge α β)) : Alike edges (edges.map shape) :=
  alike_map (fun edge => by cases edge <;> rfl) edges

/-- A map over edges that all lead to single nodes is a map over the nodes. -/
theorem mapM_map_node [Monad m] [LawfulMonad m] (f : α → m γ) (g : β → m δ) (items : List α) :
    (items.map Edge.node).mapM (Edge.mapM f g) = List.map Edge.node <$> items.mapM f := by
  induction items with
  | nil => simp
  | cons item rest ih => simp [ih, Edge.mapM]

end Edge

open Edge (Alike)

namespace Node

/-- The children in the fields of a generic node. -/
def fieldEdges (fields : List (String × Field α β)) : List (Edge α β) :=
  fields.filterMap fun (_, field) => field.edge?

@[simp] theorem fieldEdges_nil : fieldEdges ([] : List (String × Field α β)) = [] := rfl

@[simp] theorem fieldEdges_node (key : String) (child : α) (rest : List (String × Field α β)) :
    fieldEdges ((key, .node child) :: rest) = .node child :: fieldEdges rest := rfl

@[simp] theorem fieldEdges_list (key : String) (children : β) (rest : List (String × Field α β)) :
    fieldEdges ((key, .list children) :: rest) = .list children :: fieldEdges rest := rfl

@[simp] theorem fieldEdges_value (key : String) (json : Json) (rest : List (String × Field α β)) :
    fieldEdges ((key, .value json) :: rest) = fieldEdges rest := rfl

@[simp] theorem edges_generic (kind : String) (fields : List (String × Field α β)) :
    (generic kind fields).edges = fieldEdges fields := rfl

/-- The fields of a generic node with the given children and sequences, in
walking order, in place of their own. -/
def fillFields : List (String × Field α β) → List (Edge γ δ) → List (String × Field γ δ)
  | (key, .node _) :: rest, .node child :: edges => (key, .node child) :: fillFields rest edges
  | (key, .list _) :: rest, .list children :: edges =>
    (key, .list children) :: fillFields rest edges
  | (key, .value json) :: rest, edges => (key, .value json) :: fillFields rest edges
  -- Edges that do not match the fields in number and sort are given up.
  | _, _ => []

/-- The node with the given children and sequences, in walking order, in place
of its own. -/
def fill : Node α β → List (Edge γ δ) → Node γ δ
  | .jsxElement _ _ _ selfClosing, [.node name, .list attributes, .list children] =>
    .jsxElement name attributes children selfClosing
  | .jsxIdentifier name, [] => .jsxIdentifier name
  | .jsxMember _ _, [.node base, .node name] => .jsxMember base name
  | .jsxAttribute _ none, [.node name] => .jsxAttribute name none
  | .jsxAttribute _ (some _), [.node name, .node value] => .jsxAttribute name (some value)
  | .jsxSpreadAttribute _, [.node argument] => .jsxSpreadAttribute argument
  | .jsxContainer _, [.node expression] => .jsxContainer expression
  | .jsxText value, [] => .jsxText value
  | .identifier name, [] => .identifier name
  | .literal value, [] => .literal value
  | .property _ _ kind method shorthand computed, [.node key, .node value] =>
    .property key value kind method shorthand computed
  | .spread _, [.node argument] => .spread argument
  | .object _, [.list properties] => .object properties
  | .array _, [.list elements] => .array elements
  | .call _ _ optional, [.node callee, .list arguments] => .call callee arguments optional
  | .member _ _ computed optional, [.node base, .node name] => .member base name computed optional
  | .generic kind fields, edges => .generic kind (fillFields fields edges)
  -- The hole itself, and edges that do not match the node.
  | _, _ => .hole

theorem mapFields_eq_fillFields [Monad m] [LawfulMonad m] (f : α → m γ) (g : β → m δ)
    (fields : List (String × Field α β)) :
    mapM.mapFields f g fields = fillFields fields <$> (fieldEdges fields).mapM (Edge.mapM f g) := by
  induction fields with
  | nil => simp [mapM.mapFields, fillFields]
  | cons head rest ih =>
    obtain ⟨key, field⟩ := head
    cases field <;> simp [mapM.mapFields, ih, Edge.mapM, fillFields]

/-- Mapping the children of a node is mapping its edges and filling them in. -/
theorem mapM_eq_fill [Monad m] [LawfulMonad m] (f : α → m γ) (g : β → m δ) (node : Node α β) :
    node.mapM f g = node.fill <$> node.edges.mapM (Edge.mapM f g) := by
  cases node with
  | jsxAttribute name value => cases value <;> simp [mapM, edges, Edge.mapM, fill]
  | generic kind fields =>
    -- Only here is the number of children not given by the shape.
    simp only [mapM, mapFields_eq_fillFields, edges_generic, bind_pure_comp, Functor.map_map]
    rfl
  | _ => simp [mapM, edges, Edge.mapM, fill]

theorem fieldEdges_fillFields {fields : List (String × Field α β)} {others : List (Edge γ δ)}
    (alike : Alike (fieldEdges fields) others) :
    fieldEdges (fillFields fields others) = others := by
  induction fields generalizing others with
  | nil =>
    cases alike
    rfl
  | cons head rest ih =>
    obtain ⟨key, _ | _ | _⟩ := head
    · rcases alike with _ | alike | _
      exact congrArg (_ :: ·) (ih alike)
    · rcases alike with _ | _ | alike
      exact congrArg (_ :: ·) (ih alike)
    · -- A value is not an edge, so the edges are all still to be filled in.
      exact ih alike

/-- What is filled in are the edges. -/
theorem edges_fill {node : Node α β} {others : List (Edge γ δ)} (alike : Alike node.edges others) :
    (node.fill others).edges = others := by
  cases node with
  | generic kind fields => exact fieldEdges_fillFields alike
  | jsxAttribute name value =>
    cases value <;> simp only [edges] at alike <;> (repeat cases ‹Alike _ _›) <;> rfl
  | _ =>
    -- The shape says how many edges there are and of which sorts, so the others are as many.
    simp only [edges] at alike
    repeat cases ‹Alike _ _›
    rfl

theorem fillFields_fillFields {fields : List (String × Field α β)} {others : List (Edge γ δ)}
    {last : List (Edge ε ζ)} (alike : Alike (fieldEdges fields) others)
    (alikeLast : Alike (fieldEdges fields) last) :
    fillFields (fillFields fields others) last = fillFields fields last := by
  induction fields generalizing others last with
  | nil => rfl
  | cons head rest ih =>
    obtain ⟨key, _ | _ | _⟩ := head
    · rcases alike with _ | alike | _
      rcases alikeLast with _ | alikeLast | _
      exact congrArg (_ :: ·) (ih alike alikeLast)
    · rcases alike with _ | _ | alike
      rcases alikeLast with _ | _ | alikeLast
      exact congrArg (_ :: ·) (ih alike alikeLast)
    · simpa only [fillFields] using congrArg (_ :: ·) (ih alike alikeLast)

/-- Of two fillings the second counts. -/
theorem fill_fill {node : Node α β} {others : List (Edge γ δ)} {last : List (Edge ε ζ)}
    (alike : Alike node.edges others) (alikeLast : Alike node.edges last) :
    (node.fill others).fill last = node.fill last := by
  cases node with
  | generic kind fields => exact congrArg (generic kind) (fillFields_fillFields alike alikeLast)
  | jsxAttribute name value =>
    cases value <;> simp only [edges] at alike alikeLast <;> (repeat cases ‹Alike _ _›) <;> rfl
  | _ =>
    simp only [edges] at alike alikeLast
    repeat cases ‹Alike _ _›
    rfl

theorem fillFields_fieldEdges (fields : List (String × Field α β)) :
    fillFields fields (fieldEdges fields) = fields := by
  induction fields with
  | nil => rfl
  | cons head rest ih =>
    obtain ⟨key, _ | _ | _⟩ := head <;> simp [fillFields, ih]

/-- Filling in the edges that are there changes nothing. -/
theorem fill_edges (node : Node α β) : node.fill node.edges = node := by
  cases node with
  | generic kind fields => exact congrArg (generic kind) (fillFields_fieldEdges fields)
  | jsxAttribute name value => cases value <;> rfl
  | _ => rfl

/-- The shape of a node: the node with nothing in the places of its children. -/
def shape (node : Node α β) : Node Unit Unit :=
  node.fill (node.edges.map Edge.shape)

/-- Filling keeps the shape. -/
theorem shape_fill {node : Node α β} {others : List (Edge γ δ)} (alike : Alike node.edges others) :
    (node.fill others).shape = node.shape := by
  rw [shape, edges_fill alike, shape, ← alike.map_shape]
  exact fill_fill alike (Edge.alike_map_shape _)

/-- Nodes of one shape differ in nothing but what is filled in. -/
theorem fill_congr {node : Node α β} {other : Node γ δ} {last : List (Edge ε ζ)}
    (same : node.shape = other.shape) (alike : Alike node.edges last)
    (alikeOther : Alike other.edges last) : node.fill last = other.fill last := by
  rw [← fill_fill (Edge.alike_map_shape _) alike, ← fill_fill (Edge.alike_map_shape _) alikeOther]
  exact congrArg (fill · last) same

theorem kind_shape (node : Node α β) : node.shape.kind = node.kind := by
  cases node with
  | jsxAttribute name value => cases value <;> rfl
  | _ => rfl

/-- Filling keeps the kind. -/
theorem kind_fill {node : Node α β} {others : List (Edge γ δ)} (alike : Alike node.edges others) :
    (node.fill others).kind = node.kind := by
  rw [← kind_shape, shape_fill alike, kind_shape]

end Node

end JsxFactory
