/-
# Subterms

The children of a node of terms are those that its edges lead to, singly or in
sequences. They are smaller than the term, so an argument about terms may assume
its statement for the children, whatever the shape of the node. A subterm is reached
from the term through children.
-/

import JsxFactory.Proofs.Edges

namespace JsxFactory

/-- A child of a term, or a sequence of children. -/
abbrev Part := Edge Term (List Term)

/-- The items that an edge leads to. -/
def Edge.items {α : Type} : Edge α (List α) → List α
  | .node child => [child]
  | .list children => children

@[simp] theorem Edge.items_node {α : Type} (child : α) : (Edge.node child).items = [child] := rfl

@[simp] theorem Edge.items_list {α : Type} (children : List α) :
    (Edge.list children).items = children := rfl

/-- The children of a node, those in sequences included. -/
def Node.children {α : Type} (node : Node α (List α)) : List α :=
  node.edges.flatMap Edge.items

@[simp] theorem Node.children_array {α : Type} (elements : List α) :
    (Node.array elements).children = elements :=
  List.append_nil _

namespace Term

theorem sizeOf_lt_of_mem_items {inner : Term} {part : Part} (mem : inner ∈ part.items) :
    sizeOf inner < sizeOf part := by
  cases part with
  | node child =>
    obtain rfl := List.mem_singleton.mp mem
    simp
  | list children =>
    have := List.sizeOf_lt_of_mem (Edge.items_list children ▸ mem)
    simp only [Edge.list.sizeOf_spec]
    omega

theorem sizeOf_lt_of_mem_fieldEdges {part : Part} {fields : List (String × Field Term (List Term))}
    (mem : part ∈ Node.fieldEdges fields) : sizeOf part < 1 + sizeOf fields := by
  induction fields with
  | nil => simp at mem
  | cons head rest ih =>
    obtain ⟨key, _ | _ | _⟩ := head
    · simp only [Node.fieldEdges_node, List.mem_cons] at mem
      simp only [List.cons.sizeOf_spec, Prod.mk.sizeOf_spec, Field.node.sizeOf_spec]
      obtain rfl | mem := mem
      · simp only [Edge.node.sizeOf_spec]
        omega
      · have := ih mem
        omega
    · simp only [Node.fieldEdges_list, List.mem_cons] at mem
      simp only [List.cons.sizeOf_spec, Prod.mk.sizeOf_spec, Field.list.sizeOf_spec]
      obtain rfl | mem := mem
      · simp only [Edge.list.sizeOf_spec]
        omega
      · have := ih mem
        omega
    · -- A value is passed over.
      have := ih mem
      simp only [List.cons.sizeOf_spec]
      omega

theorem sizeOf_le_of_mem_edges {part : Part} {node : Node Term (List Term)}
    (mem : part ∈ node.edges) : sizeOf part ≤ sizeOf node := by
  cases node with
  | generic kind fields =>
    -- The fields are a list of any length, unlike the children of the other shapes.
    have := sizeOf_lt_of_mem_fieldEdges mem
    simp only [Node.generic.sizeOf_spec]
    omega
  | jsxAttribute name value =>
    cases value with
    | none =>
      simp only [Node.edges, List.mem_singleton] at mem
      subst mem
      simp only [Edge.node.sizeOf_spec, Node.jsxAttribute.sizeOf_spec]
      omega
    | some value =>
      simp only [Node.edges, List.mem_cons, List.not_mem_nil, or_false] at mem
      simp only [Node.jsxAttribute.sizeOf_spec, Option.some.sizeOf_spec]
      obtain rfl | rfl := mem <;> simp only [Edge.node.sizeOf_spec] <;> omega
  | _ => simp [Node.edges] at mem <;> (try rcases mem with rfl | rfl | rfl) <;> simp <;> omega

theorem sizeOf_lt_of_mem_children {inner : Term} {node : Node Term (List Term)}
    (mem : inner ∈ node.children) : sizeOf inner < sizeOf (Term.mk node) := by
  obtain ⟨part, memEdges, memItems⟩ := List.mem_flatMap.mp mem
  calc
    sizeOf inner < sizeOf part := sizeOf_lt_of_mem_items memItems
    _ ≤ sizeOf node := sizeOf_le_of_mem_edges memEdges
    _ < sizeOf (Term.mk node) := by simp

/-- What a node of terms inherits from its children holds of every term. -/
@[elab_as_elim]
theorem induction {motive : Term → Prop}
    (mk : ∀ node : Node Term (List Term), (∀ inner ∈ node.children, motive inner) → motive ⟨node⟩)
    (term : Term) : motive term := by
  obtain ⟨node⟩ := term
  exact mk node fun inner mem => induction mk inner
termination_by sizeOf term
decreasing_by exact sizeOf_lt_of_mem_children mem

/-- A term occurs in itself and in every term that a child of which it occurs
in. -/
inductive Occurs (inner : Term) : Term → Prop
  | here : Occurs inner inner
  | inside {outer : Term} {node : Node Term (List Term)} :
    outer ∈ node.children → Occurs inner outer → Occurs inner ⟨node⟩

theorem Occurs.trans {inner middle outer : Term} (first : Occurs inner middle)
    (second : Occurs middle outer) : Occurs inner outer := by
  induction second with
  | here => exact first
  | inside mem _ ih => exact .inside mem ih

/-- Whether a property holds of all subterms. -/
def Everywhere (P : Term → Prop) (term : Term) : Prop :=
  ∀ inner, Occurs inner term → P inner

/-- A property holds of all subterms if it holds of the term and of all subterms
of its children. -/
theorem everywhere_mk {P : Term → Prop} {node : Node Term (List Term)} :
    Everywhere P ⟨node⟩ ↔ P ⟨node⟩ ∧ ∀ inner ∈ node.children, Everywhere P inner := by
  constructor
  · intro all
    exact ⟨all _ .here, fun outer mem inner occurs => all inner (.inside mem occurs)⟩
  · rintro ⟨here, inside⟩ inner occurs
    cases occurs with
    | here => exact here
    | inside mem occurs => exact inside _ mem inner occurs

end Term

end JsxFactory
