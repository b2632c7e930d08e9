/-
# Drafts of lowered programs

A hole does not say why it is there. A draft does: it is a term together with the
report of each of its holes, in the order of the term. Every construct has a
draft, made from the drafts of its parts and without regard to the order in which
they are lowered. Lowering yields the term of the draft and reports what the draft
says of the holes (`Program.lower_eq`). So the order of the reports is the order of
the holes.
-/

import JsxFactory.Proofs.Folding
import Mathlib.Data.List.ReduceOption

namespace JsxFactory

open Edge (Alike)

namespace Node

variable {α β γ δ : Type}

/-- Whether a node is absent. -/
def isHole : Node α β → Bool
  | .hole => true
  | _ => false

/-- Whether a node is an array. -/
def isArray : Node α β → Bool
  | .array _ => true
  | _ => false

theorem isHole_iff {node : Node α β} : node.isHole = true ↔ node = .hole := by
  cases node <;> simp [isHole]

theorem exists_of_isArray {node : Node α β} (isArray : node.isArray = true) :
    ∃ elements, node = .array elements := by
  cases node with
  | array elements => exact ⟨elements, rfl⟩
  | _ => cases isArray

theorem isHole_shape (node : Node α β) : node.shape.isHole = node.isHole := by
  cases node with
  | jsxAttribute _ value => cases value <;> rfl
  | _ => rfl

theorem isArray_shape (node : Node α β) : node.shape.isArray = node.isArray := by
  cases node with
  | jsxAttribute _ value => cases value <;> rfl
  | _ => rfl

theorem isHole_fill {node : Node α β} {others : List (Edge γ δ)}
    (alike : Alike node.edges others) : (node.fill others).isHole = node.isHole := by
  rw [← isHole_shape, shape_fill alike, isHole_shape]

theorem isArray_fill {node : Node α β} {others : List (Edge γ δ)}
    (alike : Alike node.edges others) : (node.fill others).isArray = node.isArray := by
  rw [← isArray_shape, shape_fill alike, isArray_shape]

end Node

/-! ## What was reported of a hole -/

namespace Term

/-- Some terms, and what was reported of each hole in them, from first to last.
Only of an element that is left out of an array is nothing reported; `elements`
says whether the terms are the elements of one. -/
inductive Accounted : Bool → List Term → List (Option Diagnostic) → Prop
  | nil {elements : Bool} : Accounted elements [] []
  | elision {rest : List Term} {reports : List (Option Diagnostic)} :
    Accounted true rest reports → Accounted true (hole :: rest) (none :: reports)
  | reported {elements : Bool} {diagnostic : Diagnostic} {rest : List Term}
      {reports : List (Option Diagnostic)} :
    Accounted elements rest reports →
    Accounted elements (hole :: rest) (some diagnostic :: reports)
  | node {elements : Bool} {node : Node Term (List Term)} {rest : List Term}
      {inner reports : List (Option Diagnostic)} :
    node.isHole = false → Accounted node.isArray node.children inner →
    Accounted elements rest reports → Accounted elements (⟨node⟩ :: rest) (inner ++ reports)

namespace Accounted

variable {elements : Bool} {first second : List Term} {reports others : List (Option Diagnostic)}

theorem append (here : Accounted elements first reports)
    (there : Accounted elements second others) :
    Accounted elements (first ++ second) (reports ++ others) := by
  induction here with
  | nil => exact there
  | elision _ ih => exact .elision (ih there)
  | reported _ ih => exact .reported (ih there)
  | node present inside _ _ ih =>
    rw [List.append_assoc]
    exact .node present inside (ih there)

theorem exists_of_append (accounted : Accounted elements (first ++ second) reports) :
    ∃ here there, reports = here ++ there ∧ Accounted elements first here ∧
      Accounted elements second there := by
  induction first generalizing reports with
  | nil => exact ⟨[], reports, rfl, .nil, accounted⟩
  | cons term rest ih =>
    cases accounted with
    | elision accounted =>
      obtain ⟨here, there, rfl, left, right⟩ := ih accounted
      exact ⟨none :: here, there, rfl, .elision left, right⟩
    | @reported _ diagnostic _ _ accounted =>
      obtain ⟨here, there, rfl, left, right⟩ := ih accounted
      exact ⟨some diagnostic :: here, there, rfl, .reported left, right⟩
    | @node _ _ _ inner _ present inside accounted =>
      obtain ⟨here, there, rfl, left, right⟩ := ih accounted
      exact ⟨inner ++ here, there, (List.append_assoc ..).symm, .node present inside left, right⟩

/-- A term is a hole, or what is reported of the holes in it comes before the rest. -/
theorem cons_cases {node : Node Term (List Term)}
    (accounted : Accounted elements (⟨node⟩ :: second) reports) :
    (node.isHole = true ∧ ∃ report others, reports = report :: others ∧
      (report = none → elements = true) ∧ Accounted elements second others) ∨
    (node.isHole = false ∧ ∃ inner others, reports = inner ++ others ∧
      Accounted node.isArray node.children inner ∧ Accounted elements second others) := by
  cases accounted with
  | @elision _ others accounted => exact .inl ⟨rfl, none, others, rfl, fun _ => rfl, accounted⟩
  | @reported _ diagnostic _ others accounted =>
    exact .inl ⟨rfl, some diagnostic, others, rfl, by rintro ⟨⟩, accounted⟩
  | @node _ _ _ inner others present inside accounted =>
    exact .inr ⟨present, inner, others, rfl, inside, accounted⟩

theorem single {node : Node Term (List Term)} (present : node.isHole = false)
    (inside : Accounted node.isArray node.children reports) :
    Accounted elements [⟨node⟩] reports := by
  have accounted : Accounted elements [⟨node⟩] (reports ++ []) := .node present inside .nil
  rwa [List.append_nil] at accounted

/-- What may stand anywhere may stand in an array. -/
theorem of_anywhere (accounted : Accounted false first reports) :
    Accounted elements first reports := by
  generalize anywhere : false = inArray at accounted
  induction accounted with
  | nil => exact .nil
  | elision => cases anywhere
  | reported _ ih => exact .reported (ih anywhere)
  | node present inside _ _ ih => exact .node present inside (ih anywhere)

end Accounted

end Term

/-! ## Drafts -/

/-- A term together with what was reported of each of its holes. -/
structure Draft where
  term : Term
  reports : List (Option Diagnostic)

namespace Draft

open Term (Accounted)

/-- The number of elements that are left out of the arrays in a draft. -/
def elisions (draft : Draft) : Nat :=
  draft.reports.countP Option.isNone

/-- What is reported of the holes of a draft. -/
def diagnostics (draft : Draft) : List Diagnostic :=
  draft.reports.reduceOption

/-- The term and the diagnostics of a draft. -/
def reported (draft : Draft) : Reported Term :=
  ⟨draft.term, draft.diagnostics⟩

/-- Whether each hole of a draft has its report. -/
def Sound (draft : Draft) : Prop :=
  Accounted false [draft.term] draft.reports

/-- The terms at an edge. -/
def part : Edge Draft (List Draft) → Part
  | .node draft => .node draft.term
  | .list drafts => .list (drafts.map term)

/-- The term of an element of an array. -/
def elementTerm (element : Option Draft) : Term :=
  element.elim Term.hole term

/-- What is reported of the holes in an element of an array: nothing, if it is left out. -/
def elementReports (element : Option Draft) : List (Option Diagnostic) :=
  element.elim [none] reports

theorem alike_part (edges : List (Edge Draft (List Draft))) : Alike edges (edges.map part) :=
  Edge.alike_map (fun edge => by cases edge <;> rfl) edges

theorem children_fill_part (node : Node Draft (List Draft)) :
    (node.fill (node.edges.map part)).children = node.children.map term := by
  have items : ∀ edge : Edge Draft (List Draft), (part edge).items = edge.items.map term := by
    intro edge
    cases edge <;> rfl
  simp only [Node.children, Node.edges_fill (alike_part _), List.flatMap_map, List.map_flatMap,
    items]

end Draft

namespace Program

open Draft (part elementTerm elementReports)
open Term (Accounted)

/-- Drafts. The holes of a node are those of its children, in walking order. -/
def drafts : Algebra Draft where
  node node := ⟨⟨node.fill (node.edges.map part)⟩, node.children.flatMap Draft.reports⟩
  array elements := ⟨⟨.array (elements.map elementTerm)⟩, elements.flatMap elementReports⟩
  unsupported what span := ⟨Term.hole, [some (.unsupported what span)]⟩
  abandoning _ rest := rest

/-- The draft of a program. -/
def draft (program : Program) : Draft :=
  program.fold drafts

/-! ## Each hole has its report -/

theorem NodesRelated.isHole_eq_false {α β : Type} {R : Role → α → β → Prop} {role : Role}
    {node : Node α (List α)} {other : Node β (List β)} (related : NodesRelated R role node other) :
    node.isHole = false := by
  cases related <;> rfl

theorem accounted_map (elements : Bool) {inner : List Draft}
    (sound : ∀ draft ∈ inner, draft.Sound) :
    Accounted elements (inner.map Draft.term) (inner.flatMap Draft.reports) := by
  induction inner with
  | nil => exact .nil
  | cons draft rest ih =>
    obtain ⟨first, others⟩ := List.forall_mem_cons.mp sound
    exact first.of_anywhere.append (ih others)

theorem accounted_elements {elements others : List (Option Draft)}
    (sound : List.Forall₂ (Option.Rel fun draft _ => draft.Sound) elements others) :
    Accounted true (elements.map elementTerm) (elements.flatMap elementReports) := by
  induction sound with
  | nil => exact .nil
  | cons first _ ih =>
    cases first with
    | none => exact .elision ih
    | some first => exact first.of_anywhere.append ih

theorem sound_node {role : Role} {node other : Node Draft (List Draft)}
    (related : NodesRelated (OneSided fun _ => Draft.Sound) role node other) :
    (drafts.node node).Sound := by
  -- Lowering makes holes by no constructor of nodes, so the holes are those of the children.
  apply Accounted.single
  · rw [Node.isHole_fill (Draft.alike_part _), related.isHole_eq_false]
  · rw [Draft.children_fill_part]
    refine accounted_map _ fun draft mem => ?_
    obtain ⟨_, sound⟩ := related.forall_children draft mem
    exact sound

theorem sound_array {elements others : List (Option Draft)}
    (sound : List.Forall₂ (Option.Rel fun draft _ => draft.Sound) elements others) :
    (drafts.array elements).Sound := by
  refine .single rfl ?_
  rw [Node.children_array]
  exact accounted_elements sound

theorem sound_related : Related (OneSided fun _ => Draft.Sound) drafts drafts where
  node := sound_node
  array := sound_array
  unsupported _ _ := .reported .nil
  abandoning _ sound := sound
  part sound := sound
  name sound := sound

theorem sound_draft (program : Program) : program.draft.Sound :=
  fold_related sound_related program

/-! ## Lowering follows the drafts -/

/-- Lowering to a term yields the term of a draft and reports its holes. -/
abbrev Follows (lowered : Reported Term) (draft : Draft) : Prop :=
  lowered = draft.reported

theorem follows_items {lowered : List (Reported Term)} {inner : List Draft}
    (follows : List.Forall₂ Follows lowered inner) :
    lowered.map (·.value) = inner.map Draft.term ∧
      lowered.flatMap (·.diagnostics) = (inner.flatMap Draft.reports).reduceOption := by
  induction follows with
  | nil => exact ⟨rfl, rfl⟩
  | cons first _ ih =>
    subst first
    simp [ih, Draft.reported, Draft.diagnostics, List.reduceOption_append]

theorem follows_edges {lowered : List (Edge (Reported Term) (List (Reported Term)))}
    {edges : List (Edge Draft (List Draft))}
    (follows : List.Forall₂ (EdgesRelated Follows) lowered edges) :
    lowered.map loweredPart = edges.map part ∧
      (lowered.flatMap Edge.items).flatMap (·.diagnostics) =
        ((edges.flatMap Edge.items).flatMap Draft.reports).reduceOption := by
  induction follows with
  | nil => exact ⟨rfl, rfl⟩
  | cons first _ ih =>
    cases first with
    | node child =>
      subst child
      simp [ih, loweredPart, part, Draft.reported, Draft.diagnostics, List.reduceOption_append]
    | list children =>
      obtain ⟨values, reports⟩ := follows_items children
      simp [ih, loweredPart, part, values, reports, List.reduceOption_append]

theorem follows_node {node : Node (Reported Term) (List (Reported Term))}
    {node' : Node Draft (List Draft)} (same : node.shape = node'.shape)
    (edges : List.Forall₂ (EdgesRelated Follows) node.edges node'.edges) :
    Follows (terms.node node) (drafts.node node') := by
  obtain ⟨parts, reports⟩ := follows_edges edges
  have alike := Draft.alike_part node'.edges
  rw [Follows, terms_node_eq, parts,
    Node.fill_congr same ((edges_alike edges).trans alike) alike]
  exact congrArg (Reported.mk _) reports

theorem follows_elements {elements : List (Option (Reported Term))}
    {elements' : List (Option Draft)}
    (follows : List.Forall₂ (Option.Rel Follows) elements elements') :
    (elements.map (·.getD (pure Term.hole))).map (·.value) = elements'.map elementTerm ∧
      (elements.map (·.getD (pure Term.hole))).flatMap (·.diagnostics) =
        (elements'.flatMap elementReports).reduceOption := by
  induction follows with
  | nil => exact ⟨rfl, rfl⟩
  | cons first _ ih =>
    cases first with
    | none =>
      -- An element that is left out is a hole of which nothing is reported.
      exact ⟨congrArg (_ :: ·) ih.1, ih.2⟩
    | some child =>
      subst child
      simp [ih, elementTerm, elementReports, Draft.reported, Draft.diagnostics,
        List.reduceOption_append]

theorem follows_array {elements : List (Option (Reported Term))}
    {elements' : List (Option Draft)}
    (follows : List.Forall₂ (Option.Rel Follows) elements elements') :
    Follows (terms.array elements) (drafts.array elements') := by
  obtain ⟨values, reports⟩ := follows_elements follows
  rw [Follows, terms_array_eq, terms_node_eq]
  apply Reported.ext
  · exact congrArg (fun elements => Term.mk (.array elements)) values
  · rw [Node.children_array]
    exact reports

theorem follows_related : Related (fun _ => Follows) terms drafts :=
  .of_edges follows_node follows_array (fun _ _ => rfl) fun _ follows => follows

/-- Lowering yields the term of the draft and reports its holes in order. -/
theorem lower_eq (program : Program) : program.lower = program.draft.reported :=
  fold_related follows_related program

theorem value_lower (program : Program) : program.lower.value = program.draft.term := by
  rw [lower_eq]
  rfl

theorem diagnostics_lower (program : Program) :
    program.lower.diagnostics = program.draft.reports.reduceOption := by
  rw [lower_eq]
  rfl

end Program

end JsxFactory
