/-
# What lowering reports

Lowering a program into a store yields the term of its draft, and reports what the
draft says of the holes. So every hole of a lowered tree has its diagnostic, in the
order of the tree, but for the elements that are left out of arrays; and every
diagnostic has its hole. The holes come in the order in which they were added, as the
diagnostics do, and none was added that the tree does not have.
-/

import JsxFactory.Proofs.Counting
import JsxFactory.Proofs.Drafts
import JsxFactory.Proofs.Preorder

namespace JsxFactory

open Term (Accounted)

/-! ## The holes of a tree -/

namespace Tree

variable {t : Tree} {places footprint : List Place} {parts : List Part} {elements : Bool}
  {reports : List (Option Diagnostic)}

/-- The holes of a tree, in its order. -/
def holes (t : Tree) : List NodeId :=
  (t.preorder t.nodes.size t.root).filter fun id => (t.node id).isHole

/-- Whether a node is an element of an array of the tree. -/
def IsElement (t : Tree) (id : NodeId) : Prop :=
  ∃ holder list, t.Reachable (.node holder) ∧ t.node holder = .array list ∧ id ∈ t.list list

/-- The holes among the nodes of a footprint. -/
def holesIn (t : Tree) (footprint : List Place) : List NodeId :=
  (nodeIds footprint).filter fun id => (t.node id).isHole

theorem holesIn_append (first rest : List Place) :
    t.holesIn (first ++ rest) = t.holesIn first ++ t.holesIn rest := by
  simp [holesIn, nodeIds]

theorem holesIn_node_of_isHole {id : NodeId} (absent : (t.node id).isHole = true)
    (rest : List Place) : t.holesIn (.node id :: rest) = id :: t.holesIn rest := by
  simp [holesIn, nodeIds, Edge.node?, absent]

theorem holesIn_node_of_not_isHole {id : NodeId} (present : (t.node id).isHole = false)
    (rest : List Place) : t.holesIn (.node id :: rest) = t.holesIn rest := by
  simp [holesIn, nodeIds, Edge.node?, present]

theorem holesIn_list (list : ListId) (rest : List Place) :
    t.holesIn (.list list :: rest) = t.holesIn rest := by
  simp [holesIn, nodeIds, List.filterMap_cons, Edge.node?]

theorem Represents.holes_accounted (represents : t.Represents places parts footprint)
    (accounted : Accounted elements (parts.flatMap Edge.items) reports)
    (reached : ∀ place ∈ places, t.Reachable place)
    (held : elements = true → ∀ place ∈ places, ∀ id ∈ t.items place, t.IsElement id) :
    List.Forall₂ (fun id report => report = none → t.IsElement id)
      (t.holesIn footprint) reports := by
  induction represents generalizing elements reports with
  | nil =>
    cases accounted
    exact .nil
  | @node id parts others places below rest inside outside ihBelow ihRest =>
    have reachedHere := reached _ List.mem_cons_self
    have reachedRest := fun place mem => reached place (List.mem_cons_of_mem _ mem)
    have heldRest := fun isArray place mem => held isArray place (List.mem_cons_of_mem _ mem)
    rw [List.flatMap_cons, Edge.items_node, List.singleton_append] at accounted
    rcases accounted.cons_cases with ⟨absent, report, after, rfl, free, right⟩ |
      ⟨present, inner, after, rfl, left, right⟩
    · -- A hole has no children, so the rest of the footprint comes next.
      rw [Node.isHole_fill inside.alike] at absent
      have leaf : below = [] := by
        rw [Node.isHole_iff.mp absent] at inside
        cases inside
        rfl
      rw [holesIn_node_of_isHole absent, leaf, List.nil_append]
      refine .cons (fun missing => ?_) (ihRest right reachedRest heldRest)
      exact held (free missing) _ List.mem_cons_self id List.mem_cons_self
    · rw [Node.isHole_fill inside.alike] at present
      rw [Node.isArray_fill inside.alike, Node.children, Node.edges_fill inside.alike] at left
      rw [holesIn_node_of_not_isHole present, holesIn_append]
      refine List.rel_append (ihBelow left ?_ ?_) (ihRest right reachedRest heldRest)
      · intro place mem
        exact reachedHere.tail mem
      · intro isArray place mem item memItem
        obtain ⟨list, isArray⟩ := Node.exists_of_isArray isArray
        rw [isArray] at mem
        cases List.mem_singleton.mp mem
        exact ⟨id, list, reachedHere, isArray, memItem⟩
  | @list list terms others places below rest inside outside ihBelow ihRest =>
    rw [List.flatMap_cons, Edge.items_list] at accounted
    obtain ⟨here, there, rfl, left, right⟩ := accounted.exists_of_append
    have items : (terms.map Edge.node).flatMap Edge.items = terms := by simp [List.flatMap_map]
    rw [← items] at left
    rw [holesIn_list, holesIn_append]
    refine List.rel_append (ihBelow left ?_ ?_) (ihRest right ?_ ?_)
    · intro place mem
      exact (reached _ List.mem_cons_self).tail mem
    · intro isArray place mem item memItem
      obtain ⟨element, memList, rfl⟩ := List.mem_map.mp mem
      cases List.mem_singleton.mp memItem
      exact held isArray _ List.mem_cons_self item memList
    · exact fun place mem => reached place (List.mem_cons_of_mem _ mem)
    · exact fun isArray place mem => held isArray place (List.mem_cons_of_mem _ mem)

namespace Owns

theorem holes_eq (owns : t.Owns [.node t.root] parts footprint) :
    t.holes = t.holesIn footprint := by
  rw [holes, owns.preorder_eq (Nat.le_refl _), holesIn]

theorem forall₂_holes {term : Term}
    (owns : t.Owns [.node t.root] [.node term] footprint)
    (accounted : Accounted false [term] reports) :
    List.Forall₂ (fun id report => report = none → t.IsElement id) t.holes reports := by
  rw [owns.holes_eq]
  apply owns.represents.holes_accounted accounted
  · intro place mem
    cases List.mem_singleton.mp mem
    exact .refl
  · rintro ⟨⟩

/-- Leaves that come in order are holes that come in order. -/
theorem pairwise_holes (owns : t.Owns [.node t.root] parts footprint)
    (ordered : footprint.Pairwise t.LeafBefore) :
    t.holes.Pairwise fun first second => first.index < second.index := by
  rw [owns.holes_eq, holesIn, List.pairwise_filter, nodeIds, List.pairwise_filterMap]
  refine ordered.imp fun {place place'} before => ?_
  cases place with
  | node first =>
    cases place' with
    | node second =>
      rintro _ ⟨⟩ _ ⟨⟩ absent absent'
      apply before
      · rw [Node.isHole_iff.mp absent]
        rfl
      · rw [Node.isHole_iff.mp absent']
        rfl
    | list => rintro _ _ _ ⟨⟩
  | list => rintro _ ⟨⟩

theorem nodup_holes (owns : t.Owns [.node t.root] parts footprint) : t.holes.Nodup := by
  rw [owns.holes_eq]
  exact (nodup_nodeIds owns.nodup).filter _

theorem mem_holes (owns : t.Owns [.node t.root] parts footprint) {id : NodeId} :
    id ∈ t.holes ↔ t.Reachable (.node id) ∧ t.node id = .hole := by
  have listed : id ∈ nodeIds footprint ↔ t.Reachable (.node id) := by
    rw [mem_nodeIds]
    exact ⟨owns.represents.reached_of_mem (by simp [Relation.ReflTransGen.refl]),
      owns.mem_of_reachable⟩
  rw [owns.holes_eq, holesIn, List.mem_filter, listed, Node.isHole_iff]

theorem mem_holes_of_mem (owns : t.Owns [.node t.root] parts footprint) {id : NodeId}
    (mem : .node id ∈ footprint) (absent : t.node id = .hole) : id ∈ t.holes := by
  rw [owns.holes_eq, holesIn, List.mem_filter, mem_nodeIds, Node.isHole_iff]
  exact ⟨mem, absent⟩

theorem population_isHole (owns : t.Owns [.node t.root] parts footprint) :
    t.population Node.isHole = t.holes.length := by
  have listed : {id : NodeId | t.Reachable (.node id) ∧ (t.node id).isHole = true} =
      t.holes.toFinset := by
    ext id
    simp [owns.mem_holes, Node.isHole_iff]
  rw [population, listed, Set.ncard_coe_finset, List.toFinset_card_of_nodup owns.nodup_holes]

end Owns

end Tree

namespace Program

open JsxFactory.Tree (ofProgram)

/-- Lowering reports every hole that it leaves, and nothing but holes. In the order of the tree,
which is the order in which they were added, the holes are those of the draft, and each comes
with what was reported when it was made; one that stands for a function comes with the report of
its rest parameter. All holes in the store are among them, but for the one that is there from
the start. Without those that come with nothing, which are elements left out of arrays, the
reports are the diagnostics. -/
theorem lower_reports_holes (program : Program) :
    let t := (ofProgram program).value
    let diagnostics := (ofProgram program).diagnostics
    let labelled := t.holes.zip program.draft.reports
    t.toTerm? = some program.draft.term ∧
    t.holes.Nodup ∧ (∀ id, id ∈ t.holes ↔ t.Reachable (.node id) ∧ t.node id = .hole) ∧
    t.holes.Pairwise (fun first second => first.index < second.index) ∧
    (∀ id, t.Contains (.node id) → t.node id = .hole → id = Tree.empty.root ∨ id ∈ t.holes) ∧
    labelled.map Prod.fst = t.holes ∧ labelled.map Prod.snd = program.draft.reports ∧
    labelled.filterMap Prod.snd = diagnostics ∧
    (∀ id, (id, none) ∈ labelled → t.IsElement id) ∧
    t.population Node.isHole = diagnostics.length + program.draft.elisions ∧
    (diagnostics = [] → ∀ id, t.Reachable (.node id) → t.node id = .hole →
      (id, none) ∈ labelled) := by
  intro t diagnostics labelled
  have reports : diagnostics = program.draft.reports.reduceOption :=
    (Tree.diagnostics_ofProgram program).trans program.diagnostics_lower
  obtain ⟨footprint, owns, ordered, added⟩ := Tree.owns_ofProgram_ordered program
  rw [program.value_lower] at owns
  obtain ⟨length, elements⟩ := List.forall₂_iff_zip.mp (owns.forall₂_holes program.sound_draft)
  have firsts : labelled.map Prod.fst = t.holes := List.map_fst_zip length.le
  have seconds : labelled.map Prod.snd = program.draft.reports := List.map_snd_zip length.ge
  have reported : labelled.filterMap Prod.snd = diagnostics := by
    rw [reports, ← seconds, List.reduceOption, List.filterMap_map]
    rfl
  refine ⟨owns.toTerm?, owns.nodup_holes, fun _ => owns.mem_holes, owns.pairwise_holes ordered,
    fun id inside absent => (added id inside absent).imp_right (owns.mem_holes_of_mem · absent),
    firsts, seconds, reported, fun _ mem => elements mem rfl, ?count, ?silent⟩
  case count =>
    rw [owns.population_isHole, length, reports, Draft.elisions, List.countP_eq_length_filter]
    exact List.length_eq_reduceOption_length_add_filter_none
  case silent =>
    intro nothing id reachable absent
    rw [nothing, List.filterMap_eq_nil_iff] at reported
    have listed : id ∈ labelled.map Prod.fst := firsts ▸ owns.mem_holes.mpr ⟨reachable, absent⟩
    obtain ⟨⟨hole, report⟩, mem, same⟩ := List.mem_map.mp listed
    cases same
    cases (reported _ mem : report = none)
    exact mem

/-- The program `[, class {}, function f(...items) { return [,] }]`. -/
def sparseArray : Program :=
  ⟨.module, [.expression ⟨0, 49⟩ (.array ⟨0, 49⟩
    [none, some (.plain (.unsupported ⟨3, 11⟩)),
      some (.plain (.function (.mk ⟨13, 48⟩ (some "f") false false ⟨[], some ⟨24, 32⟩⟩
        (some [.returns ⟨36, 46⟩ (some (.array ⟨43, 46⟩ [none]))]))))])]⟩

-- Of the element left out of the inner array there is no trace.
example : sparseArray.draft.reports.map (Option.map Diagnostic.labels) =
    [none, some [⟨3, 11⟩], some [⟨24, 32⟩]] := rfl

-- The name of the function was added before its parameters were looked at, and nothing holds it.
example : (ofProgram sparseArray).value.holes = [⟨1⟩, ⟨2⟩, ⟨4⟩] := by decide +kernel

example : (ofProgram sparseArray).value.node ⟨3⟩ = .identifier "f" := rfl

end Program

end JsxFactory
