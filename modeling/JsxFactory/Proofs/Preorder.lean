/-
# The order of the walk

The walk that desugars a tree ends, whatever more fuel it is given, and it enters no node
twice. It enters the nodes in the order of the tree that it leaves, each one before what
is below it. Only the indentation that it takes out of sequences is no longer there.
-/

import JsxFactory.Proofs.Retracing

namespace JsxFactory

/-- The node at an edge, if it leads to one. -/
def Edge.node? {α β : Type} : Edge α β → Option α
  | .node child => some child
  | .list _ => none

namespace Tree

variable {t t' : Tree} {id : NodeId} {places footprint : List Place} {parts : List Part}

/-! ## The listing of a tree -/

/-- The nodes at a place: the node itself, or the items of the sequence. -/
def items (t : Tree) : Place → List NodeId
  | .node id => [id]
  | .list list => t.list list

/-- The nodes from a node down to some depth, each one before what is below it. -/
def preorder (t : Tree) : Nat → NodeId → List NodeId
  | 0, _ => []
  | depth + 1, id =>
    id :: (t.node id).edges.flatMap fun place => (t.items place).flatMap (t.preorder depth)

/-- The nodes of a footprint. -/
def nodeIds (footprint : List Place) : List NodeId :=
  footprint.filterMap Edge.node?

theorem mem_nodeIds : id ∈ nodeIds footprint ↔ .node id ∈ footprint := by
  rw [nodeIds, List.mem_filterMap]
  constructor
  · rintro ⟨place, mem, found⟩
    cases place with
    | node => exact Option.some.inj found ▸ mem
    | list => cases found
  · intro mem
    exact ⟨_, mem, rfl⟩

/-- A footprint lists its nodes in the order of the tree. -/
theorem Represents.preorder_eq (represents : t.Represents places parts footprint) {depth : Nat}
    (enough : nodeCount footprint ≤ depth) :
    places.flatMap (fun place => (t.items place).flatMap (t.preorder depth)) =
      nodeIds footprint := by
  -- Each node on the footprint pays for one step down.
  induction represents generalizing depth with
  | nil => rfl
  | @node id parts others places below rest _ _ ihBelow ihRest =>
    simp only [nodeCount, nodeCount_append] at enough
    obtain ⟨depth, rfl⟩ : ∃ less, depth = less + 1 := ⟨depth - 1, by omega⟩
    have inner := ihBelow (show nodeCount below ≤ depth by omega)
    have outer := ihRest (show nodeCount rest ≤ depth + 1 by omega)
    have here : t.preorder (depth + 1) id = id :: nodeIds below := congrArg (id :: ·) inner
    rw [List.flatMap_cons, outer, items, List.flatMap_singleton, here]
    simp [nodeIds, Edge.node?]
  | @list list terms others places below rest _ _ ihBelow ihRest =>
    simp only [nodeCount, nodeCount_append] at enough
    have inner := ihBelow (show nodeCount below ≤ depth by omega)
    have outer := ihRest (show nodeCount rest ≤ depth by omega)
    rw [List.flatMap_map] at inner
    simp only [items, List.flatMap_singleton] at inner
    rw [List.flatMap_cons, outer, items, inner]
    simp [nodeIds, Edge.node?, List.filterMap_cons]

theorem Owns.preorder_eq (owns : t.Owns [.node id] parts footprint) {depth : Nat}
    (enough : t.nodes.size ≤ depth) : t.preorder depth id = nodeIds footprint := by
  have count := nodeCount_le_size owns.nodup owns.inside
  have listing := owns.represents.preorder_eq (Nat.le_trans count enough)
  simpa [items] using listing

/-! ## What sequences have lost -/

/-- The nodes that are items of a sequence before and no longer so after. -/
def lost (t t' : Tree) : List NodeId :=
  (List.range t.lists.size).flatMap fun index =>
    (t.list ⟨index⟩).filter fun item => item ∉ t'.list ⟨index⟩

theorem mem_lost : id ∈ t.lost t' ↔ ∃ list, id ∈ t.list list ∧ id ∉ t'.list list := by
  simp only [lost, List.mem_flatMap, List.mem_range, List.mem_filter, decide_eq_true_eq]
  constructor
  · rintro ⟨index, _, mem, gone⟩
    exact ⟨⟨index⟩, mem, gone⟩
  · rintro ⟨list, mem, gone⟩
    exact ⟨list.index, contains_of_mem mem, mem, gone⟩

end Tree

namespace Desugar

variable {options : Options} {t t' : Tree} {id : NodeId} {footprint places left : List Place}
  {trail : List Visit}

namespace Course

/-- What was dropped on the way is lost. -/
theorem mem_lost_of_dropped (course : Course options none t footprint places t' left trail)
    (inside : ∀ place ∈ footprint, t.Contains place) {found : Slot}
    (mem : .node id found false ∈ trail) : id ∈ t.lost t' := by
  have recorded := course.recorded (.refl inside) .none (List.Subset.refl trail)
  cases recorded _ mem with
  | @dropped _ _ list memTrail contains memList indents =>
    refine Tree.mem_lost.mpr ⟨list, memList, fun memLeft => ?_⟩
    rw [(recorded _ memTrail).list_eq contains] at memLeft
    have lasts := (List.mem_filter.mp memLeft).2
    rw [indents] at lasts
    cases lasts

/-- What is lost is indentation and was dropped on the way. -/
theorem dropped_of_mem_lost (course : Course options none t footprint places t' left trail)
    (inside : ∀ place ∈ footprint, t.Contains place) (mem : id ∈ t.lost t') :
    (t.node id).indents = true ∧ ∃ found, .node id found false ∈ trail := by
  obtain ⟨list, memList, gone⟩ := Tree.mem_lost.mp mem
  have contains := Tree.contains_of_mem memList
  -- Elsewhere no sequence is changed.
  have memFootprint : .list list ∈ footprint := by
    by_contra outside
    have same : t'.list list = t.list list := course.rebuilds.kept (.list list) contains outside
    exact gone (same ▸ memList)
  have indents : (t.node id).indents = true := by
    rw [course.list_eq inside memFootprint] at gone
    by_contra lasts
    exact gone (List.mem_filter.mpr ⟨memList, by simp [lasts]⟩)
  refine ⟨indents, ?_⟩
  obtain ⟨visit, same, recorded⟩ :=
    course.exists_recorded inside memFootprint ⟨id, memList, indents⟩
  cases Visit.eq_list same
  cases recorded with
  | @list t₁ t₂ _ under inner origin walked subset _ =>
    -- When the walk comes to the sequence, the item is still there, and still indentation.
    have sameList : t₁.list list = t.list list := origin.same _ List.mem_cons_self contains
    have memPlaces : (.node id : Place) ∈ (t₁.list list).map .node :=
      List.mem_map_of_mem (sameList ▸ memList)
    have indents₁ : (t₁.node id).indents = true := by
      rw [origin.indents_eq (List.mem_cons_of_mem _ (walked.places_subset memPlaces))]
      exact indents
    exact ⟨_, subset (walked.mem_of_indents memPlaces indents₁)⟩

theorem nodup_visited (course : Course options none t footprint places t' left trail) :
    (visited trail).Nodup :=
  course.rebuilds.nodup

/-- A visited node stays exactly if it is not lost. -/
theorem stays_iff (course : Course options none t footprint places t' left trail)
    (inside : ∀ place ∈ footprint, t.Contains place) {found : Slot} {stays : Bool}
    (mem : .node id found stays ∈ trail) : stays = true ↔ id ∉ t.lost t' := by
  cases stays with
  | false => simp [course.mem_lost_of_dropped inside mem]
  | true =>
    refine ⟨fun _ memLost => ?_, fun _ => rfl⟩
    obtain ⟨_, found', memDropped⟩ := course.dropped_of_mem_lost inside memLost
    -- A place is visited once, so it cannot have been dropped in another visit.
    cases List.inj_on_of_nodup_map course.nodup_visited mem memDropped rfl

/-- Of the nodes that are entered, those that are not lost stay. -/
theorem entered_eq (course : Course options none t footprint places t' left trail)
    (inside : ∀ place ∈ footprint, t.Contains place) :
    (trail.filterMap Visit.id?).filter (· ∉ t.lost t') = Tree.nodeIds (stayed trail) := by
  rw [Tree.nodeIds, stayed, List.filterMap_map, List.filter_filterMap, List.filterMap_filter]
  refine List.filterMap_congr fun visit mem => ?_
  cases visit with
  | list => rfl
  | node id found stays =>
    have lasts : decide (id ∉ t.lost t') = stays := by
      rw [Bool.eq_iff_iff, decide_eq_true_iff, course.stays_iff inside mem]
    change Option.filter _ (some id) = if stays then some id else none
    rw [Option.filter_some, lasts]

end Course

theorem filterMap_id? (trail : List Visit) :
    trail.filterMap Visit.id? = Tree.nodeIds (visited trail) := by
  rw [Tree.nodeIds, visited, List.filterMap_map]
  refine List.filterMap_congr fun visit _ => ?_
  cases visit <;> rfl

end Desugar

namespace Tree

theorem nodup_nodeIds {footprint : List Place} (nodup : footprint.Nodup) :
    (nodeIds footprint).Nodup := by
  refine nodup.filterMap fun first second id here there => ?_
  cases first with
  | list => cases here
  | node =>
    cases second with
    | list => cases there
    | node =>
      cases here
      cases there
      rfl

/-- The walk that desugars a tree never runs out of fuel, and ends the same way with more. If
it succeeds, it has entered no node twice. Without the indentation that sequences have lost,
the nodes that it has entered are those of the desugared tree, in the order of that tree. -/
theorem desugar_preorder (options : Options) (t : Tree)
    (source : t.IsRead ∨ t.IsLowered ∨ t.WellOwned) :
    (∀ s, Desugar.run options t ≠ .error .outOfFuel s) ∧
    (∀ fuel, Desugar.fuel t ≤ fuel →
      Walk.walk (Desugar.visitor options) fuel ⟨t, {}⟩ = Desugar.run options t) ∧
    ∀ s, Desugar.run options t = .ok () s → ∃ entered : List NodeId,
      (∀ fuel, Desugar.fuel t ≤ fuel →
        Walk.walk (Desugar.visitor options).logging fuel ⟨t, {}, []⟩ =
          .ok () ⟨s.tree, s.memory, entered⟩) ∧
      entered.Nodup ∧
      (∀ id ∈ t.lost s.tree, id ∈ entered ∧ (t.node id).indents = true) ∧
      ∀ depth, s.tree.nodes.size ≤ depth →
        entered.filter (· ∉ t.lost s.tree) = s.tree.preorder depth s.tree.root := by
  obtain ⟨term, footprint, owns⟩ := (wellOwned_of_source source).owned.exists_owns
  have ends : ∀ s, Desugar.run options t ≠ .error .outOfFuel s := by
    intro s out
    have lockstep := Desugar.run_lockstep options owns
    rw [out] at lockstep
    cases lockstep
  refine ⟨ends, fun fuel le => Walk.walk_eq_of_le _ le ends, fun s succeeds => ?_⟩
  obtain ⟨trail, course, memory, logged⟩ := Desugar.exists_course owns succeeds
  obtain ⟨results, owns'⟩ := course.owns
  rw [← course.evolves.root_eq] at owns'
  refine ⟨trail.filterMap Desugar.Visit.id?, ?logged, ?nodup, ?lost, ?listing⟩
  case logged =>
    intro fuel le
    rw [Walk.walk_eq_of_le _ le (by simp [logged]), logged, memory]
    rfl
  case nodup =>
    rw [Desugar.filterMap_id?]
    exact nodup_nodeIds course.nodup_visited
  case lost =>
    intro id mem
    obtain ⟨indents, found, dropped⟩ := course.dropped_of_mem_lost owns.inside mem
    exact ⟨List.mem_filterMap.mpr ⟨_, dropped, rfl⟩, indents⟩
  case listing =>
    intro depth enough
    rw [course.entered_eq owns.inside, owns'.preorder_eq enough]

/-- Here one text is lost, the indentation before the first child. -/
theorem desugar_preorder_nestedElement :
    (ofTerm Term.nestedElement).IsRead ∧
    ∃ s entered, Desugar.run {} (ofTerm Term.nestedElement) = .ok () s ∧
      Walk.walk (Desugar.visitor {}).logging (Desugar.fuel (ofTerm Term.nestedElement))
        ⟨ofTerm Term.nestedElement, {}, []⟩ = .ok () ⟨s.tree, s.memory, entered⟩ ∧
      entered.Nodup ∧ ⟨13⟩ ∈ entered ∧
      entered.filter (· ∉ [⟨13⟩]) =
        [17, 23, 3, 1, 2, 21, 19, 18, 9, 5, 7, 26, 24, 25, 20, 11, 22, 14, 16].map NodeId.mk := by
  have isRead := isRead_nestedElement
  have desugars : Term.nestedElement.desugar {} = .ok Term.nestedCall := rfl
  obtain ⟨t', _, succeeds, _⟩ := exists_desugar_ofTerm desugars
  obtain ⟨s, ran, rfl⟩ := exists_run_of_desugar succeeds
  obtain ⟨_, _, whenOk⟩ := desugar_preorder {} (ofTerm Term.nestedElement) (.inl isRead)
  obtain ⟨entered, logged, nodup, enteredLost, listing⟩ := whenOk s ran
  have lost : ((ofTerm Term.nestedElement).desugar {}).toOption.map
    (ofTerm Term.nestedElement).lost = some [⟨13⟩] := by decide +kernel
  have size : ((ofTerm Term.nestedElement).desugar {}).toOption.map (·.nodes.size) = some 27 := by
    decide +kernel
  have listed : ((ofTerm Term.nestedElement).desugar {}).toOption.map
      (fun t' => t'.preorder 27 t'.root) = some
        ([17, 23, 3, 1, 2, 21, 19, 18, 9, 5, 7, 26, 24, 25, 20, 11, 22, 14, 16].map NodeId.mk) := by
    decide +kernel
  rw [succeeds] at lost size listed
  have lostEq : (ofTerm Term.nestedElement).lost s.tree = [⟨13⟩] := Option.some.inj lost
  rw [lostEq] at listing enteredLost
  refine ⟨isRead, s, entered, ran, logged _ (Nat.le_refl _), nodup, ?_, ?_⟩
  · exact (enteredLost ⟨13⟩ List.mem_cons_self).1
  · exact (listing 27 (Option.some.inj size).le).trans (Option.some.inj listed)

end Tree

end JsxFactory
