/-
# Retracing a walk to its start

The course of a walk is told step by step, from one tree to the next. Here each visit is
told from the tree that the walk started with. As long as a place is ahead of the walk, it
holds what it held at the start; what has come up since is inert. So an element or a text
is found as it was at first, however much has been done to the tree before. The places
that are left behind without a visit are inert too, so no element and no text is passed
over.
-/

import JsxFactory.Proofs.Course

namespace JsxFactory

namespace Tree

variable {t t₁ : Tree} {place : Place}

/-- Whether there is an element or a text at a place, or a sequence with indentation. -/
def Lively (t : Tree) : Place → Prop
  | .node id => (t.node id).Markup ∧ ¬ (t.node id).Inert
  | .list list => ∃ item ∈ t.list list, (t.node item).indents = true

theorem Lively.of_indents {id : NodeId} (indents : (t.node id).indents = true) :
    t.Lively (.node id) := by
  refine ⟨(Node.sugar_of_indents indents).markup, fun inert => ?_⟩
  rw [inert.indents] at indents
  cases indents

theorem Lively.contains (lively : t.Lively place) : t.Contains place := by
  cases place with
  | node id =>
    refine contains_of_ne_hole rfl fun hole => ?_
    rw [Lively, hole] at lively
    exact lively.1
  | list list =>
    obtain ⟨item, mem, _⟩ := lively
    exact contains_of_mem mem

/-- A sequence in which no indentation is stays free of it. -/
theorem Evolves.inertAt_list (evolves : t.Evolves t₁) {list : ListId}
    (inside : t.Contains (.list list)) (inert : t.InertAt (.list list)) :
    t₁.InertAt (.list list) := by
  intro item mem
  refine Bool.eq_false_iff.mpr fun indents => ?_
  have lasts := inert item ((evolves.items list inside).subset mem)
  rw [evolves.indents indents] at lasts
  cases lasts

theorem Evolves.inertAt (evolves : t.Evolves t₁) (inside : t.Contains place)
    (same : t.SameAt t₁ place) (inert : t.InertAt place) : t₁.InertAt place := by
  cases place with
  | node id =>
    rw [InertAt, same]
    exact inert
  | list list => exact evolves.inertAt_list inside inert

end Tree

namespace Desugar

open JsxFactory.Tree (Rebuilds)

variable {options : Options} {holder : Option ListId} {t₀ t t₁ t' : Tree} {id : NodeId}
  {list : ListId} {under under₁ footprint places left rest old new : List Place} {place : Place}
  {trail all : List Visit}

/-! ## What is ahead is as it was -/

/-- How the tree on a footprint compares to the tree at the start: old places hold what
they held then, and new ones are inert. -/
structure Origin (t₀ t : Tree) (footprint : List Place) : Prop where
  evolves : t₀.Evolves t
  same : ∀ place ∈ footprint, t₀.Contains place → t₀.SameAt t place
  inert : ∀ place ∈ footprint, ¬ t₀.Contains place → t.InertAt place

namespace Origin

theorem refl (inside : ∀ place ∈ footprint, t.Contains place) : Origin t t footprint where
  evolves := .refl t
  same place _ _ := by cases place <;> rfl
  inert place mem new := absurd (inside place mem) new

theorem mono (origin : Origin t₀ t footprint) (subset : rest ⊆ footprint) : Origin t₀ t rest where
  evolves := origin.evolves
  same place mem := origin.same place (subset mem)
  inert place mem := origin.inert place (subset mem)

theorem indents_eq (origin : Origin t₀ t footprint) (mem : .node id ∈ footprint) :
    (t.node id).indents = (t₀.node id).indents := by
  by_cases contains : t₀.Contains (.node id)
  · exact congrArg Node.indents (origin.same _ mem contains)
  · rw [Tree.node_of_not_contains contains]
    exact Node.Inert.indents (origin.inert _ mem contains)

/-- What is beside a footprint that was rebuilt. -/
theorem beside (origin : Origin t₀ t rest) (evolves : t.Evolves t₁)
    (rebuilds : t.Rebuilds t₁ old new) (disjoint : old.Disjoint rest)
    (inside : ∀ place ∈ rest, t.Contains place) : Origin t₀ t₁ rest := by
  have same : ∀ place ∈ rest, t.SameAt t₁ place := fun place mem =>
    rebuilds.kept place (inside place mem) fun memOld => disjoint memOld mem
  refine ⟨origin.evolves.trans evolves, ?_, ?_⟩
  · exact fun place mem contains => (origin.same place mem contains).trans (same place mem)
  · exact fun place mem new =>
      evolves.inertAt (inside place mem) (same place mem) (origin.inert place mem new)

/-- What is below a node after it was entered. -/
theorem below (origin : Origin t₀ t under) (entered : Entered options t id under t₁ under₁) :
    Origin t₀ t₁ under₁ where
  evolves := origin.evolves.trans entered.enters.evolves
  same place mem contains := by
    have inside := origin.evolves.contains contains
    exact (origin.same place (entered.mem_below mem inside) contains).trans
      (entered.sameAt mem inside)
  inert place mem new := by
    by_cases inside : t.Contains place
    · exact entered.enters.evolves.inertAt inside (entered.sameAt mem inside)
        (origin.inert place (entered.mem_below mem inside) new)
    · exact entered.inertAt_of_new mem inside

/-- An element or a text below a node, or a sequence with indentation, is still there after
the node was entered. -/
theorem mem_of_lively (origin : Origin t₀ t under) (entered : Entered options t id under t₁ under₁)
    (mem : place ∈ under) (lively : t₀.Lively place) : place ∈ under₁ := by
  obtain ⟨_, owns⟩ := entered.owns
  have same := origin.same place mem lively.contains
  by_contra lost
  have inert : t.InertAt place := by
    refine entered.inertAt_of_lost mem lost ?_
    rintro expression found rfl
    -- An expression that stands without its braces is no markup.
    obtain ⟨bare, _⟩ := entered.below_eq_of_braces found
    rw [same] at bare
    exact Node.not_markup_of_bare bare lively.1
  cases place with
  | node other =>
    rw [Tree.InertAt, same] at inert
    exact lively.2 inert
  | list list =>
    obtain ⟨item, memItem, indents⟩ := lively
    rw [← same] at memItem
    have memUnder : .node item ∈ under :=
      owns.represents.mem_of_holds mem (List.mem_map_of_mem memItem)
    have sameItem : t.node item = t₀.node item :=
      origin.same _ memUnder (Tree.Lively.of_indents indents).contains
    have lasts := inert item memItem
    rw [sameItem, indents] at lasts
    cases lasts

end Origin

/-! ## Past a step of the course -/

/-- What stays is more than indentation. -/
theorem Enters.indents (enters : Enters options t id t₁) : (t.node id).indents = false := by
  cases enters with
  | plain plain =>
    generalize t.node id = slot at plain
    cases slot with
    | jsxText => exact plain.elim
    | _ => rfl
  | text found lasts =>
    rw [found]
    exact lasts
  | name found | member found | container found | element found =>
    rw [found]
    rfl

theorem Visited.evolves (visited : Visited options t id footprint t₁ trail) : t.Evolves t₁ := by
  cases visited with
  | intro entered course => exact entered.enters.evolves.trans course.evolves

namespace Origin

theorem below_of_node (origin : Origin t₀ t (.node id :: (under ++ rest)))
    (entered : Entered options t id under t₁ under₁) : Origin t₀ t₁ under₁ :=
  (origin.mono (by simp)).below entered

theorem rest_of_node (origin : Origin t₀ t (.node id :: (under ++ rest)))
    (visited : Visited options t id (.node id :: under) t₁ trail)
    (disjoint : (.node id :: under).Disjoint (held holder ++ rest))
    (inside : ∀ place ∈ held holder ++ rest, t.Contains place) : Origin t₀ t₁ rest :=
  (origin.mono (by simp)).beside visited.evolves visited.rebuilds
    (List.disjoint_append_right.mp disjoint).2
    fun place mem => inside place (List.mem_append_right _ mem)

theorem rest_of_hole (origin : Origin t₀ t (.node id :: rest))
    (indents : (t.node id).indents = true) (outside : .node id ∉ rest)
    (inside : ∀ place ∈ rest, t.Contains place) :
    Origin t₀ (t.replace id .hole) rest := by
  have sugar := Node.sugar_of_indents indents
  exact (origin.mono (by simp)).beside (.replace sugar (by simp [Node.Markup]))
    (Tree.rebuilds_replace (Tree.contains_of_sugar sugar) .hole)
    (List.singleton_disjoint.mpr outside) inside

theorem rest_of_drop {index : Nat} (origin : Origin t₀ t (.node id :: rest))
    (found : (t.list list)[index]? = some id) (indents : (t.node id).indents = true)
    (outside : .list list ∉ rest) (inside : ∀ place ∈ rest, t.Contains place) :
    Origin t₀ (t.removeItem list index) rest :=
  (origin.mono (by simp)).beside (.removeItem found indents)
    (Tree.rebuilds_setList (Tree.contains_of_mem (List.mem_of_getElem? found)) _)
    (List.singleton_disjoint.mpr outside) inside

theorem rest_of_list (origin : Origin t₀ t (.list list :: (under ++ rest)))
    (course : Course options (some list) t under places t₁ left trail)
    (disjoint : (.list list :: under).Disjoint rest) (inside : ∀ place ∈ rest, t.Contains place) :
    Origin t₀ t₁ rest :=
  (origin.mono (by simp)).beside course.evolves course.rebuilds disjoint inside

end Origin

/-! ## Visits, told from the start -/

/-- What a visit of a trail was, from the tree at the start to the tree at the end. -/
inductive Recorded (options : Options) (t₀ t' : Tree) (all : List Visit) : Visit → Prop
  | entered {t t₁ : Tree} {id : NodeId} {under under₁ : List Place} :
    Origin t₀ t (.node id :: under) → Entered options t id under t₁ under₁ → t₁.Evolves t' →
    t₁.SameAt t' (.node id) → Recorded options t₀ t' all (.node id (t.node id) true)
  | hole {id : NodeId} {found : Slot} :
    (t₀.node id).indents = true → Recorded options t₀ t' all (.node id found true)
  | dropped {id : NodeId} {found : Slot} {list : ListId} :
    .list list ∈ all → t₀.Contains (.list list) → id ∈ t₀.list list →
    (t₀.node id).indents = true → Recorded options t₀ t' all (.node id found false)
  | list {t t₁ : Tree} {list : ListId} {under : List Place} {trail : List Visit} :
    Origin t₀ t (.list list :: under) →
    Course options (some list) t under ((t.list list).map .node) t₁ ((t₁.list list).map .node)
      trail →
    trail ⊆ all → t₁.SameAt t' (.list list) → Recorded options t₀ t' all (.list list)

theorem Recorded.later {visit : Visit} (recorded : Recorded options t₀ t all visit)
    (evolves : t.Evolves t') (same : t.SameAt t' visit.place) :
    Recorded options t₀ t' all visit := by
  cases recorded with
  | entered origin entered evolves₁ same₁ =>
    exact .entered origin entered (evolves₁.trans evolves) (same₁.trans same)
  | hole indents => exact .hole indents
  | dropped mem contains memList indents => exact .dropped mem contains memList indents
  | list origin course subset same₁ => exact .list origin course subset (same₁.trans same)

/-- The sequence that is walked, if it is one, is on the trail, and if it is new there is no
indentation in it. -/
def Along (t₀ t : Tree) (all : List Visit) (holder : Option ListId) : Prop :=
  ∀ list, holder = some list → .list list ∈ all ∧ t.Contains (.list list) ∧
    (¬ t₀.Contains (.list list) → t.InertAt (.list list))

theorem Along.none : Along t₀ t all none := by
  intro list along
  cases along

theorem Along.later (along : Along t₀ t all holder) (evolves : t.Evolves t₁) :
    Along t₀ t₁ all holder := by
  intro list here
  obtain ⟨mem, inside, inert⟩ := along list here
  exact ⟨mem, evolves.contains inside, fun new => evolves.inertAt_list inside (inert new)⟩

/-- What was visited on a footprint is left alone on another. -/
theorem sameAt_of_mem_new {t₂ : Tree} {old₁ new₁ old₂ new₂ : List Place}
    (first : t.Rebuilds t₁ old₁ new₁) (second : t₁.Rebuilds t₂ old₂ new₂)
    (disjoint : old₁.Disjoint old₂) (inside : ∀ place ∈ old₂, t.Contains place)
    (mem : place ∈ new₁) : t₁.SameAt t₂ place := by
  refine second.kept place (first.inside place mem) fun memOld => ?_
  exact first.outside_new (inside place memOld) (fun memOld₁ => disjoint memOld₁ memOld) mem

namespace Course

/-- Once a node was entered, it is left alone. -/
theorem sameAt_node {t₂ t₃ : Tree} {edges edges' : List Place} {trail₁ trail₂ : List Visit}
    (entered : Entered options t id under t₁ under₁)
    (below : Course options none t₁ under₁ edges t₂ edges' trail₁)
    (course : Course options holder t₂ rest places t₃ left trail₂)
    (disjoint : (.node id :: under).Disjoint (held holder ++ rest)) : t₁.SameAt t₃ (.node id) := by
  have insideNode := entered.rebuilds.inside _ List.mem_cons_self
  have first : t₁.SameAt t₂ (.node id) := below.rebuilds.kept _ insideNode entered.outside₁
  have contains := entered.enters.evolves.contains entered.contains
  refine first.trans (course.rebuilds.kept _ (below.evolves.contains contains) fun mem => ?_)
  exact disjoint List.mem_cons_self mem

/-- The sequence that is walked is in the store. -/
theorem contains_holder (course : Course options (some list) t footprint places t' left trail) :
    t.Contains (.list list) := by
  generalize along : some list = holder at course
  induction course with
  | nil inside => exact inside _ (by simp [← along, held])
  | node _ _ _ _ inside => exact inside _ (by simp [← along, held])
  | hole => cases along
  | drop found =>
    cases along
    exact Tree.contains_of_mem (List.mem_of_getElem? found)
  | list => cases along

theorem places_subset (course : Course options holder t footprint places t' left trail) :
    places ⊆ footprint := by
  induction course with
  | nil => exact List.Subset.refl _
  | node _ _ _ _ _ _ ih =>
    exact List.cons_subset_cons _ (List.Subset.trans ih (List.subset_append_right ..))
  | hole _ _ _ _ ih => exact List.cons_subset_cons _ ih
  | drop _ _ _ _ _ _ ih => exact List.cons_subset_cons _ ih
  | list _ _ _ _ _ _ ih =>
    exact List.cons_subset_cons _ (List.Subset.trans ih (List.subset_append_right ..))

theorem recorded (course : Course options holder t footprint places t' left trail)
    (origin : Origin t₀ t footprint) (along : Along t₀ t all holder) (subset : trail ⊆ all) :
    ∀ visit ∈ trail, Recorded options t₀ t' all visit := by
  -- The trail of the whole walk stays the same, while the courses get smaller.
  induction course with
  | nil =>
    intro visit mem
    cases mem
  | @node holder t t₁ t₂ t₃ id under under₁ rest places left trail₁ trail₂ entered courseBelow
      courseRest disjoint inside ihBelow ihRest =>
    have visited := Visited.intro entered courseBelow
    have subset₁ : trail₁ ⊆ all := fun visit mem => subset (by simp [mem])
    have subset₂ : trail₂ ⊆ all := fun visit mem => subset (by simp [mem])
    have recordedBelow := ihBelow (origin.below_of_node entered) .none subset₁
    have recordedRest := ihRest (origin.rest_of_node visited disjoint inside)
      (along.later visited.evolves) subset₂
    -- What was visited below the node is not touched by the walk of what is beside it.
    have later : ∀ {place}, place ∈ .node id :: Desugar.visited trail₁ → t₂.SameAt t₃ place :=
      sameAt_of_mem_new visited.rebuilds courseRest.rebuilds disjoint inside
    intro visit mem
    obtain rfl | mem | mem : visit = _ ∨ visit ∈ trail₁ ∨ visit ∈ trail₂ := by simpa using mem
    · exact .entered (origin.mono (by simp)) entered
        (courseBelow.evolves.trans courseRest.evolves)
        (sameAt_node entered courseBelow courseRest disjoint)
    · refine (recordedBelow visit mem).later courseRest.evolves (later ?_)
      exact List.mem_cons_of_mem _ (List.mem_map_of_mem mem)
    · exact recordedRest visit mem
  | @hole t t₁ id rest places left trail indents outside inside course ih =>
    have recordedRest := ih (origin.rest_of_hole indents outside inside) .none
      (fun visit mem => subset (List.mem_cons_of_mem _ mem))
    intro visit mem
    obtain rfl | mem := List.mem_cons.mp mem
    · exact .hole (origin.evolves.indents indents)
    · exact recordedRest visit mem
  | @drop list t t₁ id index rest places left trail found indents outsideList outside inside course
      ih =>
    have evolves := Tree.Evolves.removeItem found indents
    have recordedRest := ih (origin.rest_of_drop found indents outsideList inside)
      (along.later evolves) (fun visit mem => subset (List.mem_cons_of_mem _ mem))
    intro visit mem
    obtain rfl | mem := List.mem_cons.mp mem
    · obtain ⟨memAll, _, inert⟩ := along list rfl
      have memList : id ∈ t.list list := List.mem_of_getElem? found
      -- With indentation in it, the sequence is an old one.
      have contains : t₀.Contains (.list list) := by
        by_contra new
        rw [inert new id memList] at indents
        cases indents
      exact .dropped memAll contains ((origin.evolves.items list contains).subset memList)
        (origin.evolves.indents indents)
    · exact recordedRest visit mem
  | @list t t₁ t₂ list under rest places left trail₁ trail₂ courseBelow courseRest outside disjoint
      inside ihBelow ihRest =>
    have subset₁ : trail₁ ⊆ all := fun visit mem => subset (by simp [mem])
    have subset₂ : trail₂ ⊆ all := fun visit mem => subset (by simp [mem])
    -- The sequence is on the footprint until it is walked, so its origin is known.
    have alongList : Along t₀ t all (some list) := by
      rintro _ ⟨⟩
      exact ⟨subset List.mem_cons_self, courseBelow.contains_holder,
        origin.inert _ List.mem_cons_self⟩
    have recordedBelow := ihBelow (origin.mono (by simp)) alongList subset₁
    have recordedRest := ihRest (origin.rest_of_list courseBelow disjoint inside) .none subset₂
    have later : ∀ {place}, place ∈ .list list :: visited trail₁ → t₁.SameAt t₂ place :=
      sameAt_of_mem_new courseBelow.rebuilds courseRest.rebuilds disjoint inside
    intro visit mem
    obtain rfl | mem | mem : visit = _ ∨ visit ∈ trail₁ ∨ visit ∈ trail₂ := by simpa using mem
    · exact .list (origin.mono (by simp)) courseBelow subset₁ (later List.mem_cons_self)
    · refine (recordedBelow visit mem).later courseRest.evolves (later ?_)
      exact List.mem_cons_of_mem _ (List.mem_map_of_mem mem)
    · exact recordedRest visit mem

/-- No element and no text is passed over, and no sequence with indentation. -/
theorem mem_visited (course : Course options holder t footprint places t' left trail)
    (origin : Origin t₀ t footprint) (mem : place ∈ footprint) (lively : t₀.Lively place) :
    place ∈ visited trail := by
  induction course with
  | nil => cases mem
  | node entered courseBelow courseRest disjoint inside ihBelow ihRest =>
    have originRest := origin.rest_of_node (.intro entered courseBelow) disjoint inside
    simp only [visited_cons, visited_append, List.mem_cons, List.mem_append] at mem ⊢
    obtain rfl | mem | mem := mem
    · exact .inl rfl
    · have memBelow := (origin.mono (by simp)).mem_of_lively entered mem lively
      exact .inr (.inl (ihBelow (origin.below_of_node entered) memBelow))
    · exact .inr (.inr (ihRest originRest mem))
  | hole indents outside inside _ ih =>
    rw [visited_cons]
    exact List.mem_cons.mpr ((List.mem_cons.mp mem).imp_right
      (ih (origin.rest_of_hole indents outside inside)))
  | drop found indents outsideList _ inside _ ih =>
    rw [visited_cons]
    exact List.mem_cons.mpr ((List.mem_cons.mp mem).imp_right
      (ih (origin.rest_of_drop found indents outsideList inside)))
  | list courseBelow _ _ disjoint inside ihBelow ihRest =>
    have originRest := origin.rest_of_list courseBelow disjoint inside
    simp only [visited_cons, visited_append, List.mem_cons, List.mem_append] at mem ⊢
    obtain rfl | mem | mem := mem
    · exact .inl rfl
    · exact .inr (.inl (ihBelow (origin.mono (by simp)) mem))
    · exact .inr (.inr (ihRest originRest mem))

/-- Along a sequence, what is ahead of a node that stays is not touched by the visit to it. -/
theorem node_eq_of_mem {t₂ : Tree} {other : NodeId}
    (visited : Visited options t id (.node id :: under) t₁ trail)
    (course : Course options holder t₁ rest places t₂ left all)
    (disjoint : (.node id :: under).Disjoint (held holder ++ rest))
    (inside : ∀ place ∈ held holder ++ rest, t.Contains place) (mem : .node other ∈ places) :
    t₁.node other = t.node other := by
  have memRest := List.mem_append_right (held holder) (course.places_subset mem)
  exact visited.rebuilds.kept (.node other) (inside _ memRest) fun memOld => disjoint memOld memRest

/-- Walking along a sequence leaves the items that are more than indentation. -/
theorem left_eq_lasting {ids : List NodeId}
    (course : Course options (some list) t footprint (ids.map .node) t' left trail) :
    left = (t.lasting ids).map .node := by
  generalize along : some list = holder at course
  generalize items : ids.map Edge.node = places at course
  induction course generalizing ids with
  | nil =>
    cases List.map_eq_nil_iff.mp items
    rfl
  | @node _ t _ t₂ _ id _ _ _ _ _ _ _ entered courseBelow courseRest disjoint inside _ ihRest =>
    obtain ⟨_, ids, rfl, ⟨⟩, rfl⟩ := List.map_eq_cons_iff.mp items
    -- The items that are ahead are still the same nodes after the visit.
    have same : t₂.lasting ids = t.lasting ids := by
      refine List.filter_congr fun other mem => ?_
      rw [node_eq_of_mem (.intro entered courseBelow) courseRest disjoint inside
        (List.mem_map_of_mem mem)]
    have lasting : t.lasting (id :: ids) = id :: t.lasting ids := by
      simp [Tree.lasting, entered.enters.indents]
    rw [ihRest along rfl, same, lasting, List.map_cons]
  | hole => cases along
  | @drop _ t _ id _ _ _ _ _ _ indents _ _ _ _ ih =>
    obtain ⟨_, ids, rfl, ⟨⟩, rfl⟩ := List.map_eq_cons_iff.mp items
    have lasting : t.lasting (id :: ids) = t.lasting ids := by simp [Tree.lasting, indents]
    rw [ih along rfl, lasting]
    rfl
  | list => cases along

/-- Walking along a sequence drops all indentation. -/
theorem mem_of_indents (course : Course options (some list) t footprint places t' left trail)
    (mem : .node id ∈ places) (indents : (t.node id).indents = true) :
    .node id (t.node id) false ∈ trail := by
  generalize along : some list = holder at course
  induction course with
  | nil => cases mem
  | node entered courseBelow courseRest disjoint inside _ ihRest =>
    obtain same | mem := List.mem_cons.mp mem
    · cases same
      rw [entered.enters.indents] at indents
      cases indents
    · have same := node_eq_of_mem (.intro entered courseBelow) courseRest disjoint inside mem
      rw [← same] at indents ⊢
      exact List.mem_cons_of_mem _ (List.mem_append_right _ (ihRest mem indents along))
  | hole => cases along
  | drop _ _ _ _ _ _ ih =>
    obtain same | mem := List.mem_cons.mp mem
    · cases same
      exact List.mem_cons_self
    · exact List.mem_cons_of_mem _ (ih mem indents along)
  | list => cases along

end Course

/-! ## At the end -/

/-- For each element and each text there is a record of the visit, and for each sequence with
indentation. -/
theorem Course.exists_recorded (course : Course options none t footprint places t' left trail)
    (inside : ∀ place ∈ footprint, t.Contains place) (mem : place ∈ footprint)
    (lively : t.Lively place) :
    ∃ visit, visit.place = place ∧ Recorded options t t' trail visit := by
  obtain ⟨visit, memTrail, same⟩ :=
    List.mem_map.mp (course.mem_visited (.refl inside) mem lively)
  exact ⟨visit, same, course.recorded (.refl inside) .none (List.Subset.refl trail) visit memTrail⟩

theorem Visit.eq_list {visit : Visit} (same : visit.place = .list list) : visit = .list list := by
  cases visit with
  | node => cases same
  | list =>
    cases same
    rfl

theorem Recorded.list_eq (recorded : Recorded options t₀ t' all (.list list))
    (contains : t₀.Contains (.list list)) : t'.list list = t₀.lasting (t₀.list list) := by
  cases recorded with
  | @list t t₁ _ under trail origin course _ sameEnd =>
    have same : t.list list = t₀.list list := origin.same _ List.mem_cons_self contains
    have left : t₁.list list = t.lasting (t.list list) :=
      List.map_injective_iff.mpr (fun _ _ => Edge.node.inj) course.left_eq_lasting
    have lasting : t.lasting (t.list list) = t₀.lasting (t.list list) := by
      refine List.filter_congr fun item mem => ?_
      have memUnder := course.places_subset (List.mem_map_of_mem mem)
      rw [origin.indents_eq (List.mem_cons_of_mem _ memUnder)]
    calc
      t'.list list = t₁.list list := sameEnd
      _ = t₀.lasting (t.list list) := left.trans lasting
      _ = t₀.lasting (t₀.list list) := by rw [same]

/-- At the end a sequence of the footprint has all its items but indentation. -/
theorem Course.list_eq (course : Course options none t footprint places t' left trail)
    (inside : ∀ place ∈ footprint, t.Contains place) (mem : .list list ∈ footprint) :
    t'.list list = t.lasting (t.list list) := by
  by_cases lively : t.Lively (.list list)
  · obtain ⟨visit, same, recorded⟩ := course.exists_recorded inside mem lively
    cases Visit.eq_list same
    exact recorded.list_eq (inside _ mem)
  · -- Without indentation there is nothing to lose.
    have lasts : ∀ item ∈ t.list list, (t.node item).indents = false := fun item memItem =>
      Bool.eq_false_iff.mpr fun indents => lively ⟨item, memItem, indents⟩
    rw [course.evolves.list_eq (inside _ mem) lasts, Tree.lasting_eq_self lasts]

end Desugar

end JsxFactory
