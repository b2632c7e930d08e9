/-
# Owned trees

A place holds the places that the node or the sequence in it refers to. A tree
is owned when, among the places that are reached from the root, there is no
circle and each but the root is held exactly once: by one field of one node or at
one index of one sequence. Owned trees are exactly the trees that represent a
term on a footprint without repetition.
-/

import Mathlib.Data.Fintype.Card
import Mathlib.Data.Fintype.Sum
import Mathlib.Data.List.Pairwise
import Mathlib.Logic.Relation
import JsxFactory.Proofs.Building

namespace JsxFactory

namespace Tree

open Relation (ReflTransGen TransGen)

variable {t : Tree} {places : List Place} {parts : List Part} {footprint : List Place}

/-- The places that a place holds, in order. -/
def below (t : Tree) : Place → List Place
  | .node id => (t.node id).edges
  | .list id => (t.list id).map .node

/-- One place holds another. -/
def Holds (t : Tree) (holder held : Place) : Prop :=
  held ∈ t.below holder

/-- A place is reached from the root. -/
def Reachable (t : Tree) (place : Place) : Prop :=
  ReflTransGen t.Holds (.node t.root) place

/-- What is reached from the root lies in the store, forms no circle, and is held
exactly once, but for the root: by one holder, and there once. -/
structure Owned (t : Tree) : Prop where
  inside : ∀ place, t.Reachable place → t.Contains place
  acyclic : ∀ place, t.Reachable place → ¬ TransGen t.Holds place place
  one_holder : ∀ place, t.Reachable place → place ≠ .node t.root →
    ∃! holder, t.Reachable holder ∧ t.Holds holder place
  held_once : ∀ holder, t.Reachable holder → (t.below holder).Nodup

/-! ## Trees on footprints without repetition are owned -/

namespace Represents

/-- A footprint lists the places it starts from and whatever its places hold. -/
theorem perm_below (represents : t.Represents places parts footprint) :
    footprint.Perm (places ++ footprint.flatMap t.below) := by
  induction represents with
  | nil => exact .nil
  | @node id parts others places below rest _ _ ihBelow ihRest =>
    -- What the place and the places below it hold comes before the other places here.
    have swap := List.perm_append_comm_assoc (t.below (.node id) ++ below.flatMap t.below) places
      (rest.flatMap t.below)
    refine ((ihBelow.append ihRest).trans ?_).cons _
    simpa [Tree.below] using swap
  | @list id terms others places below rest _ _ ihBelow ihRest =>
    have swap := List.perm_append_comm_assoc (t.below (.list id) ++ below.flatMap t.below) places
      (rest.flatMap t.below)
    refine ((ihBelow.append ihRest).trans ?_).cons _
    simpa [Tree.below] using swap

theorem mem_of_mem_places (represents : t.Represents places parts footprint) {place : Place}
    (mem : place ∈ places) : place ∈ footprint :=
  represents.perm_below.mem_iff.mpr (List.mem_append_left _ mem)

/-- A footprint is closed under holding. -/
theorem mem_of_holds (represents : t.Represents places parts footprint) {holder held : Place}
    (mem : holder ∈ footprint) (holds : t.Holds holder held) : held ∈ footprint := by
  refine represents.perm_below.mem_iff.mpr (List.mem_append_right _ ?_)
  exact List.mem_flatMap.mpr ⟨holder, mem, holds⟩

/-- Each place of a footprint has its share of it. -/
theorem exists_sublist_of_mem (represents : t.Represents places parts footprint) {place : Place}
    (mem : place ∈ footprint) :
    ∃ part inner, t.Represents [place] [part] inner ∧ inner.Sublist footprint := by
  induction represents with
  | nil => cases mem
  | @node id _ _ _ below rest representsBelow _ ihBelow ihRest =>
    have whole : (.node id :: (below ++ [])).Sublist (.node id :: (below ++ rest)) :=
      ((List.Sublist.refl _).append (List.nil_sublist _)).cons_cons _
    simp only [List.mem_cons, List.mem_append] at mem
    obtain rfl | mem | mem := mem
    · exact ⟨_, _, node representsBelow nil, whole⟩
    · obtain ⟨part, inner, represents, sublist⟩ := ihBelow mem
      exact ⟨part, inner, represents, (sublist.trans (List.sublist_append_left ..)).cons _⟩
    · obtain ⟨part, inner, represents, sublist⟩ := ihRest mem
      exact ⟨part, inner, represents, (sublist.trans (List.sublist_append_right ..)).cons _⟩
  | @list id _ _ _ below rest representsBelow _ ihBelow ihRest =>
    have whole : (.list id :: (below ++ [])).Sublist (.list id :: (below ++ rest)) :=
      ((List.Sublist.refl _).append (List.nil_sublist _)).cons_cons _
    simp only [List.mem_cons, List.mem_append] at mem
    obtain rfl | mem | mem := mem
    · exact ⟨_, _, list representsBelow nil, whole⟩
    · obtain ⟨part, inner, represents, sublist⟩ := ihBelow mem
      exact ⟨part, inner, represents, (sublist.trans (List.sublist_append_left ..)).cons _⟩
    · obtain ⟨part, inner, represents, sublist⟩ := ihRest mem
      exact ⟨part, inner, represents, (sublist.trans (List.sublist_append_right ..)).cons _⟩

/-- One of the places, with its part. -/
theorem exists_of_mem_places (represents : t.Represents places parts footprint) {place : Place}
    (mem : place ∈ places) : ∃ part ∈ parts, ∃ inner, t.Represents [place] [part] inner := by
  induction places generalizing parts footprint with
  | nil => cases mem
  | cons first places ih =>
    obtain ⟨part, others, inner, rest, rfl, rfl, head, tail⟩ := represents.uncons
    obtain rfl | mem := List.mem_cons.mp mem
    · exact ⟨part, List.mem_cons_self, inner, head⟩
    · obtain ⟨part, memOthers, inner', represents⟩ := ih tail mem
      exact ⟨part, List.mem_cons_of_mem _ memOthers, inner', represents⟩

/-- One of the parts, with its place. -/
theorem exists_of_mem_parts (represents : t.Represents places parts footprint) {part : Part}
    (mem : part ∈ parts) : ∃ place ∈ places, ∃ inner, t.Represents [place] [part] inner := by
  induction places generalizing parts footprint with
  | nil =>
    cases represents
    cases mem
  | cons first places ih =>
    obtain ⟨part', others, inner, rest, rfl, rfl, head, tail⟩ := represents.uncons
    obtain rfl | mem := List.mem_cons.mp mem
    · exact ⟨first, List.mem_cons_self, inner, head⟩
    · obtain ⟨place, memPlaces, inner', represents⟩ := ih tail mem
      exact ⟨place, List.mem_cons_of_mem _ memPlaces, inner', represents⟩

end Represents

/-- A tree is owned if the places that are reached are on a list without
repetition, of the root and whatever the listed places hold. -/
theorem owned_of_perm (nodup : places.Nodup) (inside : ∀ place ∈ places, t.Contains place)
    (perm : places.Perm (.node t.root :: places.flatMap t.below)) : t.Owned := by
  have listed : ∀ {place}, t.Reachable place → place ∈ places := by
    intro place reachable
    induction reachable with
    | refl => exact perm.mem_iff.mpr List.mem_cons_self
    | tail _ holds ih =>
      refine perm.mem_iff.mpr (List.mem_cons_of_mem _ ?_)
      exact List.mem_flatMap.mpr ⟨_, ih, holds⟩
  -- What the places hold has no repetition either: no place holds another twice, no two places
  -- hold the same, and none holds the root.
  obtain ⟨unheld, nodupBelow⟩ := List.nodup_cons.mp (perm.nodup nodup)
  obtain ⟨each, apart⟩ := List.nodup_flatMap.mp nodupBelow
  have symm : Std.Symm (Function.onFun List.Disjoint t.below) := ⟨fun _ _ h => h.symm⟩
  have same : ∀ {holder other held}, t.Reachable holder → t.Reachable other →
      t.Holds holder held → t.Holds other held → other = holder := by
    intro holder other held reached reached' holds holds'
    by_contra differ
    exact apart.forall (listed reached') (listed reached) differ holds' holds
  refine ⟨?inside, ?acyclic, ?one_holder, ?held_once⟩
  case inside => exact fun place reachable => inside place (listed reachable)
  case acyclic =>
    intro place reachable
    induction reachable with
    | refl =>
      intro circle
      obtain ⟨holder, steps, holds⟩ := TransGen.tail'_iff.mp circle
      exact unheld (List.mem_flatMap.mpr ⟨holder, listed steps, holds⟩)
    | @tail holder held reached holds ih =>
      -- The last place on a circle holds the first, so it is the holder, which lies on it too.
      intro circle
      obtain ⟨last, steps, holds'⟩ := TransGen.tail'_iff.mp circle
      obtain rfl := same reached ((reached.tail holds).trans steps) holds holds'
      exact ih (TransGen.head' holds steps)
  case one_holder =>
    intro place reachable ne
    -- The last step on the way from the root is the holder.
    obtain rfl | ⟨holder, reached, holds⟩ := reachable.cases_tail
    · exact absurd rfl ne
    · refine ⟨holder, ⟨reached, holds⟩, ?_⟩
      rintro other ⟨reached', holds'⟩
      exact same reached reached' holds holds'
  case held_once => exact fun holder reachable => each holder (listed reachable)

namespace Owns

/-- What is reached from the root is on the footprint. -/
theorem mem_of_reachable (owns : t.Owns [.node t.root] parts footprint) {place : Place}
    (reachable : t.Reachable place) : place ∈ footprint := by
  induction reachable with
  | refl => exact owns.represents.mem_of_mem_places (by simp)
  | tail _ holds ih => exact owns.represents.mem_of_holds ih holds

/-- A tree that represents a term on a footprint without repetition is owned. -/
theorem owned (owns : t.Owns [.node t.root] parts footprint) : t.Owned :=
  owned_of_perm owns.nodup owns.inside owns.represents.perm_below

end Owns

/-! ## Owned trees have footprints without repetition -/

/-- A place that is reached is held by another one. -/
def HeldBy (t : Tree) (held holder : { place // t.Reachable place }) : Prop :=
  t.Holds holder.1 held.1

namespace Owned

theorem finite_reachable (owned : t.Owned) : Finite { place // t.Reachable place } := by
  let code : { place // t.Reachable place } → Fin t.nodes.size ⊕ Fin t.lists.size := fun
    | ⟨.node id, reachable⟩ => .inl ⟨id.index, owned.inside _ reachable⟩
    | ⟨.list id, reachable⟩ => .inr ⟨id.index, owned.inside _ reachable⟩
  refine Finite.of_injective code ?_
  -- A place is given by its index and by whether it is one of a node or of a sequence.
  rintro ⟨⟨⟨i⟩⟩ | ⟨⟨i⟩⟩, hi⟩ ⟨⟨⟨j⟩⟩ | ⟨⟨j⟩⟩, hj⟩ same <;> cases same <;> rfl

/-- Going from holder to held comes to an end. -/
theorem wellFounded_heldBy (owned : t.Owned) : WellFounded t.HeldBy := by
  -- There are finitely many places, so without a circle the steps down come to an end.
  have finite := owned.finite_reachable
  have descends : ∀ {held holder}, TransGen t.HeldBy held holder →
      TransGen t.Holds holder.1 held.1 := by
    intro held holder steps
    induction steps with
    | single holds => exact .single holds
    | tail _ holds ih => exact .head holds ih
  have irrefl : Std.Irrefl (TransGen t.HeldBy) :=
    ⟨fun place circle => owned.acyclic place.1 place.2 (descends circle)⟩
  have wellFounded := Finite.wellFounded_of_trans_of_irrefl (TransGen t.HeldBy)
  exact Subrelation.wf TransGen.single wellFounded

end Owned

namespace Represents

/-- Places that each hold a part hold parts together. -/
theorem exists_of_forall
    (each : ∀ place ∈ places, ∃ part inner, t.Represents [place] [part] inner) :
    ∃ parts footprint, t.Represents places parts footprint := by
  induction places with
  | nil => exact ⟨_, _, nil⟩
  | cons place places ih =>
    obtain ⟨part, inner, head⟩ := each place (by simp)
    obtain ⟨parts, footprint, tail⟩ := ih fun place mem => each place (by simp [mem])
    exact ⟨_, _, head.cons tail⟩

/-- What stands at the places of nodes are terms. -/
theorem exists_terms {ids : List NodeId}
    (represents : t.Represents (ids.map .node) parts footprint) :
    ∃ terms : List Term, parts = terms.map .node := by
  induction ids generalizing parts footprint with
  | nil =>
    cases represents
    exact ⟨[], rfl⟩
  | cons id ids ih =>
    cases represents with
    | node _ rest =>
      obtain ⟨terms, rfl⟩ := ih rest
      exact ⟨_ :: terms, rfl⟩

theorem exists_of_below {place : Place}
    (each : ∀ held, t.Holds place held → ∃ part inner, t.Represents [held] [part] inner) :
    ∃ part footprint, t.Represents [place] [part] footprint := by
  obtain ⟨parts, below, represents⟩ := exists_of_forall each
  cases place with
  | node id => exact ⟨_, _, node represents nil⟩
  | list id =>
    obtain ⟨terms, rfl⟩ := represents.exists_terms
    exact ⟨_, _, list represents nil⟩

/-- What is on a footprint is reached if the places it starts from are. -/
theorem reached_of_mem {origin : Place} (represents : t.Represents places parts footprint)
    (reached : ∀ place ∈ places, ReflTransGen t.Holds origin place) {place : Place}
    (mem : place ∈ footprint) : ReflTransGen t.Holds origin place := by
  induction represents with
  | nil => cases mem
  | @node id _ _ _ _ _ _ _ ihBelow ihRest =>
    have here := reached (.node id) (by simp)
    simp only [List.mem_cons, List.mem_append] at mem
    obtain rfl | mem | mem := mem
    · exact here
    · exact ihBelow (fun held holds => here.tail holds) mem
    · exact ihRest (fun place mem => reached place (by simp [mem])) mem
  | @list id _ _ _ _ _ _ _ ihBelow ihRest =>
    have here := reached (.list id) (by simp)
    simp only [List.mem_cons, List.mem_append] at mem
    obtain rfl | mem | mem := mem
    · exact here
    · exact ihBelow (fun held holds => here.tail holds) mem
    · exact ihRest (fun place mem => reached place (by simp [mem])) mem

end Represents

/-- A place with one holder among the places is held as often as the holder is
listed. -/
theorem count_flatMap_below {held holder : Place} (once : (t.below holder).count held = 1)
    (only : ∀ other ∈ places, t.Holds other held → other = holder) :
    (places.flatMap t.below).count held = places.count holder := by
  induction places with
  | nil => rfl
  | cons place places ih =>
    have others := ih fun other mem => only other (by simp [mem])
    rw [List.flatMap_cons, List.count_append, others, List.count_cons]
    by_cases same : place = holder
    · subst same
      simp [once, Nat.add_comm]
    · have none : (t.below place).count held = 0 :=
        List.count_eq_zero.mpr fun holds => same (only place (by simp) holds)
      simp [none, same]

namespace Owned

theorem exists_represents (owned : t.Owned) {place : Place} (reachable : t.Reachable place) :
    ∃ part footprint, t.Represents [place] [part] footprint :=
  owned.wellFounded_heldBy.induction ⟨place, reachable⟩
    fun place ih => Represents.exists_of_below fun held holds =>
      ih ⟨held, place.2.tail holds⟩ holds

theorem not_holds_root (owned : t.Owned) {holder : Place} (reachable : t.Reachable holder) :
    ¬ t.Holds holder (.node t.root) := by
  intro holds
  exact owned.acyclic _ .refl (TransGen.tail' reachable holds)

/-- A place that is reached is on the footprint of the root just once: the root
because nothing holds it, and any other because its holder is there just once. -/
theorem count_footprint (owned : t.Owned) {part : Part}
    (represents : t.Represents [.node t.root] [part] footprint) {place : Place}
    (reachable : t.Reachable place) : footprint.count place = 1 := by
  have reached : ∀ place ∈ footprint, t.Reachable place := fun place mem =>
    represents.reached_of_mem (by simp [ReflTransGen.refl]) mem
  induction reachable with
  | refl =>
    have unheld : (footprint.flatMap t.below).count (.node t.root) = 0 := by
      refine List.count_eq_zero.mpr fun mem => ?_
      obtain ⟨holder, mem, holds⟩ := List.mem_flatMap.mp mem
      exact owned.not_holds_root (reached holder mem) holds
    rw [represents.perm_below.count_eq, List.count_append, unheld]
    simp
  | @tail holder held reachable holds ih =>
    have ne : held ≠ .node t.root := by
      rintro rfl
      exact owned.not_holds_root reachable holds
    -- The place is listed once for each time that a listed place holds it.
    obtain ⟨_, _, unique⟩ := owned.one_holder held (reachable.tail holds) ne
    have once := List.count_eq_one_of_mem (owned.held_once holder reachable) holds
    have only : ∀ other ∈ footprint, t.Holds other held → other = holder := fun other mem holds' =>
      (unique other ⟨reached other mem, holds'⟩).trans (unique holder ⟨reachable, holds⟩).symm
    rw [represents.perm_below.count_eq, List.count_append, count_flatMap_below once only, ih]
    simp [ne.symm]

/-- An owned tree represents a term on a footprint without repetition. -/
theorem exists_owns (owned : t.Owned) :
    ∃ term footprint, t.Owns [.node t.root] [.node term] footprint := by
  obtain ⟨part, footprint, represents⟩ := owned.exists_represents .refl
  have reached : ∀ place ∈ footprint, t.Reachable place := fun place mem =>
    represents.reached_of_mem (by simp [ReflTransGen.refl]) mem
  -- There is a term because there is no circle; its footprint has no repetition because each
  -- place has one holder.
  have nodup : footprint.Nodup := List.nodup_iff_count_eq_one.mpr fun place mem =>
    owned.count_footprint represents (reached place mem)
  obtain ⟨_, _, rfl, _⟩ := Represents.node_iff.mp represents
  exact ⟨_, footprint, represents, nodup, fun place mem => owned.inside place (reached place mem)⟩

end Owned

/-! ## Reached places and subterms -/

namespace Represents

variable {root id : NodeId} {term inner : Term}

/-- What stands at a place that is reached is made of subterms. -/
theorem occurs_of_reached (represents : t.Represents [.node root] [.node term] footprint)
    {place : Place} (reached : ReflTransGen t.Holds (.node root) place) :
    ∃ part below, t.Represents [place] [part] below ∧ ∀ inner ∈ part.items, inner.Occurs term := by
  induction reached with
  | refl => exact ⟨_, _, represents, by simp [Term.Occurs.here]⟩
  | @tail holder held _ holds ih =>
    obtain ⟨part, _, represents, occurs⟩ := ih
    cases holder with
    | node id =>
      obtain ⟨parts, _, rfl, _, below⟩ := node_iff.mp represents
      obtain ⟨part, mem, inner, represents'⟩ := below.exists_of_mem_places holds
      refine ⟨part, inner, represents', fun child memItems => ?_⟩
      refine Term.Occurs.trans (.inside ?_ .here) (occurs _ List.mem_cons_self)
      rw [Node.children, Node.edges_fill below.alike]
      exact List.mem_flatMap.mpr ⟨part, mem, memItems⟩
    | list id =>
      -- A sequence is no term of its own: its items are children of the node that holds it.
      obtain ⟨terms, _, rfl, _, below⟩ := list_iff.mp represents
      obtain ⟨part, mem, inner, represents'⟩ := below.exists_of_mem_places holds
      obtain ⟨child, memTerms, rfl⟩ := List.mem_map.mp mem
      refine ⟨_, inner, represents', ?_⟩
      simpa using occurs child memTerms

/-- Each subterm stands at a place that is reached. -/
theorem reached_of_occurs (represents : t.Represents [.node root] [.node term] footprint)
    (occurs : inner.Occurs term) :
    ∃ id below, ReflTransGen t.Holds (.node root) (.node id) ∧
      t.Represents [.node id] [.node inner] below := by
  induction occurs generalizing root footprint with
  | here => exact ⟨root, footprint, .refl, represents⟩
  | @inside outer node mem _ ih =>
    obtain ⟨parts, _, same, _, below⟩ := node_iff.mp represents
    obtain rfl := Term.mk.inj (Edge.node.inj same)
    rw [Node.children, Node.edges_fill below.alike] at mem
    obtain ⟨part, memParts, memItems⟩ := List.mem_flatMap.mp mem
    obtain ⟨place, holds, _, representsPart⟩ := below.exists_of_mem_parts memParts
    cases place with
    | node id =>
      obtain ⟨_, _, rfl, _⟩ := node_iff.mp representsPart
      obtain rfl := List.mem_singleton.mp memItems
      obtain ⟨id', below', reached, represents'⟩ := ih representsPart
      exact ⟨id', below', .head holds reached, represents'⟩
    | list list =>
      obtain ⟨terms, _, rfl, _, representsItems⟩ := list_iff.mp representsPart
      obtain ⟨place, memPlaces, _, representsItem⟩ :=
        representsItems.exists_of_mem_parts (List.mem_map_of_mem memItems)
      obtain ⟨id, _, rfl⟩ := List.mem_map.mp memPlaces
      obtain ⟨id', below', reached, represents'⟩ := ih representsItem
      exact ⟨id', below', .head holds (.head memPlaces reached), represents'⟩

/-- What holds of all nodes that are reached is what holds of all subterms. -/
theorem forall_reachable_iff (represents : t.Represents [.node t.root] [.node term] footprint)
    {P : NodeId → Prop} {Q : Term → Prop}
    (agree : ∀ {id inner below}, t.Represents [.node id] [.node inner] below → (P id ↔ Q inner)) :
    (∀ id, t.Reachable (.node id) → P id) ↔ term.Everywhere Q := by
  constructor
  · intro all inner occurs
    obtain ⟨id, _, reached, represents'⟩ := represents.reached_of_occurs occurs
    exact (agree represents').mp (all id reached)
  · intro all id reached
    obtain ⟨part, _, represents', occurs⟩ := represents.occurs_of_reached reached
    obtain ⟨_, _, rfl, _⟩ := node_iff.mp represents'
    exact (agree represents').mpr (all _ (occurs _ List.mem_cons_self))

end Represents

end Tree

end JsxFactory
