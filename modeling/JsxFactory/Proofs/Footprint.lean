/-
# Terms on their footprints

A tree represents a term at a place when following the places from there gives
that term. The places that are followed, each listed as often as it is met, are
the footprint. A term whose footprint lists no place twice is held by no one
else, so a change elsewhere leaves it alone, and a change inside it is seen
nowhere else. `Rebuilds` says what part of a walk may do to a tree: it turns one
footprint into another, made of places of the first and of new ones, and keeps
every other place.
-/

import Mathlib.Data.List.Nodup
import Mathlib.Data.List.Perm.Subperm
import JsxFactory.Proofs.Subterms
import JsxFactory.Tree.Term

namespace JsxFactory

/-- The place of a node, or of a sequence of nodes. -/
abbrev Place := Edge NodeId ListId

namespace Tree

variable {t t₁ t₂ : Tree} {places : List Place} {parts : List Part} {footprint : List Place}

/-- Whether a place lies in the store. -/
def Contains (t : Tree) : Place → Prop
  | .node id => id.index < t.nodes.size
  | .list id => id.index < t.lists.size

/-- Whether two trees have the same at a place. -/
def SameAt (t t₁ : Tree) : Place → Prop
  | .node id => t₁.node id = t.node id
  | .list id => t₁.list id = t.list id

theorem SameAt.trans {place : Place} (first : SameAt t t₁ place) (second : SameAt t₁ t₂ place) :
    SameAt t t₂ place := by
  cases place with
  | node id => exact Eq.trans second first
  | list id => exact Eq.trans second first

/-- At the places there stand the parts, on the footprint: each place comes before
what is below it, and that before what is beside it. -/
inductive Represents (t : Tree) : List Place → List Part → List Place → Prop
  | nil : Represents t [] [] []
  | node {id : NodeId} {parts others : List Part} {places below rest : List Place} :
    Represents t (t.node id).edges parts below →
    Represents t places others rest →
    Represents t (.node id :: places) (.node ⟨(t.node id).fill parts⟩ :: others)
      (.node id :: (below ++ rest))
  | list {id : ListId} {terms : List Term} {others : List Part} {places below rest : List Place} :
    Represents t ((t.list id).map .node) (terms.map .node) below →
    Represents t places others rest →
    Represents t (.list id :: places) (.list terms :: others) (.list id :: (below ++ rest))

namespace Represents

theorem alike (represents : t.Represents places parts footprint) : Edge.Alike places parts := by
  induction represents with
  | nil => exact .nil
  | node _ _ _ ih => exact .node ih
  | list _ _ _ ih => exact .list ih

/-- Parts that stand beside one another have footprints beside one another. -/
theorem cons {place : Place} {part : Part} {first rest : List Place}
    (head : t.Represents [place] [part] first) (tail : t.Represents places parts rest) :
    t.Represents (place :: places) (part :: parts) (first ++ rest) := by
  cases head with
  | node below none =>
    cases none
    simpa using Represents.node below tail
  | list below none =>
    cases none
    simpa using Represents.list below tail

theorem uncons {place : Place} (represents : t.Represents (place :: places) parts footprint) :
    ∃ part others first rest, parts = part :: others ∧ footprint = first ++ rest ∧
      t.Represents [place] [part] first ∧ t.Represents places others rest := by
  cases represents with
  | node below tail =>
    exact ⟨_, _, _, _, rfl, (List.cons_append ..).symm, by simpa using node below nil, tail⟩
  | list below tail =>
    exact ⟨_, _, _, _, rfl, (List.cons_append ..).symm, by simpa using list below nil, tail⟩

theorem node_iff {id : NodeId} {part : Part} :
    t.Represents [.node id] [part] footprint ↔
      ∃ inner below, part = .node ⟨(t.node id).fill inner⟩ ∧ footprint = .node id :: below ∧
        t.Represents (t.node id).edges inner below := by
  constructor
  · intro represents
    cases represents with
    | node below none =>
      cases none
      exact ⟨_, _, rfl, by simp, below⟩
  · rintro ⟨inner, below, rfl, rfl, represents⟩
    simpa using node represents nil

theorem list_iff {id : ListId} {part : Part} :
    t.Represents [.list id] [part] footprint ↔
      ∃ terms below, part = .list terms ∧ footprint = .list id :: below ∧
        t.Represents ((t.list id).map .node) (terms.map .node) below := by
  constructor
  · intro represents
    cases represents with
    | list below none =>
      cases none
      exact ⟨_, _, rfl, by simp, below⟩
  · rintro ⟨terms, below, rfl, rfl, represents⟩
    simpa using list represents nil

/-- What is represented depends on the footprint only. -/
theorem frame (represents : t.Represents places parts footprint)
    (same : ∀ place ∈ footprint, t.SameAt t₁ place) : t₁.Represents places parts footprint := by
  induction represents with
  | nil => exact .nil
  | @node id parts others places below rest _ _ ihBelow ihRest =>
    -- The node at the place says where to look below, so it has to be the same first.
    have here : t₁.node id = t.node id := same (.node id) (by simp)
    have inner : t₁.Represents (t₁.node id).edges parts below := by
      rw [here]
      exact ihBelow fun place mem => same place (by simp [mem])
    rw [← here]
    exact .node inner (ihRest fun place mem => same place (by simp [mem]))
  | @list id terms others places below rest _ _ ihBelow ihRest =>
    have here : t₁.list id = t.list id := same (.list id) (by simp)
    refine .list ?_ (ihRest fun place mem => same place (by simp [mem]))
    rw [here]
    exact ihBelow fun place mem => same place (by simp [mem])

end Represents

/-! ## Unfolding -/

/-- How many places of nodes a footprint lists. -/
def nodeCount : List Place → Nat
  | [] => 0
  | .node _ :: rest => nodeCount rest + 1
  | .list _ :: rest => nodeCount rest

@[simp] theorem nodeCount_append (first rest : List Place) :
    nodeCount (first ++ rest) = nodeCount first + nodeCount rest := by
  induction first with
  | nil => simp [nodeCount]
  | cons place first ih =>
    cases place with
    | node id =>
      simp only [List.cons_append, nodeCount, ih]
      omega
    | list id => simp only [List.cons_append, nodeCount, ih]

/-- Places of a footprint that lists none twice are counted by the store. -/
theorem nodeCount_le_size (nodup : footprint.Nodup)
    (inside : ∀ place ∈ footprint, t.Contains place) : nodeCount footprint ≤ t.nodes.size := by
  -- Different places of nodes have different indices, all below the size of the store.
  let indices : List Place → List Nat := List.filterMap fun
    | .node id => some id.index
    | .list _ => none
  have length : ∀ places, nodeCount places = (indices places).length := by
    intro places
    induction places with
    | nil => rfl
    | cons place places ih => cases place <;> simp [indices, nodeCount, ih]
  have distinct : (indices footprint).Nodup := by
    refine nodup.filterMap ?_
    rintro (⟨⟨i⟩⟩ | _) (⟨⟨j⟩⟩ | _) k hi hj <;> simp_all
  have bounded : indices footprint ⊆ List.range t.nodes.size := by
    intro i mem
    obtain ⟨place, memPlace, found⟩ := List.mem_filterMap.mp mem
    cases place with
    | node id =>
      obtain rfl := Option.some.inj found
      exact List.mem_range.mpr (inside _ memPlace)
    | list id => cases found
  rw [length]
  simpa using (distinct.subperm bounded).length_le

/-- What a tree represents is what unfolding finds, given as many steps down as
the footprint lists nodes. -/
theorem Represents.unfold (represents : t.Represents places parts footprint) {fuel : Nat}
    (enough : nodeCount footprint ≤ fuel) :
    places.mapM (Edge.mapM (t.unfold fuel) fun id => (t.list id).mapM (t.unfold fuel)) =
      some parts := by
  induction represents generalizing fuel with
  | nil => rfl
  | @node id parts others places below rest _ _ ihBelow ihRest =>
    simp only [nodeCount, nodeCount_append] at enough
    -- The step down to what is below is the one that the place itself counts for.
    obtain ⟨fuel, rfl⟩ : ∃ less, fuel = less + 1 := ⟨fuel - 1, by omega⟩
    have inner := ihBelow (show nodeCount below ≤ fuel by omega)
    have here : t.unfold (fuel + 1) id = some ⟨(t.node id).fill parts⟩ := by
      simp [Tree.unfold, Node.mapM_eq_fill, inner]
    simp [Edge.mapM, here, ihRest (show nodeCount rest ≤ fuel + 1 by omega)]
  | @list id terms others places below rest _ _ ihBelow ihRest =>
    simp only [nodeCount, nodeCount_append] at enough
    -- A sequence is not a step down: its items are unfolded with the same steps.
    have items := ihBelow (show nodeCount below ≤ fuel by omega)
    rw [Edge.mapM_map_node] at items
    have here : (t.list id).mapM (t.unfold fuel) = some terms := by
      obtain ⟨found, hfound, same⟩ := Option.map_eq_some_iff.mp items
      rw [hfound, List.map_injective_iff.mpr (fun _ _ h => Edge.node.inj h) same]
    simp [Edge.mapM, here, ihRest (show nodeCount rest ≤ fuel by omega)]

/-! ## Ownership of a footprint, and changes to it -/

/-- At the places there stand the parts, on a footprint that lies in the store
and lists no place twice. -/
structure Owns (t : Tree) (places : List Place) (parts : List Part) (footprint : List Place) :
    Prop where
  represents : t.Represents places parts footprint
  nodup : footprint.Nodup
  inside : ∀ place ∈ footprint, t.Contains place

/-- The second tree is the first with one footprint rebuilt into another. The
new footprint is made of places of the old one and of places that are new in the
store; all that lies outside the old one is kept. -/
structure Rebuilds (t t₁ : Tree) (old new : List Place) : Prop where
  nodes_le : t.nodes.size ≤ t₁.nodes.size
  lists_le : t.lists.size ≤ t₁.lists.size
  root_eq : t₁.root = t.root
  kept : ∀ place, t.Contains place → place ∉ old → t.SameAt t₁ place
  inside : ∀ place ∈ new, t₁.Contains place
  source : ∀ place ∈ new, place ∈ old ∨ ¬ t.Contains place
  nodup : new.Nodup

namespace Rebuilds

variable {old old₁ old₂ new new₁ new₂ mid : List Place}

theorem contains (rebuilds : t.Rebuilds t₁ old new) {place : Place} (inside : t.Contains place) :
    t₁.Contains place := by
  cases place with
  | node id => exact Nat.lt_of_lt_of_le inside rebuilds.nodes_le
  | list id => exact Nat.lt_of_lt_of_le inside rebuilds.lists_le

/-- A footprint that is kept as it is. -/
theorem keep (nodup : old.Nodup) (inside : ∀ place ∈ old, t.Contains place) :
    t.Rebuilds t old old where
  nodes_le := Nat.le_refl _
  lists_le := Nat.le_refl _
  root_eq := rfl
  kept place _ _ := by cases place <;> rfl
  inside := inside
  source _ mem := .inl mem
  nodup := nodup

/-- The order of a new footprint does not matter. -/
theorem perm (rebuilds : t.Rebuilds t₁ old new) (perm : new.Perm new₁) :
    t.Rebuilds t₁ old new₁ where
  nodes_le := rebuilds.nodes_le
  lists_le := rebuilds.lists_le
  root_eq := rebuilds.root_eq
  kept := rebuilds.kept
  inside place mem := rebuilds.inside place (perm.mem_iff.mpr mem)
  source place mem := rebuilds.source place (perm.mem_iff.mpr mem)
  nodup := perm.nodup rebuilds.nodup

/-- An old footprint may be said to be larger than it is. -/
theorem mono (rebuilds : t.Rebuilds t₁ old new) (subset : old ⊆ old₁) :
    t.Rebuilds t₁ old₁ new where
  nodes_le := rebuilds.nodes_le
  lists_le := rebuilds.lists_le
  root_eq := rebuilds.root_eq
  kept place inside outside := rebuilds.kept place inside fun mem => outside (subset mem)
  inside := rebuilds.inside
  source place mem := (rebuilds.source place mem).imp_left fun mem => subset mem
  nodup := rebuilds.nodup

/-- Part of a new footprint may be left behind. -/
theorem sublist (rebuilds : t.Rebuilds t₁ old new) (sublist : new₁.Sublist new) :
    t.Rebuilds t₁ old new₁ where
  nodes_le := rebuilds.nodes_le
  lists_le := rebuilds.lists_le
  root_eq := rebuilds.root_eq
  kept := rebuilds.kept
  inside place mem := rebuilds.inside place (sublist.subset mem)
  source place mem := rebuilds.source place (sublist.subset mem)
  nodup := sublist.nodup rebuilds.nodup

/-- Rebuilding what was rebuilt. -/
theorem trans (first : t.Rebuilds t₁ old mid) (second : t₁.Rebuilds t₂ mid new) :
    t.Rebuilds t₂ old new where
  nodes_le := Nat.le_trans first.nodes_le second.nodes_le
  lists_le := Nat.le_trans first.lists_le second.lists_le
  root_eq := second.root_eq.trans first.root_eq
  kept place inside outside := by
    refine (first.kept place inside outside).trans (second.kept place (first.contains inside) ?_)
    -- It is neither of the old footprint nor new, so it is not between the two either.
    intro mem
    exact (first.source place mem).elim outside fun new => new inside
  inside := second.inside
  source place mem := by
    obtain mem | new := second.source place mem
    · exact first.source place mem
    · exact .inr fun inside => new (first.contains inside)
  nodup := second.nodup

/-- Rebuilding two footprints that have no place in common, one after the
other. -/
theorem append (first : t.Rebuilds t₁ old₁ new₁) (second : t₁.Rebuilds t₂ old₂ new₂)
    (disjoint : old₁.Disjoint old₂) (inside : ∀ place ∈ old₂, t.Contains place) :
    t.Rebuilds t₂ (old₁ ++ old₂) (new₁ ++ new₂) where
  nodes_le := Nat.le_trans first.nodes_le second.nodes_le
  lists_le := Nat.le_trans first.lists_le second.lists_le
  root_eq := second.root_eq.trans first.root_eq
  kept place inside outside := by
    rw [List.mem_append, not_or] at outside
    exact (first.kept place inside outside.1).trans
      (second.kept place (first.contains inside) outside.2)
  inside place mem := by
    obtain mem | mem := List.mem_append.mp mem
    · exact second.contains (first.inside place mem)
    · exact second.inside place mem
  source place mem := by
    obtain mem | mem := List.mem_append.mp mem
    · exact (first.source place mem).imp_left (List.mem_append_left _)
    · obtain mem | new := second.source place mem
      · exact .inl (List.mem_append_right _ mem)
      · exact .inr fun inside => new (first.contains inside)
  nodup := by
    refine first.nodup.append second.nodup fun place mem₁ mem₂ => ?_
    -- A place of both would come from both old footprints: it is not new to the second.
    obtain memOld₂ | new := second.source place mem₂
    · obtain memOld₁ | new := first.source place mem₁
      · exact disjoint memOld₁ memOld₂
      · exact new (inside place memOld₂)
    · exact new (first.inside place mem₁)

/-- A place that was there before and is not on the old footprint is not on the
new one. -/
theorem outside_new (rebuilds : t.Rebuilds t₁ old new) {place : Place} (inside : t.Contains place)
    (outside : place ∉ old) : place ∉ new :=
  fun mem => (rebuilds.source place mem).elim outside fun new => new inside

end Rebuilds

namespace Owns

variable {old new first rest : List Place} {others : List Part}

/-- What is outside a rebuilt footprint stays. -/
theorem frame (owns : t.Owns places parts footprint) (rebuilds : t.Rebuilds t₁ old new)
    (disjoint : old.Disjoint footprint) : t₁.Owns places parts footprint where
  represents := owns.represents.frame fun place mem =>
    rebuilds.kept place (owns.inside place mem) fun memOld => disjoint memOld mem
  nodup := owns.nodup
  inside place mem := rebuilds.contains (owns.inside place mem)

theorem of_rebuilds (represents : t₁.Represents places parts new)
    (rebuilds : t.Rebuilds t₁ old new) : t₁.Owns places parts new :=
  ⟨represents, rebuilds.nodup, rebuilds.inside⟩

theorem uncons {place : Place} (owns : t.Owns (place :: places) parts footprint) :
    ∃ part others first rest, parts = part :: others ∧ footprint = first ++ rest ∧
      t.Owns [place] [part] first ∧ t.Owns places others rest ∧ first.Disjoint rest := by
  obtain ⟨represents, nodup, inside⟩ := owns
  obtain ⟨part, others, first, rest, rfl, rfl, head, tail⟩ := represents.uncons
  obtain ⟨nodupFirst, nodupRest, disjoint⟩ := List.nodup_append'.mp nodup
  exact ⟨part, others, first, rest, rfl, rfl,
    ⟨head, nodupFirst, fun place mem => inside place (List.mem_append_left _ mem)⟩,
    ⟨tail, nodupRest, fun place mem => inside place (List.mem_append_right _ mem)⟩, disjoint⟩

theorem node_iff {id : NodeId} {part : Part} :
    t.Owns [.node id] [part] footprint ↔
      ∃ inner below, part = .node ⟨(t.node id).fill inner⟩ ∧ footprint = .node id :: below ∧
        t.Contains (.node id) ∧ .node id ∉ below ∧ t.Owns (t.node id).edges inner below := by
  constructor
  · rintro ⟨represents, nodup, inside⟩
    obtain ⟨inner, below, rfl, rfl, edges⟩ := Represents.node_iff.mp represents
    obtain ⟨outside, nodup⟩ := List.nodup_cons.mp nodup
    exact ⟨inner, below, rfl, rfl, inside _ List.mem_cons_self, outside, edges, nodup,
      fun place mem => inside place (List.mem_cons_of_mem _ mem)⟩
  · rintro ⟨inner, below, rfl, rfl, contains, outside, owns⟩
    refine ⟨Represents.node_iff.mpr ⟨inner, below, rfl, rfl, owns.represents⟩,
      owns.nodup.cons outside, fun place mem => ?_⟩
    obtain rfl | mem := List.mem_cons.mp mem
    · exact contains
    · exact owns.inside place mem

theorem list_iff {id : ListId} {part : Part} :
    t.Owns [.list id] [part] footprint ↔
      ∃ terms below, part = .list terms ∧ footprint = .list id :: below ∧
        t.Contains (.list id) ∧ .list id ∉ below ∧
        t.Owns ((t.list id).map .node) (terms.map .node) below := by
  constructor
  · rintro ⟨represents, nodup, inside⟩
    obtain ⟨terms, below, rfl, rfl, items⟩ := Represents.list_iff.mp represents
    obtain ⟨outside, nodup⟩ := List.nodup_cons.mp nodup
    exact ⟨terms, below, rfl, rfl, inside _ List.mem_cons_self, outside, items, nodup,
      fun place mem => inside place (List.mem_cons_of_mem _ mem)⟩
  · rintro ⟨terms, below, rfl, rfl, contains, outside, owns⟩
    refine ⟨Represents.list_iff.mpr ⟨terms, below, rfl, rfl, owns.represents⟩,
      owns.nodup.cons outside, fun place mem => ?_⟩
    obtain rfl | mem := List.mem_cons.mp mem
    · exact contains
    · exact owns.inside place mem

end Owns

end Tree

end JsxFactory
