/-
# Building terms in a store

The operations of a store each build something: a new node on top of children
that stand already, a new sequence, another node in an old place. What they
build is owned, provided that what they build on is.
-/

import JsxFactory.Proofs.Footprint

namespace JsxFactory

namespace Tree

variable {t t₁ t₂ : Tree} {places : List Place} {parts : List Part} {old footprint : List Place}

/-! ## The operations of a store -/

theorem rebuilds_push (t : Tree) (slot : Slot) :
    t.Rebuilds (t.push slot).2 [] [.node (t.push slot).1] where
  nodes_le := by simp [push]
  lists_le := Nat.le_refl _
  root_eq := rfl
  kept place inside _ := by
    cases place with
    | node id =>
      -- The new node comes after all others.
      have lt : id.index < t.nodes.size := inside
      have ne : id.index ≠ t.nodes.size := Nat.ne_of_lt lt
      simp [SameAt, push, Tree.node, Array.getD_eq_getD_getElem?, Array.getElem?_push, ne]
    | list id => rfl
  inside := by simp [push, Contains]
  source := by simp [push, Contains]
  nodup := List.nodup_singleton _

theorem node_push (t : Tree) (slot : Slot) : (t.push slot).2.node (t.push slot).1 = slot := by
  simp [push, Tree.node, Array.getD_eq_getD_getElem?]

theorem rebuilds_pushList (t : Tree) (items : List NodeId) :
    t.Rebuilds (t.pushList items).2 [] [.list (t.pushList items).1] where
  nodes_le := Nat.le_refl _
  lists_le := by simp [pushList]
  root_eq := rfl
  kept place inside _ := by
    cases place with
    | node id => rfl
    | list id =>
      have lt : id.index < t.lists.size := inside
      have ne : id.index ≠ t.lists.size := Nat.ne_of_lt lt
      simp [SameAt, pushList, Tree.list, Array.getD_eq_getD_getElem?, Array.getElem?_push, ne]
  inside := by simp [pushList, Contains]
  source := by simp [pushList, Contains]
  nodup := List.nodup_singleton _

theorem list_pushList (t : Tree) (items : List NodeId) :
    (t.pushList items).2.list (t.pushList items).1 = items := by
  simp [pushList, Tree.list, Array.getD_eq_getD_getElem?]

/-- A new node is represented on top of its children, which it does not touch. -/
theorem Represents.push {slot : Slot} (represents : t.Represents slot.edges parts footprint)
    (inside : ∀ place ∈ footprint, t.Contains place) :
    (t.push slot).2.Represents [.node (t.push slot).1] [.node ⟨slot.fill parts⟩]
      (.node (t.push slot).1 :: footprint) := by
  have node := t.node_push slot
  refine Represents.node_iff.mpr ⟨parts, footprint, by rw [node], rfl, ?_⟩
  rw [node]
  exact represents.frame fun place mem =>
    (t.rebuilds_push slot).kept place (inside place mem) (by simp)

/-- A new sequence is represented on top of its items, which it does not touch. -/
theorem Represents.pushList {items : List NodeId} {terms : List Term}
    (represents : t.Represents (items.map .node) (terms.map .node) footprint)
    (inside : ∀ place ∈ footprint, t.Contains place) :
    (t.pushList items).2.Represents [.list (t.pushList items).1] [.list terms]
      (.list (t.pushList items).1 :: footprint) := by
  refine Represents.list_iff.mpr ⟨terms, footprint, rfl, rfl, ?_⟩
  rw [t.list_pushList items]
  exact represents.frame fun place mem =>
    (t.rebuilds_pushList items).kept place (inside place mem) (by simp)

/-- Something new that is added on top. -/
theorem Rebuilds.add {place : Place} {new : List Place} (rebuilds : t.Rebuilds t₁ old new)
    (added : t₁.Rebuilds t₂ [] [place]) : t.Rebuilds t₂ old (place :: new) := by
  have both := rebuilds.append added (List.disjoint_nil_right _) (by simp)
  rw [List.append_nil] at both
  exact both.perm (List.perm_append_singleton _ _)

theorem rebuilds_replace {id : NodeId} (inside : t.Contains (.node id)) (slot : Slot) :
    t.Rebuilds (t.replace id slot) [.node id] [.node id] where
  nodes_le := by simp [replace]
  lists_le := Nat.le_refl _
  root_eq := rfl
  kept place _ outside := by
    cases place with
    | node other =>
      have ne : id.index ≠ other.index := by
        intro same
        obtain ⟨_⟩ := id
        obtain ⟨_⟩ := other
        simp_all
      simp [SameAt, replace, Tree.node, Array.getD_eq_getD_getElem?, ne]
    | list other => rfl
  inside := by
    intro place mem
    obtain rfl := List.mem_singleton.mp mem
    simpa [replace, Contains] using inside
  source := by simp
  nodup := List.nodup_singleton _

theorem node_replace {id : NodeId} (inside : t.Contains (.node id)) (slot : Slot) :
    (t.replace id slot).node id = slot := by
  have lt : id.index < t.nodes.size := inside
  simp [replace, Tree.node, Array.getD_eq_getD_getElem?, lt]

theorem rebuilds_setList {id : ListId} (inside : t.Contains (.list id)) (items : List NodeId) :
    t.Rebuilds (t.setList id items) [.list id] [.list id] where
  nodes_le := Nat.le_refl _
  lists_le := by simp [setList]
  root_eq := rfl
  kept place _ outside := by
    cases place with
    | node other => rfl
    | list other =>
      have ne : id.index ≠ other.index := by
        intro same
        obtain ⟨_⟩ := id
        obtain ⟨_⟩ := other
        simp_all
      simp [SameAt, setList, Tree.list, Array.getD_eq_getD_getElem?, ne]
  inside := by
    intro place mem
    obtain rfl := List.mem_singleton.mp mem
    simpa [setList, Contains] using inside
  source := by simp
  nodup := List.nodup_singleton _

theorem list_setList {id : ListId} (inside : t.Contains (.list id)) (items : List NodeId) :
    (t.setList id items).list id = items := by
  have lt : id.index < t.lists.size := inside
  simp [setList, Tree.list, Array.getD_eq_getD_getElem?, lt]

/-! ## What the operations build -/

/-- In the second tree the parts stand at the places, built from a footprint of
the first tree. -/
def Builds (t t₁ : Tree) (old places : List Place) (parts : List Part) : Prop :=
  ∃ new, t₁.Represents places parts new ∧ t.Rebuilds t₁ old new

namespace Builds

theorem nil (t : Tree) : t.Builds t [] [] [] :=
  ⟨[], .nil, .keep .nil (by simp)⟩

/-- What is left as it was is built from itself. -/
theorem of_owns (owns : t.Owns places parts footprint) :
    t.Builds t footprint places parts :=
  ⟨footprint, owns.represents, .keep owns.nodup owns.inside⟩

theorem contains (builds : t.Builds t₁ old places parts) {place : Place}
    (inside : t.Contains place) : t₁.Contains place :=
  builds.elim fun _ built => built.2.contains inside

theorem kept (builds : t.Builds t₁ old places parts) {place : Place} (inside : t.Contains place)
    (outside : place ∉ old) : t.SameAt t₁ place :=
  builds.elim fun _ built => built.2.kept place inside outside

/-- More than is used may be given. -/
theorem mono {old₁ : List Place} (builds : t.Builds t₁ old places parts) (subset : old ⊆ old₁) :
    t.Builds t₁ old₁ places parts :=
  builds.elim fun new built => ⟨new, built.1, built.2.mono subset⟩

/-- What is outside the old footprint stays. -/
theorem frame {others : List Place} {others' : List Part} (builds : t.Builds t₁ old places parts)
    (owns : t.Owns others others' footprint) (disjoint : old.Disjoint footprint) :
    t₁.Owns others others' footprint :=
  builds.elim fun _ built => owns.frame built.2 disjoint

/-- Going on with what was built. -/
theorem trans {others : List Place} {others' : List Part} (first : t.Builds t₁ old places parts)
    (second : ∀ mid, t₁.Owns places parts mid → t₁.Builds t₂ mid others others') :
    t.Builds t₂ old others others' := by
  obtain ⟨mid, represents, rebuilds⟩ := first
  obtain ⟨new, represents', rebuilds'⟩ := second mid (.of_rebuilds represents rebuilds)
  exact ⟨new, represents', rebuilds.trans rebuilds'⟩

/-- What was built stays when something else is built after it. -/
theorem stays {old₁ old₂ new₁ new₂ : List Place} (represents : t₁.Represents places parts new₁)
    (first : t.Rebuilds t₁ old₁ new₁) (second : t₁.Rebuilds t₂ old₂ new₂)
    (disjoint : old₁.Disjoint old₂) (inside : ∀ place ∈ old₂, t.Contains place) :
    t₂.Represents places parts new₁ := by
  refine represents.frame fun place mem => second.kept place (first.inside place mem) ?_
  -- What was built lies on the old footprint of the first or is new, and the second had neither.
  intro memOld₂
  exact (first.source place mem).elim (fun memOld₁ => disjoint memOld₁ memOld₂)
    fun new => new (inside place memOld₂)

/-- Building one part and then others beside it. -/
theorem cons {place : Place} {part : Part} {old₁ old₂ : List Place}
    (first : t.Builds t₁ old₁ [place] [part]) (second : t₁.Builds t₂ old₂ places parts)
    (disjoint : old₁.Disjoint old₂) (inside : ∀ place ∈ old₂, t.Contains place) :
    t.Builds t₂ (old₁ ++ old₂) (place :: places) (part :: parts) := by
  obtain ⟨new₁, represents₁, rebuilds₁⟩ := first
  obtain ⟨new₂, represents₂, rebuilds₂⟩ := second
  have head := stays represents₁ rebuilds₁ rebuilds₂ disjoint inside
  exact ⟨new₁ ++ new₂, head.cons represents₂, rebuilds₁.append rebuilds₂ disjoint inside⟩

/-- A node stays on top of its children while they are built anew. -/
theorem under {id : NodeId} (builds : t.Builds t₁ old (t.node id).edges parts)
    (inside : t.Contains (.node id)) (outside : .node id ∉ old) :
    t.Builds t₁ (.node id :: old) [.node id] [.node ⟨(t.node id).fill parts⟩] := by
  obtain ⟨new, represents, rebuilds⟩ := builds
  have same : t₁.node id = t.node id := rebuilds.kept (.node id) inside outside
  refine ⟨.node id :: new, ?_, ?_⟩
  · rw [← same] at represents ⊢
    exact Represents.node_iff.mpr ⟨parts, new, rfl, rfl, represents⟩
  · -- Its children are built first and the node is kept after them; the order does not matter.
    have kept : t₁.Rebuilds t₁ [.node id] [.node id] :=
      .keep (List.nodup_singleton _) (by simpa using rebuilds.contains inside)
    have both := rebuilds.append kept (by simpa using outside) (by simpa using inside)
    exact (both.mono (by simp)).perm (List.perm_append_singleton _ _)

/-- A part may be left behind. -/
theorem drop {place : Place} {part : Part}
    (builds : t.Builds t₁ old (place :: places) (part :: parts)) :
    t.Builds t₁ old places parts := by
  obtain ⟨new, represents, rebuilds⟩ := builds
  obtain ⟨_, _, first, rest, same, rfl, _, tail⟩ := represents.uncons
  obtain ⟨rfl, rfl⟩ := List.cons.inj same
  exact ⟨rest, tail, rebuilds.sublist (List.sublist_append_right ..)⟩

/-- A new node on top of its children. -/
theorem push {slot : Slot} (builds : t.Builds t₁ old slot.edges parts) :
    t.Builds (t₁.push slot).2 old [.node (t₁.push slot).1] [.node ⟨slot.fill parts⟩] := by
  obtain ⟨new, represents, rebuilds⟩ := builds
  exact ⟨_, represents.push rebuilds.inside, rebuilds.add (t₁.rebuilds_push slot)⟩

/-- A new node without children. -/
theorem leaf (t : Tree) {slot : Slot} (childless : slot.edges = []) :
    t.Builds (t.push slot).2 [] [.node (t.push slot).1] [.node ⟨slot.fill []⟩] := by
  refine push ?_
  rw [childless]
  exact nil t

/-- A new sequence of nodes that stand already. -/
theorem pushList {items : List NodeId} {terms : List Term}
    (builds : t.Builds t₁ old (items.map .node) (terms.map .node)) :
    t.Builds (t₁.pushList items).2 old [.list (t₁.pushList items).1] [.list terms] := by
  obtain ⟨new, represents, rebuilds⟩ := builds
  exact ⟨_, represents.pushList rebuilds.inside, rebuilds.add (t₁.rebuilds_pushList items)⟩

/-- Another node in an old place, on top of its children. -/
theorem replace {id : NodeId} {slot : Slot} (builds : t.Builds t₁ old slot.edges parts)
    (inside : t.Contains (.node id)) (outside : .node id ∉ old) :
    t.Builds (t₁.replace id slot) (.node id :: old) [.node id] [.node ⟨slot.fill parts⟩] := by
  obtain ⟨new, represents, rebuilds⟩ := builds
  have inside₁ : t₁.Contains (.node id) := rebuilds.contains inside
  have outside₁ : .node id ∉ new := rebuilds.outside_new inside outside
  have changed := rebuilds_replace inside₁ slot
  have node := node_replace inside₁ slot
  have stays : (t₁.replace id slot).Represents slot.edges parts new := by
    -- The children do not lie in the place that is overwritten.
    refine represents.frame fun place mem => changed.kept place (rebuilds.inside place mem) ?_
    rw [List.mem_singleton]
    rintro rfl
    exact outside₁ mem
  refine ⟨.node id :: new, ?_, ?_⟩
  · refine Represents.node_iff.mpr ⟨parts, new, ?_, rfl, ?_⟩
    · rw [node]
    · rw [node]
      exact stays
  · have both := rebuilds.append changed (by simpa using outside) (by simpa using inside)
    exact (both.mono (by simp)).perm (List.perm_append_singleton _ _)

end Builds

end Tree

end JsxFactory
