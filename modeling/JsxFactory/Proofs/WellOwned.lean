/-
# Well-owned stores

A store is well owned when its tree is owned and no place outside the store is
mentioned anywhere in it, not even in nodes that nothing reaches any more. Stated
over positions, each place that is reached is then held by one field of one node
or at one index of one sequence, and the root by none.

Building something else on the footprint of a place that is reached keeps the
store owned, and so does adding nodes that nothing holds. Between them these are
all the changes that a walk makes.
-/

import JsxFactory.Proofs.Ownership

namespace JsxFactory

/-- Where a place may be held: an index among the children of a node, or in a
sequence. -/
structure Position where
  holder : Place
  index : Nat
deriving DecidableEq

namespace Tree

open Relation (ReflTransGen TransGen)
open scoped List

variable {t t₁ t₂ : Tree} {place : Place} {part part' : Part} {old new footprint : List Place}

/-- Whether a position of the tree that is reached holds a place. -/
def HeldAt (t : Tree) (position : Position) (held : Place) : Prop :=
  t.Reachable position.holder ∧ (t.below position.holder)[position.index]? = some held

/-- Whether all places that are mentioned in a store lie in it, those in nodes
and sequences that nothing reaches included. -/
def Closed (t : Tree) : Prop :=
  ∀ holder held, t.Holds holder held → t.Contains held

/-- Whatever is mentioned lies in the store. What is reached from the root forms no
circle; the root is held by no position of it, every other node by just one, and
every sequence by just one field of a node. -/
structure WellOwned (t : Tree) : Prop where
  root_inside : t.Contains (.node t.root)
  closed : t.Closed
  acyclic : ∀ place, t.Reachable place → ¬ TransGen t.Holds place place
  root_unheld : ∀ position, ¬ t.HeldAt position (.node t.root)
  node_once : ∀ id, t.Reachable (.node id) → id ≠ t.root → ∃! position, t.HeldAt position (.node id)
  list_once : ∀ id, t.Reachable (.list id) →
    ∃! field : NodeId × Nat, t.HeldAt ⟨.node field.1, field.2⟩ (.list id)

theorem HeldAt.holds {position : Position} (held : t.HeldAt position place) :
    t.Holds position.holder place :=
  List.mem_of_getElem? held.2

/-- Sequences hold nodes only. -/
theorem HeldAt.exists_node {position : Position} {id : ListId}
    (held : t.HeldAt position (.list id)) : ∃ holder, position.holder = .node holder := by
  obtain ⟨holder | list, index⟩ := position
  · exact ⟨holder, rfl⟩
  · have mem : .list id ∈ (t.list list).map Edge.node := held.holds
    simp at mem

namespace Owned

/-- In an owned tree a place is held at one position. -/
theorem existsUnique_heldAt (owned : t.Owned) (reachable : t.Reachable place)
    (ne : place ≠ .node t.root) : ∃! position, t.HeldAt position place := by
  obtain ⟨holder, ⟨reached, holds⟩, unique⟩ := owned.one_holder place reachable ne
  obtain ⟨index, found⟩ := List.mem_iff_getElem?.mp holds
  refine ⟨⟨holder, index⟩, ⟨reached, found⟩, ?_⟩
  rintro ⟨other, index'⟩ held
  obtain rfl : other = holder := unique other ⟨held.1, held.holds⟩
  have lt : index < (t.below other).length := (List.getElem?_eq_some_iff.mp found).1
  have same : index = index' :=
    (List.getElem?_inj lt (owned.held_once other reached)).mp (found.trans held.2.symm)
  rw [same]

theorem wellOwned (owned : t.Owned) (closed : t.Closed) : t.WellOwned where
  root_inside := owned.inside _ .refl
  closed := closed
  acyclic := owned.acyclic
  root_unheld _ held := owned.not_holds_root held.1 held.holds
  node_once id reachable ne := owned.existsUnique_heldAt reachable fun same =>
    ne (Edge.node.inj same)
  list_once id reachable := by
    obtain ⟨⟨_, index⟩, held, unique⟩ := owned.existsUnique_heldAt reachable (by simp)
    obtain ⟨holder, rfl⟩ := held.exists_node
    refine ⟨(holder, index), held, ?_⟩
    rintro ⟨other, index'⟩ held'
    cases unique _ held'
    rfl

end Owned

namespace WellOwned

theorem existsUnique_heldAt (well : t.WellOwned) (reachable : t.Reachable place)
    (ne : place ≠ .node t.root) : ∃! position, t.HeldAt position place := by
  cases place with
  | node id =>
    refine well.node_once id reachable ?_
    rintro rfl
    exact ne rfl
  | list id =>
    obtain ⟨⟨holder, index⟩, held, unique⟩ := well.list_once id reachable
    refine ⟨⟨.node holder, index⟩, held, ?_⟩
    rintro ⟨other, index'⟩ held'
    obtain ⟨id', rfl⟩ := held'.exists_node
    cases unique (id', index') held'
    rfl

theorem inside (well : t.WellOwned) (reachable : t.Reachable place) : t.Contains place := by
  obtain rfl | ⟨holder, _, holds⟩ := reachable.cases_tail
  · exact well.root_inside
  · exact well.closed holder place holds

theorem owned (well : t.WellOwned) : t.Owned := by
  have unheld : ∀ {holder}, t.Reachable holder → ¬ t.Holds holder (.node t.root) := by
    intro holder reached holds
    obtain ⟨index, found⟩ := List.mem_iff_getElem?.mp holds
    exact well.root_unheld ⟨holder, index⟩ ⟨reached, found⟩
  refine ⟨fun _ reachable => well.inside reachable, well.acyclic, ?one_holder, ?held_once⟩
  case one_holder =>
    intro place reachable ne
    obtain ⟨position, held, unique⟩ := well.existsUnique_heldAt reachable ne
    refine ⟨position.holder, ⟨held.1, held.holds⟩, ?_⟩
    rintro other ⟨reached, holds⟩
    obtain ⟨index, found⟩ := List.mem_iff_getElem?.mp holds
    rw [← unique ⟨other, index⟩ ⟨reached, found⟩]
  case held_once =>
    intro holder reached
    refine List.nodup_iff_getElem?_ne_getElem?.mpr fun i j lt bound same => ?_
    -- Two indices with the same place would be two positions that hold it.
    have found : (t.below holder)[j]? = some (t.below holder)[j] := List.getElem?_eq_getElem bound
    have holds : t.Holds holder (t.below holder)[j] := List.getElem_mem bound
    have ne : (t.below holder)[j] ≠ .node t.root := fun root => unheld reached (root ▸ holds)
    have first : t.HeldAt ⟨holder, i⟩ (t.below holder)[j] := ⟨reached, same.trans found⟩
    have second : t.HeldAt ⟨holder, j⟩ (t.below holder)[j] := ⟨reached, found⟩
    cases (well.existsUnique_heldAt (reached.tail holds) ne).unique first second
    exact Nat.lt_irrefl _ lt

end WellOwned

/-! ## Stores that mention no place outside -/

theorem below_eq_of_sameAt (same : t.SameAt t₁ place) : t₁.below place = t.below place := by
  cases place with
  | node id => exact congrArg Node.edges same
  | list id => exact congrArg (List.map Edge.node) same

/-- Outside the store nothing is held. -/
theorem contains_of_holds {held : Place} (holds : t.Holds place held) : t.Contains place := by
  by_contra outside
  cases place with
  | node id =>
    have none : t.nodes.size ≤ id.index := Nat.le_of_not_lt outside
    simp [Holds, below, Tree.node, Array.getD_eq_getD_getElem?, none, Node.edges] at holds
  | list id =>
    have none : t.lists.size ≤ id.index := Nat.le_of_not_lt outside
    simp [Holds, below, Tree.list, Array.getD_eq_getD_getElem?, none] at holds

namespace Closed

/-- Only the places that are rebuilt or new have to be looked at again. -/
theorem of_rebuilds (closed : t.Closed) (rebuilds : t.Rebuilds t₁ old new)
    (changed : ∀ holder held, t₁.Contains holder → (t.Contains holder → holder ∈ old) →
      t₁.Holds holder held → t.Contains held) : t₁.Closed := by
  intro holder held holds
  refine rebuilds.contains ?_
  by_cases kept : t.Contains holder ∧ holder ∉ old
  · have same := below_eq_of_sameAt (rebuilds.kept holder kept.1 kept.2)
    exact closed holder held (same ▸ holds : held ∈ t.below holder)
  · refine changed holder held (contains_of_holds holds) (fun inside => ?_) holds
    by_contra outside
    exact kept ⟨inside, outside⟩

theorem push (closed : t.Closed) {slot : Slot} (held : ∀ place ∈ slot.edges, t.Contains place) :
    (t.push slot).2.Closed := by
  refine closed.of_rebuilds (t.rebuilds_push slot) fun holder place inside fresh holds => ?_
  -- The one place that is new is that of the node.
  obtain rfl : holder = .node (t.push slot).1 := by
    cases holder with
    | node id =>
      have le : t.nodes.size ≤ id.index := Nat.le_of_not_lt fun lt => by simpa using fresh lt
      have lt : id.index < t.nodes.size + 1 := by simpa [Contains, Tree.push] using inside
      have eq : id.index = t.nodes.size := Nat.le_antisymm (Nat.le_of_lt_succ lt) le
      exact congrArg Edge.node (congrArg NodeId.mk eq)
    | list id => simpa using fresh inside
  refine held place ?_
  rw [Holds, below, node_push] at holds
  exact holds

theorem pushList (closed : t.Closed) {items : List NodeId}
    (held : ∀ id ∈ items, t.Contains (.node id)) : (t.pushList items).2.Closed := by
  refine closed.of_rebuilds (t.rebuilds_pushList items) fun holder place inside fresh holds => ?_
  obtain rfl : holder = .list (t.pushList items).1 := by
    cases holder with
    | node id => simpa using fresh inside
    | list id =>
      have le : t.lists.size ≤ id.index := Nat.le_of_not_lt fun lt => by simpa using fresh lt
      have lt : id.index < t.lists.size + 1 := by simpa [Contains, Tree.pushList] using inside
      have eq : id.index = t.lists.size := Nat.le_antisymm (Nat.le_of_lt_succ lt) le
      exact congrArg Edge.list (congrArg ListId.mk eq)
  rw [Holds, below, list_pushList] at holds
  obtain ⟨id, mem, rfl⟩ := List.mem_map.mp holds
  exact held id mem

theorem replace (closed : t.Closed) {id : NodeId} (inside : t.Contains (.node id)) {slot : Slot}
    (held : ∀ place ∈ slot.edges, t.Contains place) : (t.replace id slot).Closed := by
  have rebuilds := rebuilds_replace inside slot
  refine closed.of_rebuilds rebuilds fun holder place inside₁ changed holds => ?_
  have within : t.Contains holder := by
    cases holder with
    | node other => simpa [Contains, Tree.replace] using inside₁
    | list other => exact inside₁
  obtain rfl := List.mem_singleton.mp (changed within)
  refine held place ?_
  rw [Holds, below, node_replace inside] at holds
  exact holds

theorem removeItem (closed : t.Closed) {list : ListId} (inside : t.Contains (.list list))
    (index : Nat) : (t.removeItem list index).Closed := by
  have rebuilds := rebuilds_setList inside ((t.list list).eraseIdx index)
  refine closed.of_rebuilds rebuilds fun holder place inside₁ changed holds => ?_
  have within : t.Contains holder := by
    cases holder with
    | node other => exact inside₁
    | list other => simpa [Contains, Tree.removeItem, setList] using inside₁
  obtain rfl := List.mem_singleton.mp (changed within)
  -- What is left of the sequence was in it before.
  refine closed (.list list) place ?_
  rw [Holds, below, Tree.removeItem, list_setList inside] at holds
  obtain ⟨id, mem, rfl⟩ := List.mem_map.mp holds
  exact List.mem_map_of_mem (List.mem_of_mem_eraseIdx mem)

end Closed

/-! ## Changes that keep a tree owned -/

namespace Owned

/-- A place that is reached owns a footprint of its own. -/
theorem exists_owns_of_reachable (owned : t.Owned) (reachable : t.Reachable place) :
    ∃ part footprint, t.Owns [place] [part] footprint := by
  obtain ⟨_, whole, owns⟩ := owned.exists_owns
  obtain ⟨part, footprint, represents, sublist⟩ :=
    owns.represents.exists_sublist_of_mem (owns.mem_of_reachable reachable)
  exact ⟨part, footprint, represents, sublist.nodup owns.nodup, fun place mem =>
    owns.inside place (sublist.subset mem)⟩

/-- The places around the footprint of a place hold one another and the place,
once each. -/
theorem exists_context (owned : t.Owned) (reachable : t.Reachable place)
    (owns : t.Owns [place] [part] footprint) :
    ∃ context, context.Nodup ∧ (∀ held ∈ context, t.Contains held ∧ held ∉ footprint) ∧
      context ++ [place] ~ .node t.root :: context.flatMap t.below := by
  obtain ⟨_, whole, ownsRoot⟩ := owned.exists_owns
  let context := whole.filter (· ∉ footprint)
  have outside : ∀ held ∈ context, held ∉ footprint := fun held mem => by
    simpa using (List.mem_filter.mp mem).2
  have nodup : context.Nodup := ownsRoot.nodup.filter _
  have split : whole ~ context ++ footprint := by
    have subset : footprint ⊆ whole := fun held mem =>
      ownsRoot.mem_of_reachable (owns.represents.reached_of_mem (by simpa) mem)
    have disjoint : context.Disjoint footprint := fun held mem => outside held mem
    refine (List.perm_ext_iff_of_nodup ownsRoot.nodup (nodup.append owns.nodup disjoint)).mpr ?_
    intro held
    by_cases mem : held ∈ footprint
    · simp [mem, subset mem]
    · simp [context, mem]
  refine ⟨context, nodup, fun held mem => ⟨ownsRoot.inside held (List.mem_filter.mp mem).1,
    outside held mem⟩, ?_⟩
  -- Both the whole tree and the footprint list what their places hold, so their difference does.
  refine (List.perm_append_right_iff (footprint.flatMap t.below)).mp ?_
  calc
    (context ++ [place]) ++ footprint.flatMap t.below
    _ ~ context ++ footprint := by
      rw [List.append_assoc]
      exact owns.represents.perm_below.symm.append_left _
    _ ~ whole := split.symm
    _ ~ .node t.root :: whole.flatMap t.below := ownsRoot.represents.perm_below
    _ ~ .node t.root :: (context ++ footprint).flatMap t.below := (split.flatMap_right _).cons _
    _ ~ (.node t.root :: context.flatMap t.below) ++ footprint.flatMap t.below := by
      rw [List.flatMap_append, List.cons_append]

/-- Building something else at a place that is reached, on what it owns, keeps the
tree owned. -/
theorem of_builds (owned : t.Owned) (reachable : t.Reachable place)
    (owns : t.Owns [place] [part] footprint) (builds : t.Builds t₁ footprint [place] [part']) :
    t₁.Owned := by
  obtain ⟨context, nodup, around, perm⟩ := owned.exists_context reachable owns
  obtain ⟨new, represents, rebuilds⟩ := builds
  have same : context.flatMap t₁.below = context.flatMap t.below :=
    List.flatMap_congr fun held mem =>
      below_eq_of_sameAt (rebuilds.kept held (around held mem).1 (around held mem).2)
  have disjoint : context.Disjoint new := fun held mem =>
    rebuilds.outside_new (around held mem).1 (around held mem).2
  refine owned_of_perm (nodup.append rebuilds.nodup disjoint) ?_ ?_
  · intro held mem
    obtain mem | mem := List.mem_append.mp mem
    · exact rebuilds.contains (around held mem).1
    · exact rebuilds.inside held mem
  · calc
      context ++ new
      _ ~ context ++ ([place] ++ new.flatMap t₁.below) := represents.perm_below.append_left _
      _ ~ (context ++ [place]) ++ new.flatMap t₁.below := by rw [List.append_assoc]
      _ ~ (.node t.root :: context.flatMap t.below) ++ new.flatMap t₁.below := perm.append_right _
      _ ~ .node t₁.root :: (context ++ new).flatMap t₁.below := by
        rw [rebuilds.root_eq, List.flatMap_append, same, List.cons_append]

end Owned

/-- Whatever is around the footprint that is rebuilt is still reached, and so is
the place at its top. -/
theorem Reachable.of_builds {held : Place} (owned : t.Owned) (reachable : t.Reachable place)
    (owns : t.Owns [place] [part] footprint) (builds : t.Builds t₁ footprint [place] [part'])
    (reached : t.Reachable held) (around : held ∈ footprint → held = place) :
    t₁.Reachable held := by
  obtain ⟨new, represents, rebuilds⟩ := builds
  induction reached with
  | refl =>
    rw [← rebuilds.root_eq]
    exact .refl
  | @tail holder held reached holds ih =>
    -- A holder inside the footprint would hold what is inside too, and the top is not held there.
    have outside : holder ∉ footprint := by
      intro mem
      obtain rfl := around (owns.represents.mem_of_holds mem holds)
      have steps : ReflTransGen t.Holds held holder :=
        owns.represents.reached_of_mem (by simp [ReflTransGen.refl]) mem
      exact owned.acyclic held reachable (TransGen.tail' steps holds)
    have same := below_eq_of_sameAt (rebuilds.kept holder (owned.inside holder reached) outside)
    refine (ih fun mem => absurd mem outside).tail ?_
    rw [Holds, same]
    exact holds

/-! ## Steps of a walk -/

/-- The second tree is the first with places added, and still mentions none
outside. -/
structure Grows (t t₁ : Tree) : Prop where
  added : ∃ new, t.Rebuilds t₁ [] new
  closed : t₁.Closed

namespace Grows

theorem refl (closed : t.Closed) : t.Grows t :=
  ⟨⟨[], .keep .nil (by simp)⟩, closed⟩

theorem trans (first : t.Grows t₁) (second : t₁.Grows t₂) : t.Grows t₂ := by
  obtain ⟨new, rebuilds⟩ := first.added
  obtain ⟨new', rebuilds'⟩ := second.added
  exact ⟨⟨new ++ new', rebuilds.append rebuilds' (List.disjoint_nil_left _) (by simp)⟩,
    second.closed⟩

theorem push (closed : t.Closed) {slot : Slot} (held : ∀ place ∈ slot.edges, t.Contains place) :
    t.Grows (t.push slot).2 :=
  ⟨⟨_, t.rebuilds_push slot⟩, closed.push held⟩

theorem pushList (closed : t.Closed) {items : List NodeId}
    (held : ∀ id ∈ items, t.Contains (.node id)) : t.Grows (t.pushList items).2 :=
  ⟨⟨_, t.rebuilds_pushList items⟩, closed.pushList held⟩

theorem contains (grows : t.Grows t₁) (inside : t.Contains place) : t₁.Contains place := by
  obtain ⟨new, rebuilds⟩ := grows.added
  exact rebuilds.contains inside

/-- Nothing that is reached holds what was added. -/
theorem wellOwned (grows : t.Grows t₁) (well : t.WellOwned) : t₁.WellOwned := by
  obtain ⟨new, rebuilds⟩ := grows.added
  obtain ⟨_, _, owns⟩ := well.owned.exists_owns
  have owns₁ := owns.frame rebuilds (List.disjoint_nil_left _)
  rw [← rebuilds.root_eq] at owns₁
  exact owns₁.owned.wellOwned grows.closed

end Grows

theorem WellOwned.of_builds (well : t.WellOwned) (reachable : t.Reachable place)
    (owns : t.Owns [place] [part] footprint) (builds : t.Builds t₁ footprint [place] [part'])
    (closed : t₁.Closed) : t₁.WellOwned :=
  (well.owned.of_builds reachable owns builds).wellOwned closed

/-- A sequence from which an item was taken out holds the others. -/
theorem Represents.eraseIdx {places : List Place} {parts : List Part}
    (represents : t.Represents places parts footprint) (index : Nat) :
    ∃ rest, t.Represents (places.eraseIdx index) (parts.eraseIdx index) rest ∧
      rest.Sublist footprint := by
  induction places generalizing parts footprint index with
  | nil =>
    cases represents
    exact ⟨[], .nil, .slnil⟩
  | cons first places ih =>
    obtain ⟨part, others, inner, rest, rfl, rfl, head, tail⟩ := represents.uncons
    cases index with
    | zero => exact ⟨rest, tail, List.sublist_append_right ..⟩
    | succ index =>
      obtain ⟨rest', represents', sublist⟩ := ih tail index
      exact ⟨inner ++ rest', head.cons represents', sublist.append_left _⟩

/-- Taking out an item builds the shorter sequence. -/
theorem Owns.removeItem {list : ListId} (owns : t.Owns [.list list] [part] footprint)
    (index : Nat) :
    ∃ part', t.Builds (t.removeItem list index) footprint [.list list] [part'] := by
  obtain ⟨terms, below, rfl, rfl, inside, outside, ownsItems⟩ := Owns.list_iff.mp owns
  obtain ⟨rest, represents, sublist⟩ := ownsItems.represents.eraseIdx index
  have removed := rebuilds_setList inside ((t.list list).eraseIdx index)
  have outside' : .list list ∉ rest := fun mem => outside (sublist.subset mem)
  have insideRest : ∀ place ∈ rest, t.Contains place := fun place mem =>
    ownsItems.inside place (sublist.subset mem)
  have kept := Rebuilds.keep (sublist.nodup ownsItems.nodup) fun place mem =>
    removed.contains (insideRest place mem)
  have both := removed.append kept (List.singleton_disjoint.mpr outside') insideRest
  refine ⟨.list (terms.eraseIdx index), .list list :: rest, ?_, ?_⟩
  · refine Represents.list_iff.mpr ⟨_, rest, rfl, rfl, ?_⟩
    rw [Tree.removeItem, list_setList inside, ← List.eraseIdx_map, ← List.eraseIdx_map]
    refine represents.frame fun place mem => removed.kept place (insideRest place mem) ?_
    rw [List.mem_singleton]
    rintro rfl
    exact outside' mem
  · exact both.mono (List.cons_subset_cons _ sublist.subset)

end Tree

end JsxFactory
