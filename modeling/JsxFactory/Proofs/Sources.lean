/-
# Where trees come from

A tree is read from a document, lowered from a program, or built from a term. Each of
them is code that adds one node or sequence after another to an empty store, children
before the node that holds them, and each is followed here with one statement: parts are
placed on places that are new, and no place outside the store is mentioned (`Tree.Adds`).
Reading adds what the term of the document would add (`Tree.ofEstree_eq`). Lowering adds
the term that it lowers to, and besides it the names of functions that are left for their
rest parameter, which nothing holds (`Tree.owns_ofProgram`). So the trees of all three are
well owned.
-/

import JsxFactory.Proofs.Storing
import JsxFactory.Proofs.WellOwned
import JsxFactory.Tree.Reader

namespace JsxFactory

/-! ## Placing parts -/

namespace Tree

variable {t t₁ t₂ : Tree} {places : List Place} {parts : List Part} {new : List Place}

/-- Whether the first place was taken before the second, if both are of nodes without
children. -/
def LeafBefore (t : Tree) : Place → Place → Prop
  | .node first, .node second =>
    (t.node first).edges = [] → (t.node second).edges = [] → first.index < second.index
  | _, _ => True

theorem leafBefore_of_sameAt (ordered : new.Pairwise t.LeafBefore)
    (same : ∀ place ∈ new, t.SameAt t₁ place) : new.Pairwise t₁.LeafBefore := by
  refine ordered.imp_of_mem fun {first second} memFirst memSecond before => ?_
  cases first with
  | node =>
    cases second with
    | node =>
      rw [LeafBefore, same _ memFirst, same _ memSecond]
      exact before
    | list => trivial
  | list => trivial

/-- A node that is added is the only one that was not there before. -/
theorem contains_of_push {slot : Slot} {id : NodeId}
    (inside : (t.push slot).2.Contains (.node id)) (other : id ≠ (t.push slot).1) :
    t.Contains (.node id) ∧ (t.push slot).2.node id = t.node id := by
  have lt : id.index < t.nodes.size + 1 := by simpa [Contains, Tree.push] using inside
  have ne : id.index ≠ t.nodes.size := fun same => other (congrArg NodeId.mk same)
  have before : t.Contains (.node id) := Nat.lt_of_le_of_ne (Nat.le_of_lt_succ lt) ne
  exact ⟨before, (t.rebuilds_push slot).kept _ before (by simp)⟩

/-- The second tree is the first with parts added on new places, the leaves of them from
first to last, and mentions no place outside unless the first does. Other nodes may have
been added and left, but no holes. -/
structure Adds (t t₁ : Tree) (places : List Place) (parts : List Part) (new : List Place) :
    Prop where
  represents : t₁.Represents places parts new
  rebuilds : t.Rebuilds t₁ [] new
  ordered : new.Pairwise t₁.LeafBefore
  closed : t.Closed → t₁.Closed
  holes : ∀ id, t₁.Contains (.node id) → t₁.node id = .hole →
    t.Contains (.node id) ∨ .node id ∈ new

namespace Adds

theorem nil (t : Tree) : t.Adds t [] [] [] :=
  ⟨.nil, .keep .nil (by simp), .nil, fun closed => closed, fun _ inside _ => .inl inside⟩

theorem contains_places (adds : t.Adds t₁ places parts new) :
    ∀ place ∈ places, t₁.Contains place :=
  fun place mem => adds.rebuilds.inside place (adds.represents.mem_of_mem_places mem)

theorem leafBefore_append {new' : List Place} (first : t.Rebuilds t₁ [] new)
    (second : t₁.Rebuilds t₂ [] new') (ordered : new.Pairwise t₁.LeafBefore)
    (ordered' : new'.Pairwise t₂.LeafBefore) : (new ++ new').Pairwise t₂.LeafBefore := by
  refine List.pairwise_append.mpr ⟨?_, ordered', fun place mem place' mem' => ?_⟩
  · exact leafBefore_of_sameAt ordered fun place mem =>
      second.kept place (first.inside place mem) (by simp)
  · -- The earlier place is in the store that the later one is outside of.
    have inside := first.inside place mem
    have outside := (second.source place' mem').resolve_left (by simp)
    cases place with
    | node =>
      cases place' with
      | node => exact fun _ _ => Nat.lt_of_lt_of_le inside (Nat.le_of_not_lt outside)
      | list => trivial
    | list => trivial

/-- The rest is added to the tree that the first part left, on places that are new
there. -/
theorem cons {place : Place} {part : Part} {new' : List Place}
    (head : t.Adds t₁ [place] [part] new) (tail : t₁.Adds t₂ places parts new') :
    t.Adds t₂ (place :: places) (part :: parts) (new ++ new') where
  represents := (Builds.stays head.represents head.rebuilds tail.rebuilds
    (List.disjoint_nil_left _) (by simp)).cons tail.represents
  rebuilds := head.rebuilds.append tail.rebuilds (List.disjoint_nil_left _) (by simp)
  ordered := leafBefore_append head.rebuilds tail.rebuilds head.ordered tail.ordered
  closed start := tail.closed (head.closed start)
  holes id inside absent := by
    obtain before | mem := tail.holes id inside absent
    · have same : t₂.node id = t₁.node id := tail.rebuilds.kept (.node id) before (by simp)
      obtain earlier | mem := head.holes id before (same ▸ absent)
      · exact .inl earlier
      · exact .inr (List.mem_append_left _ mem)
    · exact .inr (List.mem_append_right _ mem)

theorem pushList {items : List NodeId} {terms : List Term}
    (adds : t.Adds t₁ (items.map .node) (terms.map .node) new) :
    t.Adds (t₁.pushList items).2 [.list (t₁.pushList items).1] [.list terms]
      (.list (t₁.pushList items).1 :: new) where
  represents := adds.represents.pushList adds.rebuilds.inside
  rebuilds := adds.rebuilds.add (t₁.rebuilds_pushList items)
  ordered := by
    refine List.pairwise_cons.mpr ⟨fun _ _ => trivial, ?_⟩
    exact leafBefore_of_sameAt adds.ordered fun place mem =>
      (t₁.rebuilds_pushList items).kept place (adds.rebuilds.inside place mem) (by simp)
  closed start := by
    refine (adds.closed start).pushList fun id mem => ?_
    exact adds.contains_places _ (List.mem_map_of_mem mem)
  holes id inside absent := (adds.holes id inside absent).imp_right (List.mem_cons_of_mem _)

theorem push {slot : Slot} (adds : t.Adds t₁ slot.edges parts new) :
    t.Adds (t₁.push slot).2 [.node (t₁.push slot).1] [.node ⟨slot.fill parts⟩]
      (.node (t₁.push slot).1 :: new) where
  represents := adds.represents.push adds.rebuilds.inside
  rebuilds := adds.rebuilds.add (t₁.rebuilds_push slot)
  ordered := by
    refine List.pairwise_cons.mpr ⟨fun place mem => ?_, ?_⟩
    · cases place with
      | node =>
        -- A node without children is alone.
        intro childless
        rw [node_push] at childless
        have represents := adds.represents
        rw [childless] at represents
        cases represents
        cases mem
      | list => trivial
    · exact leafBefore_of_sameAt adds.ordered fun place mem =>
        (t₁.rebuilds_push slot).kept place (adds.rebuilds.inside place mem) (by simp)
  closed start := (adds.closed start).push adds.contains_places
  holes id inside absent := by
    by_cases here : id = (t₁.push slot).1
    · exact .inr (here ▸ List.mem_cons_self)
    · obtain ⟨before, same⟩ := contains_of_push inside here
      exact (adds.holes id before (same ▸ absent)).imp_right (List.mem_cons_of_mem _)

end Adds

/-- Whether a computation places the parts and gives the places where they stand. -/
def Places (code : StateM Tree (List Place)) (parts : List Part) : Prop :=
  ∀ t : Tree, ∃ new, t.Adds (code t).2 (code t).1 parts new

/-- Whether a computation places a term. -/
def PlacesNode (code : StateM Tree NodeId) (term : Term) : Prop :=
  Places ((fun id => [.node id]) <$> code) [.node term]

namespace Places

theorem nil : Places (pure []) [] :=
  fun t => ⟨[], .nil t⟩

theorem cons {first : StateM Tree Place} {rest : StateM Tree (List Place)} {part : Part}
    (head : Places ((fun place => [place]) <$> first) [part]) (tail : Places rest parts) :
    Places (do return (← first) :: (← rest)) (part :: parts) := by
  intro t
  obtain ⟨new, adds⟩ := head t
  obtain ⟨new', adds'⟩ := tail (first t).2
  exact ⟨new ++ new', adds.cons adds'⟩

theorem pushList {items : StateM Tree (List NodeId)} {terms : List Term}
    (placed : Places (List.map Edge.node <$> items) (terms.map .node)) :
    Places (do return [.list (← placeList (← items))]) [.list terms] := by
  intro t
  obtain ⟨new, adds⟩ := placed t
  exact ⟨_, adds.pushList⟩

/-- A node is placed after its children, with their places filled in. -/
theorem push {α β : Type} {node : Node α β} {code : StateM Tree (List Place)}
    (alike : Edge.Alike node.edges parts) (placed : Places code parts) :
    PlacesNode (do place (node.fill (← code))) ⟨node.fill parts⟩ := by
  intro t
  obtain ⟨new, adds⟩ := placed t
  have alikePlaces : Edge.Alike node.edges (code t).1 := alike.trans adds.represents.alike.symm
  rw [← Node.edges_fill alikePlaces] at adds
  have pushed := adds.push
  rw [Node.fill_fill alikePlaces alike] at pushed
  exact ⟨_, pushed⟩

theorem leaf (slot : Slot) (childless : slot.edges = []) :
    PlacesNode (place slot) ⟨slot.fill []⟩ := by
  intro t
  have adds : t.Adds t slot.edges [] [] := by
    rw [childless]
    exact .nil t
  exact ⟨_, adds.push⟩

end Places

/-- What is placed first and left is in nobody's way. -/
theorem PlacesNode.after {slot : Slot} {code : StateM Tree NodeId} {term : Term}
    (childless : slot.edges = []) (present : slot ≠ .hole) (placed : PlacesNode code term) :
    PlacesNode (do let _ ← place slot; code) term := by
  intro t
  obtain ⟨new, represents, rebuilds, ordered, closed, holes⟩ := placed (t.push slot).2
  refine ⟨new, represents, ?_, ordered, fun start => closed (start.push ?_), ?_⟩
  · have both := (t.rebuilds_push slot).append rebuilds (List.disjoint_nil_left _) (by simp)
    exact both.sublist (List.sublist_append_right ..)
  · simp [childless]
  · intro id inside absent
    obtain before | mem := holes id inside absent
    · have kept := rebuilds.kept (.node id) before (by simp)
      have absent' : (t.push slot).2.node id = .hole := kept.symm.trans absent
      have other : id ≠ (t.push slot).1 := by
        rintro rfl
        exact present ((node_push t slot).symm.trans absent')
      exact .inl (contains_of_push before other).1
    · exact .inr mem

theorem closed_empty : empty.Closed := by
  rintro (⟨_ | _⟩ | _) held holds <;>
    simp [Holds, below, empty, Tree.node, Tree.list, Node.edges] at holds

/-- What is placed in an empty store is a well-owned tree with its leaves in order, once its
place is the root, and it has all holes that were added. -/
theorem PlacesNode.exists_owns {code : StateM Tree NodeId} {term : Term}
    (placed : PlacesNode code term) :
    let t := (code empty).2.setRoot (code empty).1
    ∃ footprint, t.Owns [.node t.root] [.node term] footprint ∧ t.Closed ∧
      footprint.Pairwise t.LeafBefore ∧
      ∀ id, t.Contains (.node id) → t.node id = .hole → id = empty.root ∨ .node id ∈ footprint := by
  intro t
  obtain ⟨new, represents, rebuilds, ordered, closed, holes⟩ := placed empty
  -- The tree differs from the store in its root only.
  refine ⟨new, ⟨represents.frame ?_, rebuilds.nodup, ?_⟩, fun holder held holds => ?_,
    ordered.imp ?_, fun id inside absent => ?_⟩
  · rintro (_ | _) _ <;> rfl
  · rintro (_ | _) mem
    · exact rebuilds.inside _ mem
    · exact rebuilds.inside _ mem
  · have inside := closed closed_empty holder held (by cases holder <;> exact holds)
    cases held <;> exact inside
  · rintro (_ | _) (_ | _) before <;> exact before
  · obtain first | mem := holes id inside absent
    · exact .inl (congrArg NodeId.mk (Nat.lt_one_iff.mp first))
    · exact .inr mem

end Tree

/-! ## Stored terms -/

namespace Term

open JsxFactory.Tree (Places PlacesNode place placeList)

/-- Places a sequence of terms. -/
def storeList (terms : List Term) : StateM Tree ListId := do
  placeList (← storeItems terms)

theorem storeFields_eq_mapFields (fields : List (String × Field Term (List Term))) :
    storeFields fields = Node.mapM.mapFields store storeList fields := by
  induction fields with
  | nil => rfl
  | cons head rest ih =>
    obtain ⟨key, _ | _ | _⟩ := head <;> simp [storeFields, Node.mapM.mapFields, storeList, ih]

/-- A node is placed after its children. -/
theorem store_mk (node : Node Term (List Term)) :
    store ⟨node⟩ = node.mapM store storeList >>= place := by
  cases node with
  | generic kind fields => simp [store, Node.mapM, storeFields_eq_mapFields]
  | jsxAttribute name value => cases value <;> simp [store, Node.mapM]
  | _ => simp [store, Node.mapM, storeList]

theorem places_storeItems {terms : List Term}
    (stores : ∀ inner ∈ terms, PlacesNode inner.store inner) :
    Places (List.map Edge.node <$> storeItems terms) (terms.map .node) := by
  induction terms with
  | nil => exact .nil
  | cons term rest ih =>
    obtain ⟨first, others⟩ := List.forall_mem_cons.mp stores
    have head : Places ((fun place => [place]) <$> Edge.node <$> term.store) [.node term] := first
    exact head.cons (ih others)

theorem places_parts {parts : List Part}
    (stores : ∀ part ∈ parts, ∀ inner ∈ part.items, PlacesNode inner.store inner) :
    Places (parts.mapM (Edge.mapM store storeList)) parts := by
  induction parts with
  | nil => exact .nil
  | cons part rest ih =>
    obtain ⟨first, others⟩ := List.forall_mem_cons.mp stores
    have head : Places ((fun place => [place]) <$> Edge.mapM store storeList part) [part] := by
      cases part with
      | node child => exact first child (by simp)
      | list children => exact (places_storeItems first).pushList
    rw [List.mapM_cons]
    exact head.cons (ih others)

theorem placesNode_store (term : Term) : PlacesNode term.store term := by
  induction term using Term.induction with
  | mk node ih =>
    have placed : Places (node.edges.mapM (Edge.mapM store storeList)) node.edges :=
      places_parts fun part memPart inner memInner =>
        ih inner (List.mem_flatMap.mpr ⟨part, memPart, memInner⟩)
    have pushed := placed.push (.refl node.edges)
    rw [Node.fill_edges] at pushed
    rw [store_mk, Node.mapM_eq_fill, bind_map_left]
    exact pushed

end Term

/-! ## Reading -/

namespace Estree

open JsxFactory.Tree (place placeList)

variable {α β γ : Type}

/-- Places what is read, once the reading has gone through. -/
def placing (reading : Except ReadError α) (store : α → StateM Tree β) : Reader β := fun t =>
  reading.map fun a => store a t

section Placing

variable (reading : Except ReadError α) (t : Tree)

theorem placing_bind (store : α → StateM Tree β) (next : β → Reader γ) :
    (placing reading store >>= next) t =
      reading >>= fun a => next (store a t).1 (store a t).2 := by
  cases reading <;> rfl

theorem lift_bind (next : α → Reader β) :
    ((liftM reading : Reader α) >>= next) t = reading >>= fun a => next a t := by
  cases reading <;> rfl

theorem placing_of_bind (next : α → Except ReadError β) (store : β → StateM Tree γ) :
    placing (reading >>= next) store t = reading >>= fun a => placing (next a) store t := by
  cases reading <;> rfl

theorem placing_of_pure (a : α) (store : α → StateM Tree β) :
    placing (pure a) store t = pure (store a t) := rfl

end Placing

/-- Places a term that may be absent. -/
def placeOptional : Option Term → StateM Tree (Option NodeId)
  | none => pure none
  | some term => some <$> term.store

/-- Places the name and the attributes of an opening tag. -/
def placeOpening (opening : Term × List Term × Bool) : StateM Tree (NodeId × ListId × Bool) := do
  return (← opening.1.store, ← Term.storeList opening.2.1, opening.2.2)

/-- Places what is in a field. -/
def placeField : Field Term (List Term) → StateM Tree (Field NodeId ListId)
  | .node child => Field.node <$> child.store
  | .list children => Field.list <$> Term.storeList children
  | .value json => pure (.value json)

theorem placing_node {code : Reader NodeId} {reading : Except ReadError Term}
    (same : code = placing reading Term.store) :
    Field.node <$> code = placing (reading.map Field.node) placeField := by
  subst same
  cases reading <;> rfl

theorem placing_list {code : Reader (List NodeId)} {reading : Except ReadError (List Term)}
    (same : code = placing reading Term.storeItems) :
    Field.list <$> (code >>= placeList) = placing (reading.map Field.list) placeField := by
  subst same
  cases reading <;> rfl

theorem placing_field (key : String) {code : Reader (Field NodeId ListId)}
    {reading : Except ReadError (Field Term (List Term))}
    {rest : Reader (List (String × Field NodeId ListId))}
    {readingRest : Except ReadError (List (String × Field Term (List Term)))}
    (same : code = placing reading placeField)
    (sameRest : rest = placing readingRest Term.storeFields) :
    (do return (key, ← code) :: (← rest)) =
      placing (do return (key, ← reading) :: (← readingRest)) Term.storeFields := by
  subst same sameRest
  cases reading with
  | error => rfl
  | ok field => cases readingRest <;> cases field <;> rfl

mutual

/-- Adding what a document stands for is reading its term and placing it: a defect is found
before or after other nodes are added, but then there is no store. -/
theorem store_eq : ∀ json : Json, store json = placing (read json) Term.store
  | .null => rfl
  | .bool _ | .number _ | .string _ | .array _ => rfl
  | .object members => by
    rw [store, read]
    cases tag? members with
    | none => rfl
    | some tag =>
      funext t
      dsimp only
      cases Kind.of tag members with
      -- Two kinds have fields that are looked into before anything is added for them.
      | jsxElement =>
        simp only [storeOpening_eq members, storeItems_eq members, placing_bind, placing_of_bind]
        cases readOpening members with
        | error => rfl
        | ok opening =>
          obtain ⟨name, attributes, selfClosing⟩ := opening
          cases readItems "JSXElement" "children" members <;> rfl
      | jsxAttribute =>
        simp only [storeChild_eq members, storeOptional_eq members, placing_bind, placing_of_bind]
        cases readOptional "value" members with
        | error => rfl
        | ok value => cases value <;> rfl
      | _ =>
        -- The others read one field after the other, and so do their terms.
        simp only [storeChild_eq members, storeItems_eq members, storeFields_eq members,
          placing_bind, lift_bind, placing_of_bind, placing_of_pure]
        rfl
termination_by structural json => json

theorem storeList_eq : ∀ items : List Json,
    storeList items = placing (readList items) Term.storeItems
  | [] => rfl
  | item :: rest => by
    funext t
    simp only [storeList, readList, store_eq item, storeList_eq rest, placing_bind,
      placing_of_bind, placing_of_pure]
    rfl

theorem storeChild_eq : ∀ (members : List (String × Json)) (kind field : String),
    storeChild kind field members = placing (readChild kind field members) Term.store
  | [], _, _ => rfl
  | (key, value) :: rest, kind, field => by
    rw [storeChild, readChild]
    split
    · exact store_eq value
    · exact storeChild_eq rest kind field

theorem storeOptional_eq : ∀ (members : List (String × Json)) (field : String),
    storeOptional field members = placing (readOptional field members) placeOptional
  | [], _ => rfl
  | (key, value) :: rest, field => by
    rw [storeOptional, readOptional]
    split
    · split
      · rfl
      · funext t
        rw [store_eq value, placing_bind]
        cases read value <;> rfl
    · exact storeOptional_eq rest field

theorem storeItems_eq : ∀ (members : List (String × Json)) (kind field : String),
    storeItems kind field members = placing (readItems kind field members) Term.storeList
  | [], _, _ => rfl
  | (key, .array items) :: rest, kind, field => by
    rw [storeItems, readItems]
    split
    · funext t
      rw [storeList_eq items, placing_bind]
      cases readList items <;> rfl
    · exact storeItems_eq rest kind field
  | (key, .null) :: rest, kind, field | (key, .bool _) :: rest, kind, field
  | (key, .number _) :: rest, kind, field | (key, .string _) :: rest, kind, field
  | (key, .object _) :: rest, kind, field => by
    simp only [storeItems, readItems]
    split
    · rfl
    · exact storeItems_eq rest kind field

theorem storeOpening_eq : ∀ members : List (String × Json),
    storeOpening members = placing (readOpening members) placeOpening
  | [] => rfl
  | (key, .object opening) :: rest => by
    rw [storeOpening, readOpening]
    split
    · funext t
      simp only [storeChild_eq opening, storeItems_eq opening, placing_bind, lift_bind,
        placing_of_bind, placing_of_pure]
      rfl
    · exact storeOpening_eq rest
  | (key, .null) :: rest | (key, .bool _) :: rest | (key, .number _) :: rest
  | (key, .string _) :: rest | (key, .array _) :: rest => by
    simp only [storeOpening, readOpening]
    split
    · rfl
    · exact storeOpening_eq rest

theorem storeFields_eq : ∀ members : List (String × Json),
    storeFields members = placing (readFields members) Term.storeFields
  | [] => rfl
  | (key, .array items) :: rest => by
    simp only [storeFields, readFields]
    split
    · exact storeFields_eq rest
    · split
      · exact placing_field key (placing_node (store_eq _)) (storeFields_eq rest)
      · split
        · exact placing_field key (placing_list (storeList_eq items)) (storeFields_eq rest)
        · exact placing_field key rfl (storeFields_eq rest)
  | (key, .null) :: rest | (key, .bool _) :: rest | (key, .number _) :: rest
  | (key, .string _) :: rest => by
    simp only [storeFields, readFields]
    split
    · exact storeFields_eq rest
    · split
      · exact placing_field key (placing_node rfl) (storeFields_eq rest)
      · exact placing_field key rfl (storeFields_eq rest)
  | (key, .object members) :: rest => by
    simp only [storeFields, readFields]
    split
    · exact storeFields_eq rest
    · split
      · exact placing_field key (placing_node (store_eq _)) (storeFields_eq rest)
      · exact placing_field key rfl (storeFields_eq rest)

end

end Estree

/-- A document is read as the tree of its term. -/
theorem Tree.ofEstree_eq (document : Json) :
    ofEstree document = (Estree.read document).map ofTerm := by
  rw [ofEstree, Estree.store_eq]
  cases Estree.read document <;> rfl

theorem Tree.ofEstree_ok_iff {document : Json} {t : Tree} :
    ofEstree document = .ok t ↔ ∃ term, Estree.read document = .ok term ∧ ofTerm term = t := by
  rw [ofEstree_eq]
  cases Estree.read document <;> simp [Except.map]

/-! ## Lowering -/

namespace Program

open JsxFactory.Tree (Places PlacesNode place placeList)

/-- Whether lowering into a store places the term that lowering gives, and reports the
same. -/
def Lowers (code : Lowerer NodeId) (lowered : Reported Term) : Prop :=
  (∀ t, (code t).diagnostics = lowered.diagnostics) ∧
    PlacesNode (fun t => (code t).value) lowered.value

@[simp] theorem diagnostics_lowerer_bind {α β : Type} (code : Lowerer α) (next : α → Lowerer β)
    (t : Tree) :
    ((code >>= next) t).diagnostics =
      (code t).diagnostics ++ (next (code t).value.1 (code t).value.2).diagnostics := rfl

@[simp] theorem diagnostics_lowerer_pure {α : Type} (a : α) (t : Tree) :
    ((pure a : Lowerer α) t).diagnostics = [] := rfl

@[simp] theorem diagnostics_lowerer_map {α β : Type} (f : α → β) (code : Lowerer α) (t : Tree) :
    ((f <$> code) t).diagnostics = (code t).diagnostics :=
  List.append_nil _

@[simp] theorem diagnostics_place (slot : Slot) (t : Tree) :
    ((place slot : Lowerer NodeId) t).diagnostics = [] := rfl

@[simp] theorem diagnostics_placeList (items : List NodeId) (t : Tree) :
    ((placeList items : Lowerer ListId) t).diagnostics = [] := rfl

theorem lowers_items {codes : List (Lowerer NodeId)} {lowered : List (Reported Term)}
    (each : List.Forall₂ Lowers codes lowered) :
    (∀ t, (codes.mapM id t).diagnostics = lowered.flatMap (·.diagnostics)) ∧
      Places (List.map Edge.node <$> fun t => (codes.mapM id t).value)
        ((lowered.map (·.value)).map .node) := by
  induction each with
  | nil => exact ⟨fun _ => rfl, .nil⟩
  | @cons code lower codes lowered first _ ih =>
    rw [List.mapM_cons]
    constructor
    · intro t
      simp [first.1, ih.1]
    · have head : Places ((fun place => [place]) <$> Edge.node <$> fun t => (code t).value)
          [.node lower.value] := first.2
      exact head.cons ih.2

theorem lowers_edges {codes : List (Edge (Lowerer NodeId) (List (Lowerer NodeId)))}
    {lowered : List (Edge (Reported Term) (List (Reported Term)))}
    (each : List.Forall₂ (EdgesRelated Lowers) codes lowered) :
    (∀ t, (codes.mapM (Edge.mapM id storeSequence) t).diagnostics =
        (lowered.flatMap Edge.items).flatMap (·.diagnostics)) ∧
      Places (fun t => (codes.mapM (Edge.mapM id storeSequence) t).value)
        (lowered.map loweredPart) := by
  induction each with
  | nil => exact ⟨fun _ => rfl, .nil⟩
  | @cons code lower codes lowered first _ ih =>
    rw [List.mapM_cons]
    have head : (∀ t, (Edge.mapM id storeSequence code t).diagnostics =
          lower.items.flatMap (·.diagnostics)) ∧
        Places ((fun place => [place]) <$> fun t => (Edge.mapM id storeSequence code t).value)
          [loweredPart lower] := by
      cases first with
      | node child => exact ⟨fun t => by simp [Edge.mapM, child.1], child.2⟩
      | list children =>
        obtain ⟨reports, placed⟩ := lowers_items children
        exact ⟨fun t => by simp [Edge.mapM, storeSequence, reports], placed.pushList⟩
    constructor
    · intro t
      simp [head.1, ih.1]
    · exact head.2.cons ih.2

theorem lowers_node {node : Node (Lowerer NodeId) (List (Lowerer NodeId))}
    {node' : Node (Reported Term) (List (Reported Term))} (same : node.shape = node'.shape)
    (edges : List.Forall₂ (EdgesRelated Lowers) node.edges node'.edges) :
    Lowers (stores.node node) (terms.node node') := by
  obtain ⟨reports, placed⟩ := lowers_edges edges
  have alike' := alike_loweredPart node'.edges
  have alike := (edges_alike edges).trans alike'
  -- Both nodes have one shape, so the terms may be filled into either.
  rw [stores_node_eq, terms_node_eq, ← Node.fill_congr same alike alike']
  exact ⟨fun t => by simp [reports, Node.children], placed.push alike⟩

theorem lowers_hole : Lowers (place .hole) (pure Term.hole) :=
  ⟨fun _ => rfl, .leaf .hole rfl⟩

theorem lowers_array {codes : List (Option (Lowerer NodeId))}
    {lowered : List (Option (Reported Term))}
    (each : List.Forall₂ (Option.Rel Lowers) codes lowered) :
    Lowers (stores.array codes) (terms.array lowered) := by
  rw [stores_array_eq, terms_array_eq]
  exact lowers_node rfl (.cons (.list (filled_related lowers_hole each)) .nil)

/-- Both lowerings keep to one another, construct by construct. -/
theorem lowers_related : Related (fun _ => Lowers) stores terms :=
  .of_edges lowers_node lowers_array (fun _ _ => ⟨fun _ => rfl, .leaf .hole rfl⟩)
    -- The name of a function that is left is placed, and nothing holds it.
    fun name lowers =>
      ⟨fun t => lowers.1 (t.push (.identifier name)).2, lowers.2.after rfl (by simp)⟩

theorem lowers_store (program : Program) : Lowers program.store program.lower := by
  rw [store_eq]
  exact fold_related lowers_related program

end Program

/-! ## Sources -/

namespace Tree

variable {t : Tree}

/-- The tree is read from a document. -/
def IsRead (t : Tree) : Prop :=
  ∃ document, ofEstree document = .ok t

/-- The tree is lowered from a program. -/
def IsLowered (t : Tree) : Prop :=
  ∃ program : Program, t = (ofProgram program).value

/-- The tree of a term owns the term. -/
theorem owns_ofTerm (term : Term) :
    ∃ footprint, (ofTerm term).Owns [.node (ofTerm term).root] [.node term] footprint := by
  obtain ⟨footprint, owns, _⟩ := term.placesNode_store.exists_owns
  exact ⟨footprint, owns⟩

theorem wellOwned_ofTerm (term : Term) : (ofTerm term).WellOwned := by
  obtain ⟨footprint, owns, closed, _⟩ := term.placesNode_store.exists_owns
  exact owns.owned.wellOwned closed

theorem owned_ofTerm (term : Term) : (ofTerm term).Owned :=
  (wellOwned_ofTerm term).owned

/-- The tree of a program owns the term of the program, its leaves in the order in which
they were added. Of the holes in the store only the first is outside, which was there before. -/
theorem owns_ofProgram_ordered (program : Program) :
    let t := (ofProgram program).value
    ∃ footprint, t.Owns [.node t.root] [.node program.lower.value] footprint ∧
      footprint.Pairwise t.LeafBefore ∧
      ∀ id, t.Contains (.node id) → t.node id = .hole → id = empty.root ∨ .node id ∈ footprint := by
  obtain ⟨footprint, owns, _, ordered, holes⟩ := program.lowers_store.2.exists_owns
  exact ⟨footprint, owns, ordered, holes⟩

theorem owns_ofProgram (program : Program) :
    ∃ footprint, (ofProgram program).value.Owns [.node (ofProgram program).value.root]
      [.node program.lower.value] footprint := by
  obtain ⟨footprint, owns, _⟩ := owns_ofProgram_ordered program
  exact ⟨footprint, owns⟩

/-- The diagnostics are those about the term of the program. -/
theorem diagnostics_ofProgram (program : Program) :
    (ofProgram program).diagnostics = program.lower.diagnostics := by
  rw [← program.lowers_store.1 empty]
  exact List.append_nil _

theorem wellOwned_ofProgram (program : Program) : (ofProgram program).value.WellOwned := by
  obtain ⟨footprint, owns, closed, _⟩ := program.lowers_store.2.exists_owns
  exact owns.owned.wellOwned closed

theorem IsRead.exists_term (isRead : t.IsRead) : ∃ term, t = ofTerm term := by
  obtain ⟨document, accepted⟩ := isRead
  obtain ⟨term, _, rfl⟩ := ofEstree_ok_iff.mp accepted
  exact ⟨term, rfl⟩

theorem isRead_ofTerm {document : Json} {term : Term} (reads : Estree.read document = .ok term) :
    (ofTerm term).IsRead :=
  ⟨document, ofEstree_ok_iff.mpr ⟨term, reads, rfl⟩⟩

theorem wellOwned_of_source (source : t.IsRead ∨ t.IsLowered ∨ t.WellOwned) : t.WellOwned := by
  obtain isRead | ⟨program, rfl⟩ | well := source
  · obtain ⟨term, rfl⟩ := isRead.exists_term
    exact wellOwned_ofTerm term
  · exact wellOwned_ofProgram program
  · exact well

theorem IsRead.owned (isRead : t.IsRead) : t.Owned :=
  (wellOwned_of_source (.inl isRead)).owned

theorem owned_of_source (source : t.IsRead ∨ t.IsLowered ∨ t.Owned) : t.Owned := by
  obtain isRead | isLowered | owned := source
  · exact isRead.owned
  · exact (wellOwned_of_source (.inr (.inl isLowered))).owned
  · exact owned

end Tree

end JsxFactory
