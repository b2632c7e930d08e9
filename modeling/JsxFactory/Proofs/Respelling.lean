/-
# Options choose spellings

The options of a desugaring say how the name of an element and the key of an attribute
are spelled and what the factory function is called, and nothing else. Two runs on one
tree with different options do the same at every step: they fail with the same problem,
or they leave stores that differ in the spelling of nodes that were added for tags,
keys and callees.

Both runs look at old places only, and at most nodes that were added differ. That what
is looked at is old is what evolution gives: markup is never made, so the places that
markup mentions are places of the first store.
-/

import JsxFactory.Proofs.Evolving
import JsxFactory.Proofs.Plain
import JsxFactory.Proofs.SafeEntering

namespace JsxFactory

/-! ## Two runs together -/

/-- Two runs end alike: both with the same result and states that are related, or both
with the same problem. -/
inductive Together {ε σ α : Type} (post : α → σ → σ → Prop) :
    EStateM.Result ε σ α → EStateM.Result ε σ α → Prop
  | ok {a : α} {s₁ s₂ : σ} : post a s₁ s₂ → Together post (.ok a s₁) (.ok a s₂)
  | error {problem : ε} {s₁ s₂ : σ} : Together post (.error problem s₁) (.error problem s₂)

namespace Together

variable {ε ε' σ α β : Type} {mid : α → σ → σ → Prop} {post : β → σ → σ → Prop} {s₁ s₂ : σ}

theorem bind {x y : EStateM ε σ α} {f g : α → EStateM ε σ β} (first : Together mid (x s₁) (y s₂))
    (next : ∀ a s₁ s₂, mid a s₁ s₂ → Together post (f a s₁) (g a s₂)) :
    Together post ((x >>= f) s₁) ((y >>= g) s₂) := by
  change Together post (EStateM.bind x f s₁) (EStateM.bind y g s₂)
  rw [EStateM.bind, EStateM.bind]
  generalize x s₁ = ended₁ at first
  generalize y s₂ = ended₂ at first
  cases first with
  | ok related => exact next _ _ _ related
  | error => exact error

theorem mono {ended₁ ended₂ : EStateM.Result ε σ α} {weaker : α → σ → σ → Prop}
    (together : Together mid ended₁ ended₂) (imp : ∀ a s₁ s₂, mid a s₁ s₂ → weaker a s₁ s₂) :
    Together weaker ended₁ ended₂ := by
  cases together with
  | ok related => exact ok (imp _ _ _ related)
  | error => exact error

theorem adaptExcept {x y : EStateM ε σ α} (wrap : ε → ε') (together : Together mid (x s₁) (y s₂)) :
    Together mid (x.adaptExcept wrap s₁) (y.adaptExcept wrap s₂) := by
  simp only [EStateM.adaptExcept]
  generalize x s₁ = ended₁ at together
  generalize y s₂ = ended₂ at together
  cases together with
  | ok related => exact ok related
  | error => exact error

end Together

namespace Desugar

/-! ## Spellings -/

/-- What a node is for whose spelling the options choose. -/
inductive Role
  | tag
  | key
  | callee

/-- A name as the options spell it in a role. The callee is always the factory
function. -/
def written (options : Options) (name : String) : Role → Slot
  | .tag => spelled (options.quoteIntrinsic && !Text.startsCapital name) name
  | .key => spelled options.quotePropNames name
  | .callee => .identifier options.factory

theorem spelled_cases (quoted : Bool) (name : String) :
    spelled quoted name = .text name ∨ spelled quoted name = .identifier name := by
  cases quoted
  · exact .inr rfl
  · exact .inl rfl

theorem not_markup_spelled (quoted : Bool) (name : String) : ¬ (spelled quoted name).Markup := by
  cases quoted <;> exact id

theorem edges_spelled (quoted : Bool) (name : String) : (spelled quoted name).edges = [] := by
  cases quoted <;> rfl

theorem not_markup_written (options : Options) (name : String) (role : Role) :
    ¬ (written options name role).Markup := by
  cases role with
  | tag | key => exact not_markup_spelled _ _
  | callee => exact id

theorem plain_written (options : Options) (name : String) (role : Role) :
    (written options name role).Plain := by
  cases role with
  | tag | key => obtain same | same := spelled_cases _ name <;> rw [written, same] <;> trivial
  | callee => trivial

theorem edges_written (options : Options) (name : String) (role : Role) :
    (written options name role).edges = [] := by
  cases role with
  | tag | key => exact edges_spelled _ _
  | callee => rfl

/-- Whether a node has a role in the store: as the first argument or the callee of a
call, or as the key of a property. -/
def Plays (t : Tree) (id : NodeId) : Role → Prop
  | .tag => ∃ holder callee arguments others,
      t.node holder = .call callee arguments false ∧ t.list arguments = id :: others
  | .key => ∃ holder value, t.node holder = .plainProperty id value
  | .callee => ∃ holder arguments, t.node holder = .call id arguments false

/-- A node keeps its role while the store evolves. -/
theorem Plays.evolve {t t₁ : Tree} {id : NodeId} {role : Role} (evolves : t.Evolves t₁)
    (lasts : (t.node id).indents = false) (plays : Plays t id role) : Plays t₁ id role := by
  -- The holder may have moved out of braces, but it is still there.
  have stands : ∀ {holder slot}, t.node holder = slot → ¬ slot.Sugar → slot ≠ .hole →
      ∃ other, t₁.node other = slot := by
    rintro holder _ rfl notSugar notHole
    exact evolves.present holder notSugar notHole
  cases role with
  | tag =>
    obtain ⟨holder, callee, arguments, others, found, items⟩ := plays
    obtain ⟨other, found₁⟩ := stands found (by simp [Node.Sugar]) (by simp)
    have inside := Tree.contains_of_ne_nil items (by simp)
    obtain ⟨others₁, items₁⟩ := evolves.list_eq_cons inside items lasts
    exact ⟨other, callee, arguments, others₁, found₁, items₁⟩
  | key =>
    obtain ⟨holder, value, found⟩ := plays
    obtain ⟨other, found₁⟩ := stands found (by simp [Node.Sugar, Node.plainProperty])
      (by simp [Node.plainProperty])
    exact ⟨other, value, found₁⟩
  | callee =>
    obtain ⟨holder, arguments, found⟩ := plays
    obtain ⟨other, found₁⟩ := stands found (by simp [Node.Sugar]) (by simp)
    exact ⟨other, arguments, found₁⟩

variable {o₁ o₂ : Options} {t : Tree} {pending : List (NodeId × Role)} {id : NodeId}

/-- What two stores hold at a place: the same, or an added name as the options spell
it. A name has its role in the store, or is pending, which is to say that it will have
been given its role by the time that the element is a call. -/
def AgreeAt (o₁ o₂ : Options) (t : Tree) (pending : List (NodeId × Role)) (t₁ t₂ : Tree)
    (id : NodeId) : Prop :=
  t₂.node id = t₁.node id ∨ ¬ t.Contains (.node id) ∧ ∃ role name,
    t₁.node id = written o₁ name role ∧ t₂.node id = written o₂ name role ∧
    (Plays t₁ id role ∨ (id, role) ∈ pending)

/-- The states of two runs on the tree `t` with different options. -/
structure Respells (o₁ o₂ : Options) (t : Tree) (pending : List (NodeId × Role))
    (s₁ s₂ : Walk.State Tally) : Prop where
  memory_eq : s₂.memory = s₁.memory
  root_eq : s₂.tree.root = s₁.tree.root
  size_eq : s₂.tree.nodes.size = s₁.tree.nodes.size
  lists_eq : s₂.tree.lists = s₁.tree.lists
  agree : ∀ id, AgreeAt o₁ o₂ t pending s₁.tree s₂.tree id
  evolves : t.Evolves s₁.tree

theorem AgreeAt.mono {pending' : List (NodeId × Role)} {t₁ t₂ : Tree}
    (agree : AgreeAt o₁ o₂ t pending t₁ t₂ id)
    (subset : ∀ role, (id, role) ∈ pending → Plays t₁ id role ∨ (id, role) ∈ pending') :
    AgreeAt o₁ o₂ t pending' t₁ t₂ id := by
  refine agree.imp_right ?_
  rintro ⟨fresh, role, name, found₁, found₂, plays⟩
  exact ⟨fresh, role, name, found₁, found₂, plays.elim .inl (subset role)⟩

namespace Respells

variable {s₁ s₂ : Walk.State Tally}

theorem refl (o₁ o₂ : Options) (t : Tree) (tally : Tally) :
    Respells o₁ o₂ t [] ⟨t, tally⟩ ⟨t, tally⟩ :=
  ⟨rfl, rfl, rfl, rfl, fun _ => .inl rfl, .refl t⟩

/-- Old places hold the same in both stores. -/
theorem node_eq (respells : Respells o₁ o₂ t pending s₁ s₂) (inside : t.Contains (.node id)) :
    s₂.tree.node id = s₁.tree.node id :=
  (respells.agree id).resolve_right fun differ => differ.1 inside

theorem list_eq (respells : Respells o₁ o₂ t pending s₁ s₂) (list : ListId) :
    s₂.tree.list list = s₁.tree.list list := by
  rw [Tree.list, Tree.list, respells.lists_eq]

/-- However it is spelled, an added name has no children. -/
theorem edges_eq (respells : Respells o₁ o₂ t pending s₁ s₂) (id : NodeId) :
    (s₂.tree.node id).edges = (s₁.tree.node id).edges := by
  obtain same | ⟨_, role, name, found₁, found₂, _⟩ := respells.agree id
  · rw [same]
  · rw [found₁, found₂, edges_written, edges_written]

/-- What markup mentions is old. -/
theorem contains_of_markup (respells : Respells o₁ o₂ t pending s₁ s₂) (closed : t.Closed)
    {slot : Slot} (found : s₁.tree.node id = slot) (markup : slot.Markup) {place : Place}
    (mem : place ∈ slot.edges) : t.Contains place := by
  subst found
  exact closed.of_mem_edges (respells.evolves.markup id markup).symm mem

theorem contains_of_mem_list (respells : Respells o₁ o₂ t pending s₁ s₂) (closed : t.Closed)
    {list : ListId} (inside : t.Contains (.list list)) {item : NodeId}
    (mem : item ∈ s₁.tree.list list) : t.Contains (.node item) :=
  closed.of_mem_list ((respells.evolves.items list inside).subset mem)

/-- More may be pending, and a node that has been given its role no longer is. -/
theorem mono (respells : Respells o₁ o₂ t pending s₁ s₂) {pending' : List (NodeId × Role)}
    (subset : ∀ id role, (id, role) ∈ pending → Plays s₁.tree id role ∨ (id, role) ∈ pending') :
    Respells o₁ o₂ t pending' s₁ s₂ where
  memory_eq := respells.memory_eq
  root_eq := respells.root_eq
  size_eq := respells.size_eq
  lists_eq := respells.lists_eq
  agree id := (respells.agree id).mono (subset id)
  evolves := respells.evolves

theorem settle {role : Role} (respells : Respells o₁ o₂ t ((id, role) :: pending) s₁ s₂)
    (plays : Plays s₁.tree id role) : Respells o₁ o₂ t pending s₁ s₂ := by
  refine respells.mono fun other role' mem => ?_
  obtain same | mem := List.mem_cons.mp mem
  · obtain ⟨rfl, rfl⟩ := Prod.mk.inj same
    exact .inl plays
  · exact .inr mem

/-- A change to both stores, in which each place is left alone or given what agrees. -/
theorem step (respells : Respells o₁ o₂ t pending s₁ s₂) {t₁ t₂ : Tree} {tally₁ tally₂ : Tally}
    {pending' : List (NodeId × Role)} (memory_eq : tally₂ = tally₁) (subset : pending ⊆ pending')
    (evolves : s₁.tree.Evolves t₁) (root_eq : t₂.root = t₁.root)
    (size_eq : t₂.nodes.size = t₁.nodes.size) (lists_eq : t₂.lists = t₁.lists)
    (agree : ∀ id, (t₁.node id = s₁.tree.node id ∧ t₂.node id = s₂.tree.node id) ∨
      AgreeAt o₁ o₂ t pending' t₁ t₂ id) :
    Respells o₁ o₂ t pending' ⟨t₁, tally₁⟩ ⟨t₂, tally₂⟩ := by
  refine ⟨memory_eq, root_eq, size_eq, lists_eq, fun id => ?_, respells.evolves.trans evolves⟩
  obtain ⟨same₁, same₂⟩ | agree := agree id
  · rw [AgreeAt, same₁, same₂]
    refine (respells.agree id).imp_right ?_
    rintro ⟨fresh, role, name, found₁, found₂, plays⟩
    refine ⟨fresh, role, name, found₁, found₂, plays.imp (Plays.evolve evolves ?_) (subset ·)⟩
    -- A name is no indentation, so it stays where it is the first argument.
    rw [found₁]
    exact Bool.eq_false_iff.mpr fun indents =>
      not_markup_written o₁ name role (Node.sugar_of_indents indents).markup
  · exact agree

/-- The same is put in the same old place of both stores. -/
theorem replace (respells : Respells o₁ o₂ t pending s₁ s₂) (f : Tally → Tally) {slot : Slot}
    (inside : t.Contains (.node id)) (evolves : s₁.tree.Evolves (s₁.tree.replace id slot)) :
    Respells o₁ o₂ t pending ⟨s₁.tree.replace id slot, f s₁.memory⟩
      ⟨s₂.tree.replace id slot, f s₂.memory⟩ := by
  have inside₁ : s₁.tree.Contains (.node id) := respells.evolves.contains inside
  have inside₂ : s₂.tree.Contains (.node id) := by
    simpa [Tree.Contains, respells.size_eq] using inside₁
  refine respells.step (congrArg f respells.memory_eq) (fun _ mem => mem) evolves respells.root_eq
    (by simp [Tree.replace, respells.size_eq]) respells.lists_eq fun other => ?_
  by_cases same : other = id
  · rw [AgreeAt, same, Tree.node_replace inside₁, Tree.node_replace inside₂]
    exact .inr (.inl rfl)
  · exact .inl ⟨Tree.node_replace_of_ne same slot, Tree.node_replace_of_ne same slot⟩

end Respells

/-! ## Entering a node -/

/-- The states while a node is entered: something was added to the store `u`. -/
structure Adding (o₁ o₂ : Options) (t u : Tree) (pending : List (NodeId × Role))
    (s₁ s₂ : Walk.State Tally) : Prop where
  respells : Respells o₁ o₂ t pending s₁ s₂
  extended : u.Extends s₁.tree

theorem push_run (slot : Slot) (s : Walk.State Tally) :
    push slot s = .ok (s.tree.push slot).1 ⟨(s.tree.push slot).2, s.memory⟩ := rfl

theorem pushList_run (items : List NodeId) (s : Walk.State Tally) :
    pushList items s = .ok (s.tree.pushList items).1 ⟨(s.tree.pushList items).2, s.memory⟩ := rfl

namespace Adding

variable {u : Tree} {s₁ s₂ : Walk.State Tally}

theorem mono (adding : Adding o₁ o₂ t u pending s₁ s₂) {pending' : List (NodeId × Role)}
    (subset : pending ⊆ pending') : Adding o₁ o₂ t u pending' s₁ s₂ :=
  ⟨adding.respells.mono fun _ _ mem => .inr (subset mem), adding.extended⟩

theorem settle {role : Role} (adding : Adding o₁ o₂ t u ((id, role) :: pending) s₁ s₂)
    (plays : Plays s₁.tree id role) : Adding o₁ o₂ t u pending s₁ s₂ :=
  ⟨adding.respells.settle plays, adding.extended⟩

/-- Nodes that are added to both stores, and agree, get the same place. -/
theorem push_agreeing (adding : Adding o₁ o₂ t u pending s₁ s₂) {slot₁ slot₂ : Slot}
    {pending' : List (NodeId × Role)} (subset : pending ⊆ pending') (plain : ¬ slot₁.Markup)
    (agree : slot₂ = slot₁ ∨ ∃ role name, slot₁ = written o₁ name role ∧
      slot₂ = written o₂ name role ∧ ((s₁.tree.push slot₁).1, role) ∈ pending') :
    Together (fun id s₁' s₂' => id = (s₁.tree.push slot₁).1 ∧ s₁'.tree.node id = slot₁ ∧
        Adding o₁ o₂ t u pending' s₁' s₂')
      (push slot₁ s₁) (push slot₂ s₂) := by
  have respells := adding.respells
  have place : (s₂.tree.push slot₂).1 = (s₁.tree.push slot₁).1 :=
    congrArg NodeId.mk respells.size_eq
  have fresh : ¬ t.Contains (.node (s₁.tree.push slot₁).1) :=
    Nat.not_lt.mpr respells.evolves.nodes_le
  have size : (s₂.tree.push slot₂).2.nodes.size = (s₁.tree.push slot₁).2.nodes.size := by
    simp [Tree.push, respells.size_eq]
  have both : Respells o₁ o₂ t pending' ⟨(s₁.tree.push slot₁).2, s₁.memory⟩
      ⟨(s₂.tree.push slot₂).2, s₂.memory⟩ := by
    refine respells.step respells.memory_eq subset (.push _ plain) respells.root_eq size
      respells.lists_eq ?_
    intro id
    by_cases new : id = (s₁.tree.push slot₁).1
    · subst new
      rw [AgreeAt, Tree.node_push, ← place, Tree.node_push, place]
      refine .inr (agree.imp_right ?_)
      rintro ⟨role, name, found₁, found₂, mem⟩
      exact ⟨fresh, role, name, found₁, found₂, .inr mem⟩
    · rw [Tree.node_push_eq, Tree.node_push_eq, place, if_neg new, if_neg new]
      exact .inl ⟨rfl, rfl⟩
  rw [push_run, push_run, place]
  exact .ok ⟨rfl, Tree.node_push .., both, adding.extended.trans (.push _ _)⟩

theorem push (adding : Adding o₁ o₂ t u pending s₁ s₂) {slot : Slot} (plain : ¬ slot.Markup) :
    Together (fun id s₁ s₂ => s₁.tree.node id = slot ∧ Adding o₁ o₂ t u pending s₁ s₂)
      (Desugar.push slot s₁) (Desugar.push slot s₂) :=
  (adding.push_agreeing (fun _ mem => mem) plain (.inl rfl)).mono fun _ _ _ here => here.2

/-- A name is added to both stores, as the options spell it. -/
theorem pushWritten (adding : Adding o₁ o₂ t u pending s₁ s₂) (name : String) (role : Role) :
    Together (fun id s₁ s₂ => Adding o₁ o₂ t u ((id, role) :: pending) s₁ s₂)
      (Desugar.push (written o₁ name role) s₁) (Desugar.push (written o₂ name role) s₂) := by
  refine (adding.push_agreeing (List.subset_cons_self ..) (not_markup_written o₁ name role)
    (.inr ⟨role, name, rfl, rfl, List.mem_cons_self⟩)).mono ?_
  rintro _ s₁' s₂' ⟨rfl, _, adding'⟩
  exact adding'

theorem pushList (adding : Adding o₁ o₂ t u pending s₁ s₂) (items : List NodeId) :
    Together (fun list s₁ s₂ => s₁.tree.list list = items ∧ Adding o₁ o₂ t u pending s₁ s₂)
      (Desugar.pushList items s₁) (Desugar.pushList items s₂) := by
  have respells := adding.respells
  have place : (s₂.tree.pushList items).1 = (s₁.tree.pushList items).1 := by
    simp [Tree.pushList, respells.lists_eq]
  have lists : (s₂.tree.pushList items).2.lists = (s₁.tree.pushList items).2.lists := by
    simp [Tree.pushList, respells.lists_eq]
  have both : Respells o₁ o₂ t pending ⟨(s₁.tree.pushList items).2, s₁.memory⟩
      ⟨(s₂.tree.pushList items).2, s₂.memory⟩ :=
    respells.step respells.memory_eq (fun _ mem => mem) (.pushList _ _) respells.root_eq
      respells.size_eq lists fun _ => .inl ⟨rfl, rfl⟩
  rw [pushList_run, pushList_run, place]
  exact .ok ⟨Tree.list_pushList .., both, adding.extended.trans (.pushList _ _)⟩

end Adding

variable {u : Tree} {s₁ s₂ : Walk.State Tally}

theorem tagName_together {name : NodeId} (inside : t.Contains (.node name))
    (adding : Adding o₁ o₂ t u pending s₁ s₂) :
    Together (fun tag s₁ s₂ => Adding o₁ o₂ t u ((tag, .tag) :: pending) s₁ s₂)
      (tagName o₁ name s₁) (tagName o₂ name s₂) := by
  rw [tagName, tagName, tree_bind, tree_bind, adding.respells.node_eq inside]
  cases s₁.tree.node name with
  | jsxIdentifier name | identifier name => exact adding.pushWritten name .tag
  | jsxMember | member => exact .ok (adding.mono (List.subset_cons_self ..))
  | _ => exact .error

/-- Nothing is looked at, and what is added is the same. -/
theorem push_together (adding : Adding o₁ o₂ t u pending s₁ s₂) {slot : Slot}
    (plain : ¬ slot.Markup) :
    Together (fun _ s₁ s₂ => Adding o₁ o₂ t u pending s₁ s₂) (push slot s₁) (push slot s₂) :=
  (adding.push plain).mono fun _ _ _ here => here.2

theorem attributeValue_together {value : Option NodeId}
    (inside : ∀ id ∈ value, t.Contains (.node id)) (adding : Adding o₁ o₂ t u pending s₁ s₂) :
    Together (fun _ s₁ s₂ => Adding o₁ o₂ t u pending s₁ s₂)
      (attributeValue value s₁) (attributeValue value s₂) := by
  cases value with
  | none => exact push_together adding (by simp [Node.Markup])
  | some value =>
    rw [attributeValue, tree_bind, tree_bind, adding.respells.node_eq (inside value rfl)]
    cases s₁.tree.node value with
    | literal | jsxContainer => exact .ok adding
    | _ => exact .error

theorem entryProperty_together (closed : t.Closed) {entry : NodeId}
    (inside : t.Contains (.node entry)) (adding : Adding o₁ o₂ t u pending s₁ s₂) :
    Together (fun _ s₁ s₂ => Adding o₁ o₂ t u pending s₁ s₂)
      (entryProperty o₁ entry s₁) (entryProperty o₂ entry s₂) := by
  rw [entryProperty, entryProperty, tree_bind, tree_bind, adding.respells.node_eq inside]
  cases found : s₁.tree.node entry with
  | jsxAttribute name value =>
    have held : ∀ place ∈ (Node.jsxAttribute name value : Slot).edges, t.Contains place :=
      fun place mem => adding.respells.contains_of_markup closed found trivial mem
    have insideName := held (.node name) (by cases value <;> simp [Node.edges])
    have insideValue : ∀ id ∈ value, t.Contains (.node id) := by
      rintro id ⟨⟩
      exact held (.node id) (by simp [Node.edges])
    simp only
    rw [tree_bind, tree_bind, adding.respells.node_eq insideName]
    cases s₁.tree.node name with
    | jsxIdentifier name =>
      refine (adding.pushWritten name .key).bind fun key s₁ s₂ adding => ?_
      refine (attributeValue_together insideValue adding).bind fun v s₁ s₂ adding => ?_
      -- The key has its role as soon as the property is there.
      refine (adding.push (by simp [Node.plainProperty, Node.Markup])).mono ?_
      rintro property s₁ s₂ ⟨here, adding⟩
      exact adding.settle ⟨property, v, here⟩
    | _ => exact .error
  | jsxSpreadAttribute argument => exact push_together adding (by simp [Node.Markup])
  | _ => exact .error

theorem entryProperties_together (closed : t.Closed) {entries : List NodeId}
    (inside : ∀ entry ∈ entries, t.Contains (.node entry))
    (adding : Adding o₁ o₂ t u pending s₁ s₂) :
    Together (fun _ s₁ s₂ => Adding o₁ o₂ t u pending s₁ s₂)
      (entryProperties o₁ entries s₁) (entryProperties o₂ entries s₂) := by
  induction entries generalizing s₁ s₂ with
  | nil => exact .ok adding
  | cons entry rest ih =>
    obtain ⟨here, others⟩ := List.forall_mem_cons.mp inside
    refine (entryProperty_together closed here adding).bind fun first s₁ s₂ adding => ?_
    exact (ih others adding).bind fun _ s₁ s₂ adding => .ok adding

theorem attributesArgument_together (closed : t.Closed) {list : ListId}
    (inside : t.Contains (.list list)) (adding : Adding o₁ o₂ t u pending s₁ s₂) :
    Together (fun _ s₁ s₂ => Adding o₁ o₂ t u pending s₁ s₂)
      (attributesArgument o₁ list s₁) (attributesArgument o₂ list s₂) := by
  have items : ∀ entry ∈ s₁.tree.list list, t.Contains (.node entry) := fun entry mem =>
    adding.respells.contains_of_mem_list closed inside mem
  rw [attributesArgument, attributesArgument, tree_bind, tree_bind, adding.respells.list_eq]
  cases found : s₁.tree.list list with
  | nil => exact push_together adding (by simp [Node.Markup])
  | cons entry rest =>
    rw [found] at items
    refine (entryProperties_together closed items adding).bind fun properties s₁ s₂ adding => ?_
    refine (adding.pushList properties).bind ?_
    rintro object s₁ s₂ ⟨_, adding⟩
    exact push_together adding (by simp [Node.Markup])

theorem childrenArgument_together (adding : Adding o₁ o₂ t u pending s₁ s₂) (list : ListId) :
    Together (fun _ s₁ s₂ => Adding o₁ o₂ t u pending s₁ s₂)
      (childrenArgument list s₁) (childrenArgument list s₂) := by
  rw [childrenArgument, tree_bind, tree_bind, adding.respells.list_eq]
  cases s₁.tree.list list with
  | nil => exact .ok adding
  | cons =>
    refine (push_together adding (by simp [Node.Markup])).bind ?_
    exact fun array s₁ s₂ adding => .ok adding

/-- What both runs leave after a node was entered or visited. A node that is to be taken
out is indentation, and nothing has happened to it yet. -/
def LeaveBoth (o₁ o₂ : Options) (t before : Tree) (id : NodeId) (action : Walk.Action)
    (s₁ s₂ : Walk.State Tally) : Prop :=
  Respells o₁ o₂ t [] s₁ s₂ ∧
    (action = .remove → s₁.tree = before ∧ (before.node id).indents = true)

theorem enterElement_together (closed : t.Closed) {name : NodeId} {attributes children : ListId}
    {selfClosing : Bool}
    (found : s₁.tree.node id = .jsxElement name attributes children selfClosing)
    (respells : Respells o₁ o₂ t [] s₁ s₂) :
    Together (LeaveBoth o₁ o₂ t s₁.tree id)
      (enterElement o₁ id name attributes children s₁)
      (enterElement o₂ id name attributes children s₂) := by
  have held : ∀ place ∈ [.node name, .list attributes, .list children], t.Contains place :=
    fun place mem => respells.contains_of_markup closed found trivial mem
  have here : t.node id = .jsxElement name attributes children selfClosing := by
    rw [← respells.evolves.markup id (by rw [found]; trivial), found]
  have inside : t.Contains (.node id) := Tree.contains_of_sugar (by rw [here]; trivial)
  have sugar : (s₁.tree.node id).Sugar := by rw [found]; trivial
  have adding : Adding o₁ o₂ t s₁.tree [] s₁ s₂ := ⟨respells, .refl _⟩
  refine (tagName_together (held _ (by simp)) adding).bind fun tag s₁₁ s₂₁ adding => ?_
  refine (attributesArgument_together closed (held _ (by simp)) adding).bind
    fun object s₁₂ s₂₂ adding => ?_
  refine (childrenArgument_together adding children).bind fun elements s₁₃ s₂₃ adding => ?_
  refine (adding.pushWritten "" .callee).bind fun callee s₁₄ s₂₄ adding => ?_
  refine (adding.pushList (tag :: object :: elements)).bind ?_
  rintro arguments s₁₅ s₂₅ ⟨items, adding⟩
  -- So far there were only additions, so the element is still there to be overwritten.
  have same : s₁₅.tree.node id = s₁.tree.node id :=
    adding.extended.kept (.node id) (Tree.contains_of_sugar sugar)
  have inside₅ := Tree.contains_of_sugar (same ▸ sugar)
  have evolves : s₁₅.tree.Evolves (s₁₅.tree.replace id (.call callee arguments false)) :=
    .replace (same ▸ sugar) (by simp [Node.Markup])
  have called := Tree.node_replace inside₅ (.call callee arguments false)
  have both := adding.respells.replace (fun tally => { tally with elements := tally.elements + 1 })
    inside evolves
  have settled := (both.settle ⟨id, arguments, called⟩).settle
    ⟨id, callee, arguments, object :: elements, called, items⟩
  exact .ok ⟨settled, by simp⟩

theorem enterContainer_together (closed : t.Closed) {expression : NodeId}
    (found : s₁.tree.node id = .jsxContainer expression) (respells : Respells o₁ o₂ t [] s₁ s₂) :
    Together (LeaveBoth o₁ o₂ t s₁.tree id)
      (enterContainer id expression s₁) (enterContainer id expression s₂) := by
  have insideExpression : t.Contains (.node expression) :=
    respells.contains_of_markup closed found trivial (by simp [Node.edges])
  have inside : s₁.tree.Contains (.node id) := Tree.contains_of_sugar (by rw [found]; trivial)
  rw [enterContainer, tree_bind, tree_bind, respells.node_eq insideExpression]
  by_cases bare : (s₁.tree.node expression).kind ∈ bareKinds
  · rw [if_pos bare]
    refine .ok ⟨respells.step respells.memory_eq (fun _ mem => mem) (.move found bare)
      respells.root_eq ?size respells.lists_eq fun other => ?agree, by simp⟩
    case size => simp [Tree.replace, respells.size_eq]
    case agree =>
      -- The expression is old, so the braces give way to the same in both stores.
      have contained : ∀ {place}, s₁.tree.Contains (.node place) →
          s₂.tree.Contains (.node place) ∧
            (s₁.tree.replace expression .hole).Contains (.node place) ∧
            (s₂.tree.replace expression .hole).Contains (.node place) := by
        simp [Tree.Contains, Tree.replace, respells.size_eq]
      obtain ⟨_, inside₁, inside₂⟩ := contained inside
      have inside₃ := respells.evolves.contains insideExpression
      obtain ⟨inside₄, _⟩ := contained inside₃
      by_cases here : other = id
      · rw [AgreeAt, here, Tree.node_replace inside₁, Tree.node_replace inside₂]
        exact .inr (.inl rfl)
      rw [AgreeAt, Tree.node_replace_of_ne here, Tree.node_replace_of_ne here]
      by_cases there : other = expression
      · rw [there, Tree.node_replace inside₃, Tree.node_replace inside₄]
        exact .inr (.inl rfl)
      · rw [Tree.node_replace_of_ne there, Tree.node_replace_of_ne there]
        exact .inl ⟨rfl, rfl⟩
  · rw [if_neg bare]
    exact .error

/-- Rewriting a node alone is the same in both stores. -/
theorem rewrite_together (respells : Respells o₁ o₂ t [] s₁ s₂) (sugar : (s₁.tree.node id).Sugar)
    {slot : Slot} (plain : ¬ slot.Markup) :
    Together (LeaveBoth o₁ o₂ t s₁.tree id)
      ((do replace id slot; return .continue : Step Walk.Action) s₁)
      ((do replace id slot; return .continue : Step Walk.Action) s₂) := by
  have inside : t.Contains (.node id) := by
    rw [respells.evolves.markup id sugar.markup] at sugar
    exact Tree.contains_of_sugar sugar
  exact .ok ⟨respells.replace (fun tally => tally) inside (.replace sugar plain), by simp⟩

theorem enterText_together {value : String} (found : s₁.tree.node id = .jsxText value)
    (respells : Respells o₁ o₂ t [] s₁ s₂) :
    Together (LeaveBoth o₁ o₂ t s₁.tree id) (enterText id value s₁) (enterText id value s₂) := by
  rw [enterText]
  split <;> rename_i indents
  · have counted : Respells o₁ o₂ t []
        ⟨s₁.tree, { s₁.memory with removedText := s₁.memory.removedText + 1 }⟩
        ⟨s₂.tree, { s₂.memory with removedText := s₂.memory.removedText + 1 }⟩ :=
      { respells with memory_eq := by rw [respells.memory_eq] }
    refine .ok ⟨counted, fun _ => ⟨rfl, ?_⟩⟩
    rw [found]
    exact indents
  · exact rewrite_together respells (by rw [found]; trivial) (by simp [Node.text, Node.Markup])

theorem enter_together (closed : t.Closed) (respells : Respells o₁ o₂ t [] s₁ s₂) (id : NodeId) :
    Together (LeaveBoth o₁ o₂ t s₁.tree id) (enter o₁ id s₁) (enter o₂ id s₂) := by
  have goOn : Together (LeaveBoth o₁ o₂ t s₁.tree id)
      ((pure .continue : Step Walk.Action) s₁) ((pure .continue : Step Walk.Action) s₂) :=
    .ok ⟨respells, by simp⟩
  obtain same | ⟨_, role, name, found₁, found₂, _⟩ := respells.agree id
  · rw [enter, enter, tree_bind, tree_bind, same]
    cases found : s₁.tree.node id with
    | jsxText value => exact enterText_together found respells
    | jsxContainer expression => exact enterContainer_together closed found respells
    | jsxElement name attributes children selfClosing =>
      exact enterElement_together closed found respells
    | jsxIdentifier | jsxMember =>
      exact rewrite_together respells (by rw [found]; trivial) (by simp [Node.Markup])
    | generic kind fields =>
      by_cases fragment : kind = "JSXFragment"
      · simp only [if_pos fragment]
        exact .error
      · simp only [if_neg fragment]
        exact goOn
    | _ => exact goOn
  · -- A name that is spelled in two ways is left alone in both.
    have left₁ := enter_of_plain o₁ s₁.memory (found₁ ▸ plain_written o₁ name role)
    have left₂ := enter_of_plain o₂ s₂.memory (found₂ ▸ plain_written o₂ name role)
    rw [left₁, left₂]
    exact goOn

/-! ## The walk -/

section Walk

variable {visit₁ visit₂ : NodeId → Walk.Run Tally DesugarError Walk.Action}

/-- Visits with the options of the two runs. -/
def VisitBoth (o₁ o₂ : Options) (t : Tree)
    (visit₁ visit₂ : NodeId → Walk.Run Tally DesugarError Walk.Action) : Prop :=
  ∀ ⦃s₁ s₂ : Walk.State Tally⦄, Respells o₁ o₂ t [] s₁ s₂ → ∀ id,
    Together (LeaveBoth o₁ o₂ t s₁.tree id) (visit₁ id s₁) (visit₂ id s₂)

/-- The same item is taken out of both stores. -/
theorem Respells.removeItem (respells : Respells o₁ o₂ t [] s₁ s₂) {list : ListId} {index : Nat}
    (found : (s₁.tree.list list)[index]? = some id) (indents : (s₁.tree.node id).indents = true) :
    Respells o₁ o₂ t [] ⟨s₁.tree.removeItem list index, s₁.memory⟩
      ⟨s₂.tree.removeItem list index, s₂.memory⟩ := by
  refine respells.step respells.memory_eq (fun _ mem => mem) (.removeItem found indents)
    respells.root_eq respells.size_eq ?_ fun _ => .inl ⟨rfl, rfl⟩
  rw [Tree.removeItem, Tree.removeItem, respells.list_eq, Tree.setList, Tree.setList,
    respells.lists_eq]

/-- The same hole is left in both stores. -/
theorem Respells.leaveHole (respells : Respells o₁ o₂ t [] s₁ s₂)
    (indents : (s₁.tree.node id).indents = true) :
    Respells o₁ o₂ t [] ⟨s₁.tree.replace id .hole, s₁.memory⟩
      ⟨s₂.tree.replace id .hole, s₂.memory⟩ := by
  have sugar := Node.sugar_of_indents indents
  have inside : t.Contains (.node id) :=
    Tree.contains_of_sugar (respells.evolves.markup id sugar.markup ▸ sugar)
  exact respells.replace (fun tally => tally) inside (.replace sugar (by simp [Node.Markup]))

theorem visitList_together (visits : VisitBoth o₁ o₂ t visit₁ visit₂) (list : ListId)
    (fuel index : Nat) (respells : Respells o₁ o₂ t [] s₁ s₂) :
    Together (fun _ s₁ s₂ => Respells o₁ o₂ t [] s₁ s₂)
      (Walk.visitList visit₁ list fuel index s₁) (Walk.visitList visit₂ list fuel index s₂) := by
  induction fuel generalizing index s₁ s₂ with
  | zero => exact .error
  | succ fuel ih =>
    rw [Walk.visitList, Walk.visitList, tree_bind, tree_bind, respells.list_eq]
    cases found : (s₁.tree.list list)[index]? with
    | none => exact .ok respells
    | some child =>
      refine (visits respells child).bind ?_
      rintro action s₁' s₂' ⟨respells', removed⟩
      cases action with
      | remove =>
        obtain ⟨same, indents⟩ := removed rfl
        rw [← same] at found indents
        exact ih index (respells'.removeItem found indents)
      | «continue» | skip => exact ih (index + 1) respells'

theorem visitEdges_together (visits : VisitBoth o₁ o₂ t visit₁ visit₂) (fuel : Nat)
    (places : List Place) (respells : Respells o₁ o₂ t [] s₁ s₂) :
    Together (fun _ s₁ s₂ => Respells o₁ o₂ t [] s₁ s₂)
      (Walk.visitEdges visit₁ fuel places s₁) (Walk.visitEdges visit₂ fuel places s₂) := by
  induction places generalizing s₁ s₂ with
  | nil => exact .ok respells
  | cons place places ih =>
    cases place with
    | node child =>
      refine (visits respells child).bind ?_
      rintro action s₁' s₂' ⟨respells', removed⟩
      cases action with
      | remove =>
        obtain ⟨same, indents⟩ := removed rfl
        rw [← same] at indents
        exact ih (respells'.leaveHole indents)
      | «continue» | skip => exact ih respells'
    | list list =>
      exact (visitList_together visits list fuel 0 respells).bind fun _ _ _ respells' =>
        ih respells'

theorem visit_together (closed : t.Closed) (o₁ o₂ : Options) (fuel : Nat) :
    VisitBoth o₁ o₂ t (Walk.visit (visitor o₁) fuel) (Walk.visit (visitor o₂) fuel) := by
  induction fuel with
  | zero => exact fun _ _ _ _ => .error
  | succ fuel ih =>
    intro s₁ s₂ respells id
    refine ((enter_together closed respells id).adaptExcept Walk.Stop.failed).bind ?_
    rintro action s₁' s₂' ⟨respells', removed⟩
    cases action with
    | «continue» =>
      -- Both runs go on to the same children.
      have edges := visitEdges_together ih fuel (s₁'.tree.node id).edges respells'
      change Together _ ((Walk.visitEdges _ fuel (s₁'.tree.node id).edges >>= _) s₁')
        ((Walk.visitEdges _ fuel (s₂'.tree.node id).edges >>= _) s₂')
      rw [respells'.edges_eq]
      exact edges.bind fun _ _ _ respells₂ => .ok ⟨respells₂, by simp⟩
    | skip | remove => exact .ok ⟨respells', removed⟩

theorem run_together (closed : t.Closed) (o₁ o₂ : Options) :
    Together (fun _ s₁ s₂ => Respells o₁ o₂ t [] s₁ s₂) (run o₁ t) (run o₂ t) := by
  change Together _ (Walk.walk (visitor o₁) (fuel t) ⟨t, {}⟩)
    (Walk.walk (visitor o₂) (fuel t) ⟨t, {}⟩)
  rw [Walk.walk, Walk.walk, tree_bind, tree_bind]
  refine (visit_together closed o₁ o₂ (fuel t) (.refl o₁ o₂ t {}) t.root).bind ?_
  rintro action s₁ s₂ ⟨respells, removed⟩
  cases action with
  | remove =>
    obtain ⟨same, indents⟩ := removed rfl
    exact .ok (respells.leaveHole (same ▸ indents))
  | «continue» | skip => exact .ok respells

end Walk

/-- A node has a role in both stores or in none. -/
theorem Respells.plays (respells : Respells o₁ o₂ t pending s₁ s₂) {role : Role}
    (plays : Plays s₁.tree id role) : Plays s₂.tree id role := by
  -- Names are spelled in several ways, but not calls and properties.
  have stands : ∀ {holder slot}, s₁.tree.node holder = slot → slot.edges ≠ [] →
      s₂.tree.node holder = slot := by
    rintro holder _ rfl held
    obtain same | ⟨_, role, name, found₁, _, _⟩ := respells.agree holder
    · exact same
    · rw [found₁, edges_written] at held
      exact absurd rfl held
  cases role with
  | tag =>
    obtain ⟨holder, callee, arguments, others, found, items⟩ := plays
    exact ⟨holder, callee, arguments, others, stands found (by simp [Node.edges]),
      (respells.list_eq arguments).trans items⟩
  | key =>
    obtain ⟨holder, value, found⟩ := plays
    exact ⟨holder, value, stands found (by simp [Node.plainProperty, Node.edges])⟩
  | callee =>
    obtain ⟨holder, arguments, found⟩ := plays
    exact ⟨holder, arguments, stands found (by simp [Node.edges])⟩

/-- Reserved options spell nothing. -/
theorem written_keepComments (options : Options) (keepComments : Bool) (name : String)
    (role : Role) :
    written { options with keepComments := keepComments } name role =
      written options name role := by
  cases role <;> rfl

end Desugar

namespace Tree

/-- Stores that hold the same everywhere are the same. -/
theorem eq_of_node_eq {t₁ t₂ : Tree} (root_eq : t₂.root = t₁.root)
    (size_eq : t₂.nodes.size = t₁.nodes.size) (lists_eq : t₂.lists = t₁.lists)
    (node_eq : ∀ id, t₂.node id = t₁.node id) : t₂ = t₁ := by
  obtain ⟨nodes₁, lists₁, root₁⟩ := t₁
  obtain ⟨nodes₂, lists₂, root₂⟩ := t₂
  obtain rfl : root₂ = root₁ := root_eq
  obtain rfl : lists₂ = lists₁ := lists_eq
  have nodes : nodes₂ = nodes₁ := by
    refine Array.ext size_eq fun i lt₂ lt₁ => ?_
    have same := node_eq ⟨i⟩
    simpa [Tree.node, Array.getD, lt₁, lt₂] using same
  rw [nodes]

/-- Options only choose spellings. Desugaring a tree that was read from a document or
lowered from a program, or any that is well owned, with two choices of options fails
with the same problem or leaves two stores with the same root, as many nodes and the same
sequences. The nodes are the same too, but for nodes that were added as tags, keys and
callees, which each store spells as its options say. If the options differ in nothing
that is used, the stores are the same. -/
theorem desugar_respelled (o₁ o₂ : Options) (t : Tree)
    (source : t.IsRead ∨ t.IsLowered ∨ t.WellOwned) :
    (∃ problem, t.desugar o₁ = .error (.failed problem) ∧
      t.desugar o₂ = .error (.failed problem)) ∨
    ∃ t₁ t₂, t.desugar o₁ = .ok t₁ ∧ t.desugar o₂ = .ok t₂ ∧
      t₂.root = t₁.root ∧ t₂.nodes.size = t₁.nodes.size ∧ t₂.lists = t₁.lists ∧
      (∀ id, t₂.node id = t₁.node id ∨ ¬ t.Contains (.node id) ∧ ∃ role name,
        Desugar.Plays t₁ id role ∧ Desugar.Plays t₂ id role ∧
        t₁.node id = Desugar.written o₁ name role ∧ t₂.node id = Desugar.written o₂ name role) ∧
      (o₂ = { o₁ with keepComments := o₂.keepComments } → t₂ = t₁) := by
  have well := wellOwned_of_source source
  have together := Desugar.run_together well.closed o₁ o₂
  obtain ⟨term, footprint, owns⟩ := well.owned.exists_owns
  have lockstep := Desugar.run_lockstep o₁ owns
  rw [Tree.desugar, Tree.desugar]
  generalize Desugar.run o₁ t = ended₁ at together lockstep ⊢
  generalize Desugar.run o₂ t = ended₂ at together ⊢
  cases together with
  | @error stop s₁ s₂ =>
    generalize term.desugar o₁ = expected at lockstep
    cases lockstep with
    | @error problem => exact .inl ⟨problem, rfl, rfl⟩
  | @ok _ s₁ s₂ respells =>
    have nodes : ∀ id, s₂.tree.node id = s₁.tree.node id ∨ ¬ t.Contains (.node id) ∧
        ∃ role name, Desugar.Plays s₁.tree id role ∧ Desugar.Plays s₂.tree id role ∧
          s₁.tree.node id = Desugar.written o₁ name role ∧
          s₂.tree.node id = Desugar.written o₂ name role := by
      intro id
      refine (respells.agree id).imp_right ?_
      rintro ⟨fresh, role, name, found₁, found₂, plays⟩
      have plays₁ := plays.resolve_right List.not_mem_nil
      exact ⟨fresh, role, name, plays₁, respells.plays plays₁, found₁, found₂⟩
    refine .inr ⟨s₁.tree, s₂.tree, rfl, rfl, respells.root_eq, respells.size_eq, respells.lists_eq,
      nodes, fun reserved => ?_⟩
    refine eq_of_node_eq respells.root_eq respells.size_eq respells.lists_eq fun id => ?_
    obtain same | ⟨_, role, name, _, _, found₁, found₂⟩ := nodes id
    · exact same
    · rw [found₁, found₂, reserved, Desugar.written_keepComments]

/-- Without quotes, the tag of the inner element is an identifier instead of a literal. -/
theorem desugar_respelled_nestedElement :
    (ofTerm Term.nestedElement).IsRead ∧
    ∃ t₁ t₂, (ofTerm Term.nestedElement).desugar {} = .ok t₁ ∧
      (ofTerm Term.nestedElement).desugar ⟨"jsx", false, false, true⟩ = .ok t₂ ∧
      t₂.lists = t₁.lists ∧ (t₁.node ⟨24⟩).kind = "Literal" ∧
      (t₂.node ⟨24⟩).kind = "Identifier" := by
  have isRead := isRead_nestedElement
  have quoted : ((ofTerm Term.nestedElement).desugar {}).toOption.map (Tree.node · ⟨24⟩ |>.kind) =
    some "Literal" := by decide +kernel
  have bare : ((ofTerm Term.nestedElement).desugar ⟨"jsx", false, false, true⟩).toOption.map
    (Tree.node · ⟨24⟩ |>.kind) = some "Identifier" := by decide +kernel
  obtain ⟨problem, fails, _⟩ | ⟨t₁, t₂, succeeds₁, succeeds₂, _, _, lists, _⟩ :=
    desugar_respelled {} ⟨"jsx", false, false, true⟩ (ofTerm Term.nestedElement) (.inl isRead)
  · rw [fails] at quoted
    cases quoted
  · rw [succeeds₁] at quoted
    rw [succeeds₂] at bare
    exact ⟨isRead, t₁, t₂, succeeds₁, succeeds₂, lists, Option.some.inj quoted,
      Option.some.inj bare⟩

end Tree

end JsxFactory
