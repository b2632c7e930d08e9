/-
# Elements become calls

The call that an element becomes is described in one store by what the element was in
another: its arguments are new nodes, except for a dotted name, which is taken over,
the properties of the object stand for the attributes one by one, and the array of the
children holds the very sequence that the element held. Entering an element leaves such
a call in its place. Everything that the description mentions besides the call itself is
new, so it stays true while the store goes on to evolve.
-/

import JsxFactory.Proofs.Evolving
import JsxFactory.Proofs.Plain
import JsxFactory.Proofs.SafeEntering

namespace JsxFactory

namespace Node

variable {α β : Type}

/-- The shapes of the nodes that are added for a call. -/
def Built : Node α β → Prop
  | .hole | .identifier _ | .literal _ | .property .. | .spread _ | .object _ | .array _ => True
  | _ => False

/-- The shapes of names with a dot. -/
def Dotted : Node α β → Prop
  | .jsxMember .. | .member .. => True
  | _ => False

theorem Built.not_markup {node : Node α β} (built : node.Built) : ¬ node.Markup := by
  cases node with
  | hole | identifier | literal | property | spread | object | array => exact id
  | _ => exact built.elim

theorem indents_eq_false_of_not_sugar {node : Node α β} (notSugar : ¬ node.Sugar) :
    node.indents = false :=
  Bool.eq_false_iff.mpr fun indents => notSugar (sugar_of_indents indents)

theorem Built.not_sugar {node : Node α β} (built : node.Built) : ¬ node.Sugar :=
  fun sugar => built.not_markup sugar.markup

end Node

namespace Tree

variable {t t₁ t₂ u v : Tree} {id : NodeId} {list : ListId} {slot : Slot} {items : List NodeId}

/-! ## Stores with parts of calls added -/

/-- The second store is the first with parts of calls added. -/
structure Expands (t t₁ : Tree) : Prop extends Extends t t₁ where
  built : ∀ id, ¬ t.Contains (.node id) → (t₁.node id).Built
  lasting : ∀ list, ¬ t.Contains (.list list) → ∀ item ∈ t₁.list list,
    (t₁.node item).indents = false

namespace Expands

theorem refl (t : Tree) : t.Expands t where
  toExtends := .refl t
  built id outside := by
    rw [node_of_not_contains outside]
    trivial
  lasting list outside item mem := by
    rw [list_of_not_contains outside] at mem
    cases mem

theorem trans (first : t.Expands t₁) (second : t₁.Expands t₂) : t.Expands t₂ where
  toExtends := first.toExtends.trans second.toExtends
  built id outside := by
    by_cases inside : t₁.Contains (.node id)
    · rw [second.kept (.node id) inside]
      exact first.built id outside
    · exact second.built id inside
  lasting list outside item mem := by
    by_cases inside : t₁.Contains (.list list)
    · rw [second.kept (.list list) inside] at mem
      have lasts := first.lasting list outside item mem
      by_cases insideItem : t₁.Contains (.node item)
      · rw [second.kept (.node item) insideItem]
        exact lasts
      · exact Node.indents_eq_false_of_not_sugar (second.built item insideItem).not_sugar
    · exact second.lasting list inside item mem

theorem push (t : Tree) (built : slot.Built) : t.Expands (t.push slot).2 where
  toExtends := .push t slot
  built id outside := by
    rw [node_push_eq]
    split
    · exact built
    · rw [node_of_not_contains outside]
      trivial
  lasting list outside item mem := by
    have same : (t.push slot).2.list list = t.list list := rfl
    rw [same, list_of_not_contains outside] at mem
    cases mem

theorem pushList (t : Tree) (lasts : ∀ item ∈ items, (t.node item).indents = false) :
    t.Expands (t.pushList items).2 where
  toExtends := .pushList t items
  built id outside := by
    have same : (t.pushList items).2.node id = t.node id := rfl
    rw [same, node_of_not_contains outside]
    trivial
  lasting list outside item mem := by
    by_cases new : list = (t.pushList items).1
    · rw [new, list_pushList] at mem
      exact lasts item mem
    · have ne : list.index ≠ t.lists.size := fun eq => new (congrArg ListId.mk eq)
      have same : (t.pushList items).2.list list = t.list list := by
        simp [Tree.pushList, Tree.list, Array.getD_eq_getD_getElem?, Array.getElem?_push, ne]
      rw [same, list_of_not_contains outside] at mem
      cases mem

theorem evolves (expands : t.Expands t₁) : t.Evolves t₁ :=
  .of_extends expands.toExtends fun id outside => (expands.built id outside).not_markup

end Expands

/-- The second store has a node where the first has none. -/
def NewNode (t t₁ : Tree) (id : NodeId) (slot : Slot) : Prop :=
  ¬ t.Contains (.node id) ∧ t₁.node id = slot

/-- The second store has a sequence where the first has none. -/
def NewList (t t₁ : Tree) (list : ListId) (items : List NodeId) : Prop :=
  ¬ t.Contains (.list list) ∧ t₁.list list = items

/-- What the second store has over the first is still in the third, unless it is
rewritten, or indentation is taken out of it. -/
structure KeepsNew (t u v : Tree) : Prop where
  node : ∀ id slot, t.NewNode u id slot → slot.Built → slot ≠ .hole → v.node id = slot
  list : ∀ list items, t.NewList u list items → items ≠ [] →
    (∀ item ∈ items, (u.node item).indents = false) → v.list list = items

namespace KeepsNew

theorem of_extends (extended : u.Extends v) : t.KeepsNew u v where
  node id slot new _ notHole := by
    have inside : u.Contains (.node id) := contains_of_ne_hole new.2 notHole
    have same : v.node id = u.node id := extended.kept (.node id) inside
    exact same.trans new.2
  list list items new nonempty _ := by
    have inside : u.Contains (.list list) := contains_of_ne_nil new.2 nonempty
    have same : v.list list = u.list list := extended.kept (.list list) inside
    exact same.trans new.2

/-- What is overwritten is old. -/
theorem replace (keeps : t.KeepsNew u v) (inside : t.Contains (.node id)) (slot : Slot) :
    t.KeepsNew u (v.replace id slot) where
  node other slot' new built notHole := by
    have ne : other ≠ id := by
      rintro rfl
      exact new.1 inside
    rw [node_replace_of_ne ne]
    exact keeps.node other slot' new built notHole
  list := keeps.list

/-- No braces hold what is new. -/
theorem of_evolves (closed : t.Closed) (first : t.Evolves u) (second : u.Evolves v) :
    t.KeepsNew u v where
  node id slot new built notHole := by
    have inside : u.Contains (.node id) := contains_of_ne_hole new.2 notHole
    refine second.node_eq inside new.2 built.not_sugar fun held => ?_
    obtain ⟨braces, found⟩ := first.inBraces held
    exact new.1 (closed.of_mem_edges found (by simp [Node.edges]))
  list list items new nonempty lasts := by
    have inside : u.Contains (.list list) := contains_of_ne_nil new.2 nonempty
    rw [← new.2] at lasts ⊢
    exact second.list_eq inside lasts

end KeepsNew

end Tree

namespace Desugar

open JsxFactory.Tree (NewNode NewList KeepsNew Expands)

variable {options : Options} {t t₁ u v : Tree} {id name entry property tag object : NodeId}
  {attributes children : ListId} {elements : List NodeId}

/-! ## Calls for elements -/

/-- The first argument: a simple name is spelled anew, and a dotted one is taken over. -/
inductive TagFor (options : Options) (t t₁ : Tree) (name tag : NodeId) : Prop
  | simple {text : String} :
    t.node name = .jsxIdentifier text ∨ t.node name = .identifier text →
    t.NewNode t₁ tag (spelled (options.quoteIntrinsic && !Text.startsCapital text) text) →
    TagFor options t t₁ name tag
  | dotted : (t.node name).Dotted → tag = name → TagFor options t t₁ name tag

/-- The value of a property: a new `true`, or the value of the attribute itself. -/
inductive ValueFor (t t₁ : Tree) : Option NodeId → NodeId → Prop
  | absent {value : NodeId} : t.NewNode t₁ value (.literal (.boolean true)) →
    ValueFor t t₁ none value
  | present {value : NodeId} : ValueFor t t₁ (some value) value

/-- The property or the spread for an entry of a tag. -/
inductive EntryFor (options : Options) (t t₁ : Tree) (entry property : NodeId) : Prop
  | named {name key value : NodeId} {given : Option NodeId} {text : String} :
    t.node entry = .jsxAttribute name given → t.node name = .jsxIdentifier text →
    t.NewNode t₁ property (.plainProperty key value) →
    t.NewNode t₁ key (spelled options.quotePropNames text) → ValueFor t t₁ given value →
    EntryFor options t t₁ entry property
  | spread {argument : NodeId} :
    t.node entry = .jsxSpreadAttribute argument → t.NewNode t₁ property (.spread argument) →
    EntryFor options t t₁ entry property

/-- The second argument: `null` without attributes, and else an object with an entry for
each of them, in order. -/
inductive ObjectFor (options : Options) (t t₁ : Tree) (attributes : ListId) (object : NodeId) : Prop
  | none : t.list attributes = [] → t.NewNode t₁ object (.literal .null) →
    ObjectFor options t t₁ attributes object
  | entries {properties : ListId} {ids : List NodeId} :
    t.list attributes ≠ [] → t.NewNode t₁ object (.object properties) →
    t.NewList t₁ properties ids → (t.list attributes).Forall₂ (EntryFor options t t₁) ids →
    ObjectFor options t t₁ attributes object

/-- The third argument, if there are children: an array that holds their sequence. -/
inductive ChildrenFor (t t₁ : Tree) (children : ListId) : List NodeId → Prop
  | none : t.list children = [] → ChildrenFor t t₁ children []
  | array {array : NodeId} : t.list children ≠ [] → t.NewNode t₁ array (.array children) →
    ChildrenFor t t₁ children [array]

/-- In the second store there is a call of the factory function, which stands for an
element of the first. -/
inductive CallFor (options : Options) (t t₁ : Tree) (id name : NodeId)
    (attributes children : ListId) : Prop
  | intro {callee tag object : NodeId} {arguments : ListId} {elements : List NodeId} :
    t₁.node id = .call callee arguments false →
    t.NewNode t₁ callee (.identifier options.factory) →
    t.NewList t₁ arguments (tag :: object :: elements) → TagFor options t t₁ name tag →
    ObjectFor options t t₁ attributes object → ChildrenFor t t₁ children elements →
    CallFor options t t₁ id name attributes children

/-! ## Descriptions stay true -/

theorem built_spelled (quoted : Bool) (text : String) : (spelled quoted text).Built := by
  cases quoted <;> trivial

theorem spelled_ne_hole (quoted : Bool) (text : String) : spelled quoted text ≠ .hole := by
  cases quoted <;> simp [spelled, Node.text]

section Keep

variable (keeps : t.KeepsNew u v)
include keeps

theorem keep_spelled {quoted : Bool} {text : String} (new : t.NewNode u id (spelled quoted text)) :
    t.NewNode v id (spelled quoted text) :=
  ⟨new.1, keeps.node id _ new (built_spelled _ _) (spelled_ne_hole _ _)⟩

theorem TagFor.keep (here : TagFor options t u name tag) : TagFor options t v name tag := by
  cases here with
  | simple found new => exact .simple found (keep_spelled keeps new)
  | dotted found same => exact .dotted found same

theorem ValueFor.keep {given : Option NodeId} {value : NodeId} (here : ValueFor t u given value) :
    ValueFor t v given value := by
  cases here with
  | absent new => exact .absent ⟨new.1, keeps.node _ _ new trivial (by simp)⟩
  | present => exact .present

theorem EntryFor.keep (here : EntryFor options t u entry property) :
    EntryFor options t v entry property := by
  cases here with
  | named found foundName new newKey value =>
    exact .named found foundName
      ⟨new.1, keeps.node _ _ new trivial (by simp [Node.plainProperty])⟩
      (keep_spelled keeps newKey) (value.keep keeps)
  | spread found new => exact .spread found ⟨new.1, keeps.node _ _ new trivial (by simp)⟩

end Keep

/-- What stands for an entry is no indentation. -/
theorem EntryFor.lasts (here : EntryFor options t u entry property) :
    (u.node property).indents = false := by
  cases here with
  | named _ _ new => rw [new.2]; rfl
  | spread _ new => rw [new.2]; rfl

theorem lasts_of_entries {entries ids : List NodeId}
    (each : entries.Forall₂ (EntryFor options t u) ids) :
    ∀ item ∈ ids, (u.node item).indents = false := by
  induction each with
  | nil => simp
  | cons here _ ih => exact List.forall_mem_cons.mpr ⟨here.lasts, ih⟩

theorem ObjectFor.keep (keeps : t.KeepsNew u v) (here : ObjectFor options t u attributes object) :
    ObjectFor options t v attributes object := by
  cases here with
  | none empty new => exact .none empty ⟨new.1, keeps.node _ _ new trivial (by simp)⟩
  | @entries _ ids nonempty new newList each =>
    have some : ids ≠ [] := by
      rintro rfl
      exact nonempty (List.forall₂_nil_right_iff.mp each)
    have properties := keeps.list _ _ newList some (lasts_of_entries each)
    exact .entries nonempty ⟨new.1, keeps.node _ _ new trivial (by simp)⟩ ⟨newList.1, properties⟩
      (each.imp fun _ _ here => here.keep keeps)

theorem ObjectFor.lasts (here : ObjectFor options t u attributes object) :
    (u.node object).indents = false := by
  cases here with
  | none _ new | entries _ new => rw [new.2]; rfl

theorem ChildrenFor.keep (keeps : t.KeepsNew u v) (here : ChildrenFor t u children elements) :
    ChildrenFor t v children elements := by
  cases here with
  | none empty => exact .none empty
  | array nonempty new => exact .array nonempty ⟨new.1, keeps.node _ _ new trivial (by simp)⟩

theorem ChildrenFor.lasts (here : ChildrenFor t u children elements) :
    ∀ item ∈ elements, (u.node item).indents = false := by
  cases here with
  | none => simp
  | array _ new =>
    intro item mem
    rw [List.mem_singleton.mp mem, new.2]
    rfl

/-- A dotted name is no indentation now, for it was none before. -/
theorem TagFor.lasts (evolves : t.Evolves u) (here : TagFor options t u name tag) :
    (u.node tag).indents = false := by
  cases here with
  | simple _ new =>
    rw [new.2]
    exact Node.indents_eq_false_of_not_sugar (built_spelled _ _).not_sugar
  | dotted found same =>
    subst same
    refine Bool.eq_false_iff.mpr fun indents => ?_
    have before := evolves.indents indents
    cases slot : t.node tag with
    | jsxText =>
      rw [slot] at found
      exact found
    | _ =>
      rw [slot] at before
      cases before

theorem lasts_arguments (evolves : t.Evolves u) (tagFor : TagFor options t u name tag)
    (objectFor : ObjectFor options t u attributes object)
    (childrenFor : ChildrenFor t u children elements) :
    ∀ item ∈ tag :: object :: elements, (u.node item).indents = false :=
  List.forall_mem_cons.mpr ⟨tagFor.lasts evolves,
    List.forall_mem_cons.mpr ⟨objectFor.lasts, childrenFor.lasts⟩⟩

/-- While the store evolves, a call goes on to stand for its element. -/
theorem CallFor.keep (evolves : t.Evolves u) (keeps : t.KeepsNew u v)
    (same : v.node id = u.node id) (here : CallFor options t u id name attributes children) :
    CallFor options t v id name attributes children := by
  obtain ⟨call, newCallee, newArguments, tagFor, objectFor, childrenFor⟩ := here
  have lasts := lasts_arguments evolves tagFor objectFor childrenFor
  exact ⟨same.trans call, ⟨newCallee.1, keeps.node _ _ newCallee trivial (by simp)⟩,
    ⟨newArguments.1, keeps.list _ _ newArguments (by simp) lasts⟩, tagFor.keep keeps,
    objectFor.keep keeps, childrenFor.keep keeps⟩

/-! ## Entering an element -/

/-- Part of entering an element: if it succeeds, it has added something. -/
def Makes {α : Type} (x : Step α) (s : Walk.State Tally) (good : α → Tree → Prop) : Prop :=
  ∀ a s₁, x s = .ok a s₁ → s₁.memory = s.memory ∧ s.tree.Expands s₁.tree ∧ good a s₁.tree

theorem exists_of_bind_eq_ok {ε σ α β : Type} {x : EStateM ε σ α} {f : α → EStateM ε σ β} {s s₂ : σ}
    {b : β} (succeeds : (x >>= f) s = .ok b s₂) : ∃ a s₁, x s = .ok a s₁ ∧ f a s₁ = .ok b s₂ := by
  change EStateM.bind x f s = .ok b s₂ at succeeds
  rw [EStateM.bind] at succeeds
  cases ran : x s with
  | ok a s₁ =>
    rw [ran] at succeeds
    exact ⟨a, s₁, rfl, succeeds⟩
  | error =>
    rw [ran] at succeeds
    cases succeeds

namespace Makes

variable {α β : Type} {s : Walk.State Tally} {x : Step α} {f : α → Step β} {mid : α → Tree → Prop}
  {good : β → Tree → Prop}

theorem bind (first : Makes x s mid)
    (next : ∀ a s₁, s.tree.Expands s₁.tree → mid a s₁.tree → Makes (f a) s₁ good) :
    Makes (x >>= f) s good := by
  intro b s₂ succeeds
  obtain ⟨a, s₁, ran, succeeds⟩ := exists_of_bind_eq_ok succeeds
  obtain ⟨memory, expands, here⟩ := first a s₁ ran
  obtain ⟨memory', expands', there⟩ := next a s₁ expands here b s₂ succeeds
  exact ⟨memory'.trans memory, expands.trans expands', there⟩

theorem mono {good : α → Tree → Prop} (makes : Makes x s mid)
    (imp : ∀ a t₁, s.tree.Expands t₁ → mid a t₁ → good a t₁) : Makes x s good := by
  intro a s₁ succeeds
  obtain ⟨memory, expands, here⟩ := makes a s₁ succeeds
  exact ⟨memory, expands, imp a s₁.tree expands here⟩

/-- Looking at the tree adds nothing. -/
theorem look {f : Tree → Step β} (rest : Makes (f s.tree) s good) :
    Makes (Walk.tree >>= f) s good :=
  rest

theorem pure {b : β} (here : good b s.tree) : Makes (Pure.pure b) s good := by
  rintro _ _ ⟨⟩
  exact ⟨rfl, .refl _, here⟩

theorem throw {e : DesugarError} : Makes (MonadExcept.throw e : Step β) s good := by
  rintro _ _ ⟨⟩

theorem push (expands : t.Expands s.tree) {slot : Slot} (built : slot.Built) :
    Makes (Desugar.push slot) s (fun id t₁ => t.NewNode t₁ id slot) := by
  rintro _ _ ⟨⟩
  exact ⟨rfl, .push _ built, Nat.not_lt.mpr expands.nodes_le, Tree.node_push ..⟩

theorem pushList (expands : t.Expands s.tree) {items : List NodeId}
    (lasts : ∀ item ∈ items, (s.tree.node item).indents = false) :
    Makes (Desugar.pushList items) s (fun list t₁ => t.NewList t₁ list items) := by
  rintro _ _ ⟨⟩
  exact ⟨rfl, .pushList _ lasts, Nat.not_lt.mpr expands.lists_le, Tree.list_pushList ..⟩

end Makes

variable {s : Walk.State Tally}

theorem tagName_makes (options : Options) (name : NodeId) :
    Makes (tagName options name) s (fun tag t₁ => TagFor options s.tree t₁ name tag) := by
  refine Makes.look ?_
  cases found : s.tree.node name with
  | jsxIdentifier text =>
    exact (Makes.push (.refl _) (built_spelled _ _)).mono fun _ _ _ new => .simple (.inl found) new
  | identifier text =>
    exact (Makes.push (.refl _) (built_spelled _ _)).mono fun _ _ _ new => .simple (.inr found) new
  | jsxMember | member => exact Makes.pure (.dotted (by rw [found]; trivial) rfl)
  | _ => exact Makes.throw

theorem attributeValue_makes (expands : t.Expands s.tree) (given : Option NodeId) :
    Makes (attributeValue given) s (fun value t₁ => ValueFor t t₁ given value) := by
  cases given with
  | none =>
    have built : (Node.literal (.boolean true) : Slot).Built := trivial
    exact (Makes.push expands built).mono fun _ _ _ new => .absent new
  | some given =>
    refine Makes.look ?_
    cases s.tree.node given with
    | literal | jsxContainer => exact Makes.pure .present
    | _ => exact Makes.throw

/-- Markup is old, so what an entry was in the first store can be read off now. -/
theorem entryProperty_makes (expands : t.Expands s.tree) (options : Options) (entry : NodeId) :
    Makes (entryProperty options entry) s
      (fun property t₁ => EntryFor options t t₁ entry property) := by
  have old : ∀ {id slot}, s.tree.node id = slot → slot.Markup → t.node id = slot := by
    rintro id _ rfl markup
    exact (expands.evolves.markup id markup).symm
  refine Makes.look ?_
  cases found : s.tree.node entry with
  | jsxAttribute name given =>
    refine Makes.look ?_
    cases foundName : s.tree.node name with
    | jsxIdentifier text =>
      refine (Makes.push expands (built_spelled options.quotePropNames text)).bind
        fun key s₁ expands₁ newKey => ?_
      refine (attributeValue_makes (expands.trans expands₁) given).bind
        fun value s₂ expands₂ valueFor => ?_
      have built : (Node.plainProperty key value : Slot).Built := trivial
      refine (Makes.push ((expands.trans expands₁).trans expands₂) built).mono
        fun property t₃ expands₃ new => ?_
      have keeps₂ : t.KeepsNew s₂.tree t₃ := .of_extends expands₃.toExtends
      have keeps₁ : t.KeepsNew s₁.tree t₃ := .of_extends (expands₂.trans expands₃).toExtends
      exact .named (old found trivial) (old foundName trivial) new (keep_spelled keeps₁ newKey)
        (valueFor.keep keeps₂)
    | _ => exact Makes.throw
  | jsxSpreadAttribute argument =>
    have built : (Node.spread argument : Slot).Built := trivial
    exact (Makes.push expands built).mono fun _ _ _ new => .spread (old found trivial) new
  | _ => exact Makes.throw

theorem entryProperties_makes (expands : t.Expands s.tree) (options : Options)
    (entries : List NodeId) :
    Makes (entryProperties options entries) s
      (fun properties t₁ => entries.Forall₂ (EntryFor options t t₁) properties) := by
  induction entries generalizing s with
  | nil => exact Makes.pure .nil
  | cons entry rest ih =>
    refine (entryProperty_makes expands options entry).bind fun first s₁ expands₁ here => ?_
    refine (ih (expands.trans expands₁)).bind fun others s₂ expands₂ each => ?_
    have keeps : t.KeepsNew s₁.tree s₂.tree := .of_extends expands₂.toExtends
    exact Makes.pure (.cons (here.keep keeps) each)

theorem attributesArgument_makes (expands : t.Expands s.tree)
    (same : s.tree.list attributes = t.list attributes) (options : Options) :
    Makes (attributesArgument options attributes) s
      (fun object t₁ => ObjectFor options t t₁ attributes object) := by
  refine Makes.look ?_
  rw [same]
  cases found : t.list attributes with
  | nil =>
    have built : (Node.literal .null : Slot).Built := trivial
    exact (Makes.push expands built).mono fun _ _ _ new => .none found new
  | cons entry rest =>
    refine (entryProperties_makes expands options (entry :: rest)).bind
      fun ids s₁ expands₁ each => ?_
    have expands₁' := expands.trans expands₁
    refine (Makes.pushList expands₁' (lasts_of_entries each)).bind
      fun properties s₂ expands₂ newList => ?_
    have built : (Node.object properties : Slot).Built := trivial
    have keeps₁ : t.KeepsNew s₁.tree s₂.tree := .of_extends expands₂.toExtends
    have each₂ := each.imp fun _ _ here => here.keep keeps₁
    have some : ids ≠ [] := by
      rintro rfl
      cases each
    refine (Makes.push (expands₁'.trans expands₂) built).mono fun object t₃ expands₃ new => ?_
    have keeps₂ : t.KeepsNew s₂.tree t₃ := .of_extends expands₃.toExtends
    have kept := keeps₂.list properties ids newList some (lasts_of_entries each₂)
    refine .entries (by simp [found]) new ⟨newList.1, kept⟩ ?_
    rw [found]
    exact each₂.imp fun _ _ here => here.keep keeps₂

theorem childrenArgument_makes (expands : t.Expands s.tree)
    (same : s.tree.list children = t.list children) :
    Makes (childrenArgument children) s
      (fun elements t₁ => ChildrenFor t t₁ children elements) := by
  refine Makes.look ?_
  rw [same]
  cases found : t.list children with
  | nil => exact Makes.pure (.none found)
  | cons child rest =>
    have built : (Node.array children : Slot).Built := trivial
    refine (Makes.push expands built).bind fun array s₁ _ new => ?_
    exact Makes.pure (.array (by simp [found]) new)

/-- An element that was entered is a call: first the parts of the call were added, and
then the call was put in the place of the element. -/
theorem enterElement_ok {s' : Walk.State Tally} {action : Walk.Action} {selfClosing : Bool}
    (contains : s.tree.Contains (.node id))
    (inside : ∀ place ∈ (Node.jsxElement name attributes children selfClosing : Slot).edges,
      s.tree.Contains place)
    (succeeds : enterElement options id name attributes children s = .ok action s') :
    action = .continue ∧ s'.memory = { s.memory with elements := s.memory.elements + 1 } ∧
      ∃ t₀ callee arguments, s.tree.Expands t₀ ∧
        s'.tree = t₀.replace id (.call callee arguments false) ∧
        CallFor options s.tree s'.tree id name attributes children := by
  obtain ⟨tag, s₁, ran, succeeds⟩ := exists_of_bind_eq_ok succeeds
  obtain ⟨memory₁, expands₁, tagFor⟩ := tagName_makes options name tag s₁ ran
  obtain ⟨object, s₂, ran, succeeds⟩ := exists_of_bind_eq_ok succeeds
  have same₁ : s₁.tree.list attributes = s.tree.list attributes :=
    expands₁.kept (.list attributes) (inside _ (by simp [Node.edges]))
  obtain ⟨memory₂, expands₂, objectFor⟩ :=
    attributesArgument_makes expands₁ same₁ options object s₂ ran
  obtain ⟨elements, s₃, ran, succeeds⟩ := exists_of_bind_eq_ok succeeds
  have expands₂' := expands₁.trans expands₂
  have same₂ : s₂.tree.list children = s.tree.list children :=
    expands₂'.kept (.list children) (inside _ (by simp [Node.edges]))
  obtain ⟨memory₃, expands₃, childrenFor⟩ :=
    childrenArgument_makes expands₂' same₂ elements s₃ ran
  obtain ⟨callee, s₄, ran, succeeds⟩ := exists_of_bind_eq_ok succeeds
  have expands₃' := expands₂'.trans expands₃
  have built : (Node.identifier options.factory : Slot).Built := trivial
  obtain ⟨memory₄, expands₄, newCallee⟩ := Makes.push expands₃' built callee s₄ ran
  obtain ⟨arguments, s₅, ran, succeeds⟩ := exists_of_bind_eq_ok succeeds
  -- The arguments stand where they were made when their sequence is added.
  have expands₄' := expands₃'.trans expands₄
  have tagFor₄ := tagFor.keep
    (.of_extends ((expands₂.trans expands₃).trans expands₄).toExtends : s.tree.KeepsNew _ _)
  have objectFor₄ := objectFor.keep (.of_extends (expands₃.trans expands₄).toExtends)
  have childrenFor₄ := childrenFor.keep (.of_extends expands₄.toExtends)
  have lasts := lasts_arguments expands₄'.evolves tagFor₄ objectFor₄ childrenFor₄
  obtain ⟨memory₅, expands₅, newArguments⟩ := Makes.pushList expands₄' lasts arguments s₅ ran
  have expands₅' := expands₄'.trans expands₅
  have memory : s₅.memory = s.memory := by rw [memory₅, memory₄, memory₃, memory₂, memory₁]
  cases succeeds
  refine ⟨rfl, ?_, s₅.tree, callee, arguments, expands₅', rfl, ?_⟩
  · rw [← memory]
  · have keeps : s.tree.KeepsNew s₄.tree (s₅.tree.replace id (.call callee arguments false)) :=
      (KeepsNew.of_extends expands₅.toExtends).replace contains _
    exact .intro (Tree.node_replace (expands₅'.contains contains) _)
      ⟨newCallee.1, keeps.node _ _ newCallee trivial (by simp)⟩ newArguments (tagFor₄.keep keeps)
      (objectFor₄.keep keeps) (childrenFor₄.keep keeps)

end Desugar

end JsxFactory
