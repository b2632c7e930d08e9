/-
# What entering a node does to what is below it

Entering a node that stays leaves other places below it than before. In most cases they
are the same ones. Braces give way to the expression in them, so the place of the
expression is no longer there. Below an element that became a call there are new places
and old ones. All that is lost on the way is inert, and so is all that is new: no
element, no call, no text, and no sequence with indentation in it. So elements, calls
and texts can be followed through the walk from place to place.
-/

import JsxFactory.Proofs.Calls

namespace JsxFactory

namespace Node

variable {α β : Type}

/-- Whether a node is an element. -/
def isElement : Node α β → Bool
  | .jsxElement .. => true
  | _ => false

/-- Whether a node is neither an element nor a call nor a text. -/
def Inert : Node α β → Prop
  | .jsxElement .. | .call .. | .jsxText _ => False
  | _ => True

theorem edges_jsxAttribute (name : α) (value : Option α) :
    (jsxAttribute name value : Node α β).edges = .node name :: value.toList.map .node := by
  cases value <;> rfl

theorem Built.inert {node : Node α β} (built : node.Built) : node.Inert := by
  cases node with
  | hole | identifier | literal | property | spread | object | array => trivial
  | _ => exact built.elim

theorem Inert.indents {node : Node α β} (inert : node.Inert) : node.indents = false := by
  cases node with
  | jsxText => exact inert.elim
  | _ => rfl

end Node

namespace Tree

open Relation (ReflTransGen)

variable {t t₁ : Tree} {places footprint footprint' : List Place} {parts parts' : List Part}

/-- What is represented at places is represented on one footprint. -/
theorem Represents.footprint_eq (represents : t.Represents places parts footprint)
    (represents' : t.Represents places parts' footprint') : footprint' = footprint := by
  induction represents generalizing parts' footprint' with
  | nil =>
    cases represents'
    rfl
  | node _ _ ihBelow ihRest =>
    cases represents' with
    | node below rest => rw [ihBelow below, ihRest rest]
  | list _ _ ihBelow ihRest =>
    cases represents' with
    | list below rest => rw [ihBelow below, ihRest rest]

/-- What is on a footprint is reached from one of the places that it starts from. -/
theorem Represents.exists_reached_of_mem (represents : t.Represents places parts footprint)
    {place : Place} (mem : place ∈ footprint) :
    ∃ start ∈ places, ReflTransGen t.Holds start place := by
  induction represents with
  | nil => cases mem
  | @node id _ _ _ _ _ _ _ ihBelow ihRest =>
    simp only [List.mem_cons, List.mem_append] at mem
    obtain rfl | mem | mem := mem
    · exact ⟨_, List.mem_cons_self, .refl⟩
    · obtain ⟨start, holds, reached⟩ := ihBelow mem
      exact ⟨_, List.mem_cons_self, .head holds reached⟩
    · obtain ⟨start, memPlaces, reached⟩ := ihRest mem
      exact ⟨start, List.mem_cons_of_mem _ memPlaces, reached⟩
  | @list id _ _ _ _ _ _ _ ihBelow ihRest =>
    simp only [List.mem_cons, List.mem_append] at mem
    obtain rfl | mem | mem := mem
    · exact ⟨_, List.mem_cons_self, .refl⟩
    · obtain ⟨start, holds, reached⟩ := ihBelow mem
      exact ⟨_, List.mem_cons_self, .head holds reached⟩
    · obtain ⟨start, memPlaces, reached⟩ := ihRest mem
      exact ⟨start, List.mem_cons_of_mem _ memPlaces, reached⟩

/-- From a place that holds nothing, nothing else is reached. -/
theorem eq_of_reached {start place : Place} (childless : t.below start = [])
    (reached : ReflTransGen t.Holds start place) : place = start := by
  obtain rfl | ⟨held, holds, _⟩ := reached.cases_head
  · rfl
  · rw [Holds, childless] at holds
    cases holds

/-- Whether there is no element, call or text at a place, and no indentation in it. -/
def InertAt (t : Tree) : Place → Prop
  | .node id => (t.node id).Inert
  | .list id => ∀ item ∈ t.list id, (t.node item).indents = false

end Tree

namespace Desugar

open Relation (ReflTransGen)
open JsxFactory.Tree (Expands Represents Rebuilds Owns)

variable {options : Options} {t t₁ : Tree} {id : NodeId} {below below₁ : List Place}

/-! ## Entering a node that stays -/

/-- What entering a node that stays does to the store. -/
inductive Enters (options : Options) (t : Tree) (id : NodeId) : Tree → Prop
  | plain : (t.node id).Plain → Enters options t id t
  | text {value : String} : t.node id = .jsxText value → Text.isIndentation value = false →
    Enters options t id (t.replace id (.text (Text.trim value)))
  | name {name : String} : t.node id = .jsxIdentifier name →
    Enters options t id (t.replace id (.identifier name))
  | member {object property : NodeId} : t.node id = .jsxMember object property →
    Enters options t id (t.replace id (.member object property false false))
  | container {expression : NodeId} : t.node id = .jsxContainer expression →
    (t.node expression).kind ∈ bareKinds →
    Enters options t id ((t.replace expression .hole).replace id (t.node expression))
  | element {name callee : NodeId} {attributes children arguments : ListId} {selfClosing : Bool}
      {t₀ : Tree} :
    t.node id = .jsxElement name attributes children selfClosing → t.Expands t₀ →
    CallFor options t (t₀.replace id (.call callee arguments false)) id name attributes children →
    Enters options t id (t₀.replace id (.call callee arguments false))

/-- What entering a node counts. -/
def counted (slot : Slot) (tally : Tally) : Tally where
  elements := tally.elements + if slot.isElement then 1 else 0
  removedText := tally.removedText + if slot.indents then 1 else 0

theorem counted_of_inert {slot : Slot} (notElement : slot.isElement = false)
    (lasts : slot.indents = false) (tally : Tally) : counted slot tally = tally := by
  simp [counted, notElement, lasts]

/-- A node that was entered stays, or is indentation and is to be taken out. -/
theorem enter_ok {s s' : Walk.State Tally} {action : Walk.Action}
    (contains : s.tree.Contains (.node id))
    (inside : ∀ place ∈ (s.tree.node id).edges, s.tree.Contains place)
    (succeeds : enter options id s = .ok action s') :
    s'.memory = counted (s.tree.node id) s.memory ∧
      (action = .remove ∧ (s.tree.node id).indents = true ∧ s'.tree = s.tree ∨
        action = .continue ∧ (s.tree.node id).indents = false ∧
          Enters options s.tree id s'.tree) := by
  rw [enter, tree_bind] at succeeds
  cases found : s.tree.node id with
  | jsxText value =>
    simp only [found, enterText] at succeeds
    cases indents : Text.isIndentation value with
    | true =>
      rw [if_pos indents] at succeeds
      cases succeeds
      exact ⟨by simp [counted, Node.isElement, Node.indents, indents], .inl ⟨rfl, indents, rfl⟩⟩
    | false =>
      rw [if_neg (by simp [indents])] at succeeds
      cases succeeds
      have lasts : (Node.jsxText value : Slot).indents = false := indents
      exact ⟨(counted_of_inert rfl lasts _).symm, .inr ⟨rfl, indents, .text found indents⟩⟩
  | jsxContainer expression =>
    simp only [found, enterContainer] at succeeds
    rw [tree_bind] at succeeds
    by_cases bare : (s.tree.node expression).kind ∈ bareKinds
    · rw [if_pos bare] at succeeds
      cases succeeds
      exact ⟨(counted_of_inert rfl rfl _).symm, .inr ⟨rfl, rfl, .container found bare⟩⟩
    · rw [if_neg bare] at succeeds
      cases succeeds
  | jsxElement name attributes children selfClosing =>
    simp only [found] at succeeds inside
    obtain ⟨rfl, memory, t₀, callee, arguments, expands, same, callFor⟩ :=
      enterElement_ok contains inside succeeds
    rw [same] at callFor ⊢
    exact ⟨memory, .inr ⟨rfl, rfl, .element found expands callFor⟩⟩
  | jsxIdentifier name =>
    rw [found] at succeeds
    cases succeeds
    exact ⟨(counted_of_inert rfl rfl _).symm, .inr ⟨rfl, rfl, .name found⟩⟩
  | jsxMember object property =>
    rw [found] at succeeds
    cases succeeds
    exact ⟨(counted_of_inert rfl rfl _).symm, .inr ⟨rfl, rfl, .member found⟩⟩
  | generic kind fields =>
    simp only [found] at succeeds
    by_cases fragment : kind = "JSXFragment"
    · rw [if_pos fragment] at succeeds
      cases succeeds
    · rw [if_neg fragment] at succeeds
      cases succeeds
      exact ⟨(counted_of_inert rfl rfl _).symm, .inr ⟨rfl, rfl, .plain (found ▸ fragment)⟩⟩
  | jsxAttribute name value =>
    rw [found] at succeeds
    cases succeeds
    have plain : (Node.jsxAttribute name value : Slot).Plain := by cases value <;> trivial
    exact ⟨(counted_of_inert rfl rfl _).symm, .inr ⟨rfl, rfl, .plain (found ▸ plain)⟩⟩
  | _ =>
    rw [found] at succeeds
    cases succeeds
    exact ⟨(counted_of_inert rfl rfl _).symm, .inr ⟨rfl, rfl, .plain (found ▸ trivial)⟩⟩

namespace Enters

theorem evolves (enters : Enters options t id t₁) : t.Evolves t₁ := by
  cases enters with
  | plain => exact .refl t
  | text found _ | name found | member found =>
    exact .replace (by rw [found]; trivial) (by simp [Node.text, Node.Markup])
  | container found bare => exact .move found bare
  | @element _ _ _ _ _ _ t₀ found expands _ =>
    have sugar : (t.node id).Sugar := by rw [found]; trivial
    have same : t₀.node id = t.node id := expands.kept (.node id) (Tree.contains_of_sugar sugar)
    exact expands.evolves.trans (.replace (same ▸ sugar) (by simp [Node.Markup]))

theorem exists_of_element {name : NodeId} {attributes children : ListId} {selfClosing : Bool}
    (enters : Enters options t id t₁)
    (found : t.node id = .jsxElement name attributes children selfClosing) :
    ∃ t₀ callee arguments, t.Expands t₀ ∧ t₁ = t₀.replace id (.call callee arguments false) ∧
      CallFor options t t₁ id name attributes children := by
  cases enters with
  | plain plain =>
    rw [found] at plain
    exact plain.elim
  | text found' | name found' | member found' | container found' => cases found.symm.trans found'
  | element found' expands callFor =>
    cases found.symm.trans found'
    exact ⟨_, _, _, expands, rfl, callFor⟩

end Enters

/-! ## The places below a node that was entered -/

theorem exists_property_of_mem {entries ids : List NodeId}
    (each : entries.Forall₂ (EntryFor options t t₁) ids) {entry : NodeId} (mem : entry ∈ entries) :
    ∃ property ∈ ids, EntryFor options t t₁ entry property := by
  induction each with
  | nil => cases mem
  | cons here _ ih =>
    obtain rfl | mem := List.mem_cons.mp mem
    · exact ⟨_, List.mem_cons_self, here⟩
    · obtain ⟨property, memIds, there⟩ := ih mem
      exact ⟨property, List.mem_cons_of_mem _ memIds, there⟩

theorem EntryFor.inert {entry property : NodeId} (here : EntryFor options t t₁ entry property) :
    (t.node entry).Inert := by
  cases here with
  | named found => rw [found]; trivial
  | spread found => rw [found]; trivial

/-- A node that stays was entered in an owned tree, with these places below it before and
after. -/
structure Entered (options : Options) (t : Tree) (id : NodeId) (below : List Place) (t₁ : Tree)
    (below₁ : List Place) : Prop where
  enters : Enters options t id t₁
  contains : t.Contains (.node id)
  outside : .node id ∉ below
  owns : ∃ parts, t.Owns (t.node id).edges parts below
  represents : ∃ parts, t₁.Represents (t₁.node id).edges parts below₁
  rebuilds : t.Rebuilds t₁ (.node id :: below) (.node id :: below₁)

namespace Entered

variable (entered : Entered options t id below t₁ below₁)
include entered

theorem outside₁ : .node id ∉ below₁ :=
  (List.nodup_cons.mp entered.rebuilds.nodup).1

theorem owns₁ : ∃ parts, t₁.Owns (t₁.node id).edges parts below₁ := by
  obtain ⟨parts, represents⟩ := entered.represents
  exact ⟨parts, represents, (List.nodup_cons.mp entered.rebuilds.nodup).2, fun place mem =>
    entered.rebuilds.inside place (List.mem_cons_of_mem _ mem)⟩

/-- Old places below the node after it was entered were below it before. -/
theorem mem_below {place : Place} (mem : place ∈ below₁) (inside : t.Contains place) :
    place ∈ below := by
  have source := entered.rebuilds.source place (List.mem_cons_of_mem _ mem)
  obtain here | mem' := List.mem_cons.mp (source.resolve_right fun new => new inside)
  · exact absurd (here ▸ mem) entered.outside₁
  · exact mem'

/-- Overwriting the node leaves what is below it alone. -/
theorem sameAt_replace {slot : Slot} (same : t₁ = t.replace id slot) :
    ∀ place ∈ below, t.SameAt t₁ place := by
  obtain ⟨_, owns⟩ := entered.owns
  intro place mem
  rw [same]
  refine (Tree.rebuilds_replace entered.contains slot).kept place (owns.inside place mem) ?_
  rw [List.mem_singleton]
  rintro rfl
  exact entered.outside mem

theorem below_eq (edges : (t₁.node id).edges = (t.node id).edges)
    (same : ∀ place ∈ below, t.SameAt t₁ place) : below₁ = below := by
  obtain ⟨_, owns⟩ := entered.owns
  obtain ⟨_, represents⟩ := entered.represents
  rw [edges] at represents
  exact (owns.represents.frame same).footprint_eq represents

/-- Below most nodes nothing changes. -/
theorem below_eq_of_quiet (notElement : (t.node id).isElement = false)
    (notBraces : ∀ expression, t.node id ≠ .jsxContainer expression) :
    below₁ = below ∧ ∀ place ∈ below, t.SameAt t₁ place := by
  have of_replace : ∀ {slot : Slot}, t₁ = t.replace id slot → slot.edges = (t.node id).edges →
      below₁ = below ∧ ∀ place ∈ below, t.SameAt t₁ place := by
    intro slot same edges
    have here : t₁.node id = slot := by rw [same, Tree.node_replace entered.contains]
    have sameAt := entered.sameAt_replace same
    exact ⟨entered.below_eq (by rw [here, edges]) sameAt, sameAt⟩
  cases entered.enters with
  | plain =>
    have sameAt : ∀ place ∈ below, t.SameAt t place := fun place _ => by cases place <;> rfl
    exact ⟨entered.below_eq rfl sameAt, sameAt⟩
  | text found _ | name found | member found =>
    exact of_replace rfl (by rw [found]; rfl)
  | container found => exact absurd found (notBraces _)
  | element found =>
    rw [found] at notElement
    cases notElement

/-- Braces give way to their expression, and what is below that is not changed. -/
theorem below_eq_of_braces {expression : NodeId} (found : t.node id = .jsxContainer expression) :
    (t.node expression).kind ∈ bareKinds ∧ t₁.node id = t.node expression ∧
      below = .node expression :: below₁ ∧ ∀ place ∈ below₁, t.SameAt t₁ place := by
  obtain ⟨parts, owns⟩ := entered.owns
  obtain ⟨_, represents⟩ := entered.represents
  cases entered.enters with
  | plain plain =>
    rw [found] at plain
    exact plain.elim
  | text found' | name found' | member found' | element found' => cases found.symm.trans found'
  | container found' bare =>
    cases found.symm.trans found'
    rw [found] at owns
    -- Braces hold one place, so what is below them is the expression and what is below that.
    obtain ⟨part, _, first, rest, rfl, rfl, ownsFirst, none, _⟩ := owns.uncons
    cases none.represents
    rw [List.append_nil] at entered ⊢
    obtain ⟨_, inner, rfl, rfl, contains, unheld, ownsInner⟩ := Owns.node_iff.mp ownsFirst
    have hole := Tree.rebuilds_replace contains .hole
    have here : ((t.replace expression .hole).replace id (t.node expression)).node id =
      t.node expression := Tree.node_replace (hole.contains entered.contains) _
    -- Neither of the two places that change is below the expression.
    have sameAt : ∀ place ∈ inner,
        t.SameAt ((t.replace expression .hole).replace id (t.node expression)) place := by
      intro place mem
      have inside := ownsInner.inside place mem
      have moved := Tree.rebuilds_replace (hole.contains entered.contains) (t.node expression)
      refine (hole.kept place inside ?_).trans (moved.kept place (hole.contains inside) ?_)
      · rw [List.mem_singleton]
        rintro rfl
        exact unheld mem
      · rw [List.mem_singleton]
        rintro rfl
        exact entered.outside (List.mem_cons_of_mem _ mem)
    rw [here] at represents
    obtain rfl := (ownsInner.represents.frame sameAt).footprint_eq represents
    exact ⟨bare, here, rfl, sameAt⟩

/-- The places that an element held and those below its call: all that is on both sides
is the same. -/
theorem sameAt_of_element {name : NodeId} {attributes children : ListId} {selfClosing : Bool}
    (found : t.node id = .jsxElement name attributes children selfClosing) {place : Place}
    (inside : t.Contains place) (ne : place ≠ .node id) : t.SameAt t₁ place := by
  obtain ⟨t₀, callee, arguments, expands, rfl, _⟩ := entered.enters.exists_of_element found
  have changed := Tree.rebuilds_replace (expands.contains entered.contains)
    (.call callee arguments false)
  refine (expands.kept place inside).trans (changed.kept place (expands.contains inside) ?_)
  rw [List.mem_singleton]
  exact ne

/-- An old place below the node is the same after it was entered. -/
theorem sameAt {place : Place} (mem : place ∈ below₁) (inside : t.Contains place) :
    t.SameAt t₁ place := by
  have memBelow := entered.mem_below mem inside
  cases found : t.node id with
  | jsxElement =>
    refine entered.sameAt_of_element found inside ?_
    rintro rfl
    exact entered.outside memBelow
  | jsxContainer => exact (entered.below_eq_of_braces found).2.2.2 place mem
  | _ => exact (entered.below_eq_of_quiet (by rw [found]; rfl) (by simp [found])).2 place memBelow

/-- A new place below the node is inert. -/
theorem inertAt_of_new {place : Place} (mem : place ∈ below₁) (new : ¬ t.Contains place) :
    t₁.InertAt place := by
  obtain ⟨_, owns⟩ := entered.owns
  cases found : t.node id with
  | jsxElement =>
    obtain ⟨t₀, callee, arguments, expands, rfl, _⟩ := entered.enters.exists_of_element found
    cases place with
    | node other =>
      have ne : other ≠ id := by
        rintro rfl
        exact new entered.contains
      rw [Tree.InertAt, Tree.node_replace_of_ne ne]
      exact (expands.built other new).inert
    | list list =>
      intro item memItem
      have lasts := expands.lasting list new item memItem
      by_cases same : item = id
      · rw [same, Tree.node_replace (expands.contains entered.contains)]
        rfl
      · rw [Tree.node_replace_of_ne same]
        exact lasts
  | jsxContainer =>
    rw [(entered.below_eq_of_braces found).2.2.1] at owns
    exact absurd (owns.inside place (List.mem_cons_of_mem _ mem)) new
  | _ =>
    have same := (entered.below_eq_of_quiet (by rw [found]; rfl) (by simp [found])).1
    exact absurd (owns.inside place (same ▸ mem)) new

/-- What an old place below the node reaches is below it too. -/
theorem mem_of_reached {start place : Place} (memBelow : start ∈ below) (mem : start ∈ below₁)
    (reached : ReflTransGen t.Holds start place) : place ∈ below₁ := by
  obtain ⟨_, owns⟩ := entered.owns
  obtain ⟨_, represents⟩ := entered.represents
  have both : place ∈ below ∧ place ∈ below₁ := by
    induction reached with
    | refl => exact ⟨memBelow, mem⟩
    | @tail holder held _ holds ih =>
      have same := entered.sameAt ih.2 (owns.inside holder ih.1)
      refine ⟨owns.represents.mem_of_holds ih.1 holds, represents.mem_of_holds ih.2 ?_⟩
      rw [Tree.Holds, Tree.below_eq_of_sameAt same]
      exact holds
  exact both.2

theorem mem_of_holds₁ {holder held : Place} (mem : holder ∈ below₁) (holds : t₁.Holds holder held) :
    held ∈ below₁ := by
  obtain ⟨_, represents⟩ := entered.represents
  exact represents.mem_of_holds mem holds

theorem mem_of_node₁ {holder : NodeId} {slot : Slot} (mem : .node holder ∈ below₁)
    (found : t₁.node holder = slot) {held : Place} (holds : held ∈ slot.edges) : held ∈ below₁ := by
  refine entered.mem_of_holds₁ mem ?_
  rw [Tree.Holds, Tree.below, found]
  exact holds

theorem mem_of_list₁ {list : ListId} {items : List NodeId} (mem : .list list ∈ below₁)
    (found : t₁.list list = items) {item : NodeId} (memItem : item ∈ items) :
    .node item ∈ below₁ := by
  refine entered.mem_of_holds₁ mem ?_
  rw [Tree.Holds, Tree.below, found]
  exact List.mem_map_of_mem memItem

/-- The name of an element is taken over, or it is inert and holds nothing. -/
theorem inertAt_of_name {name tag : NodeId} {place : Place} (memBelow : .node name ∈ below)
    (tagFor : TagFor options t t₁ name tag) (memTag : .node tag ∈ below₁)
    (reached : ReflTransGen t.Holds (.node name) place) (lost : place ∉ below₁) :
    t.InertAt place := by
  cases tagFor with
  | simple found _ =>
    have childless : t.below (.node name) = [] := by
      obtain found | found := found <;> rw [Tree.below, found] <;> rfl
    obtain rfl := Tree.eq_of_reached childless reached
    obtain found | found := found <;> rw [Tree.InertAt, found] <;> trivial
  | dotted _ same => exact absurd (entered.mem_of_reached memBelow (same ▸ memTag) reached) lost

/-- The sequence of the children is taken over, or there are none. -/
theorem inertAt_of_children {children : ListId} {elements : List NodeId} {place : Place}
    (memBelow : .list children ∈ below) (childrenFor : ChildrenFor t t₁ children elements)
    (memElements : ∀ element ∈ elements, .node element ∈ below₁)
    (reached : ReflTransGen t.Holds (.list children) place) (lost : place ∉ below₁) :
    t.InertAt place := by
  cases childrenFor with
  | none empty =>
    obtain rfl := Tree.eq_of_reached (by rw [Tree.below, empty]; rfl) reached
    rw [Tree.InertAt, empty]
    simp
  | array _ new =>
    have mem : .list children ∈ below₁ :=
      entered.mem_of_node₁ (memElements _ List.mem_cons_self) new.2 (by simp [Node.edges])
    exact absurd (entered.mem_of_reached memBelow mem reached) lost

/-- Of an entry only the node itself and its key are not taken over. -/
theorem inertAt_of_entry {entry property : NodeId} {place : Place} (memBelow : .node entry ∈ below)
    (entryFor : EntryFor options t t₁ entry property) (memProperty : .node property ∈ below₁)
    (reached : ReflTransGen t.Holds (.node entry) place) (lost : place ∉ below₁) :
    t.InertAt place := by
  obtain ⟨_, owns⟩ := entered.owns
  obtain rfl | ⟨held, holds, reached⟩ := reached.cases_head
  · exact entryFor.inert
  · have memHeld := owns.represents.mem_of_holds memBelow holds
    cases entryFor with
    | @spread argument found new =>
      rw [Tree.Holds, Tree.below, found] at holds
      obtain rfl := List.mem_singleton.mp holds
      have mem : .node argument ∈ below₁ :=
        entered.mem_of_node₁ memProperty new.2 (by simp [Node.edges])
      exact absurd (entered.mem_of_reached memHeld mem reached) lost
    | @named name key value given text found foundName new newKey valueFor =>
      rw [Tree.Holds, Tree.below, found, Node.edges_jsxAttribute] at holds
      obtain rfl | holds := List.mem_cons.mp holds
      · obtain rfl := Tree.eq_of_reached (by rw [Tree.below, foundName]; rfl) reached
        rw [Tree.InertAt, foundName]
        trivial
      · cases valueFor with
        | absent => cases holds
        | present =>
          obtain rfl := List.mem_singleton.mp holds
          have mem : .node value ∈ below₁ :=
            entered.mem_of_node₁ memProperty new.2 (by simp [Node.plainProperty, Node.edges])
          exact absurd (entered.mem_of_reached memHeld mem reached) lost

/-- The sequence of the attributes is not taken over, but it holds no indentation. -/
theorem inertAt_of_attributes {attributes : ListId} {object : NodeId} {place : Place}
    (memBelow : .list attributes ∈ below) (objectFor : ObjectFor options t t₁ attributes object)
    (memObject : .node object ∈ below₁)
    (reached : ReflTransGen t.Holds (.list attributes) place) (lost : place ∉ below₁) :
    t.InertAt place := by
  obtain ⟨_, owns⟩ := entered.owns
  cases objectFor with
  | none empty _ =>
    obtain rfl := Tree.eq_of_reached (by rw [Tree.below, empty]; rfl) reached
    rw [Tree.InertAt, empty]
    simp
  | @entries properties ids _ new newList each =>
    obtain rfl | ⟨held, holds, reached⟩ := reached.cases_head
    · intro entry memEntry
      obtain ⟨property, _, entryFor⟩ := exists_property_of_mem each memEntry
      exact entryFor.inert.indents
    · have memHeld := owns.represents.mem_of_holds memBelow holds
      obtain ⟨entry, memEntry, rfl⟩ := List.mem_map.mp holds
      obtain ⟨property, memIds, entryFor⟩ := exists_property_of_mem each memEntry
      have memProperties : .list properties ∈ below₁ :=
        entered.mem_of_node₁ memObject new.2 (by simp [Node.edges])
      have memProperty := entered.mem_of_list₁ memProperties newList.2 memIds
      exact entered.inertAt_of_entry memHeld entryFor memProperty reached lost

/-- A place that was below the node, and is not any more, is inert, unless it is that of an
expression that moved out of its braces. -/
theorem inertAt_of_lost {place : Place} (mem : place ∈ below) (lost : place ∉ below₁)
    (unmoved : ∀ expression, t.node id = .jsxContainer expression → place ≠ .node expression) :
    t.InertAt place := by
  obtain ⟨_, owns⟩ := entered.owns
  obtain ⟨_, represents⟩ := entered.represents
  cases found : t.node id with
  | jsxElement name attributes children =>
    obtain ⟨_, _, _, _, _, callFor⟩ := entered.enters.exists_of_element found
    obtain ⟨call, _, newArguments, tagFor, objectFor, childrenFor⟩ := callFor
    rw [found] at owns
    rw [call] at represents
    -- The arguments of the call are below it.
    have argument : ∀ {item}, item ∈ _ → .node item ∈ below₁ :=
      entered.mem_of_list₁ (represents.mem_of_mem_places (by simp [Node.edges])) newArguments.2
    -- It was below the name, the attributes or the children.
    obtain ⟨start, memStart, reached⟩ := owns.represents.exists_reached_of_mem mem
    have memBelow := owns.represents.mem_of_mem_places memStart
    simp only [Node.edges, List.mem_cons, List.not_mem_nil, or_false] at memStart
    obtain rfl | rfl | rfl := memStart
    · exact entered.inertAt_of_name memBelow tagFor (argument (by simp)) reached lost
    · exact entered.inertAt_of_attributes memBelow objectFor (argument (by simp)) reached lost
    · exact entered.inertAt_of_children memBelow childrenFor
        (fun element memElement => argument (by simp [memElement])) reached lost
  | jsxContainer expression =>
    rw [(entered.below_eq_of_braces found).2.2.1] at mem
    obtain moved | mem := List.mem_cons.mp mem
    · exact absurd moved (unmoved expression found)
    · exact absurd mem lost
  | _ =>
    have same := (entered.below_eq_of_quiet (by rw [found]; rfl) (by simp [found])).1
    exact absurd (same ▸ mem) lost

end Entered

end Desugar

end JsxFactory
