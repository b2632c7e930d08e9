/-
# When desugaring succeeds, and what it leaves

Desugaring fails on some node that cannot be entered, and it enters every node:
those of the tree at first, where they stand or moved, and those that it adds.
Both halves of that are facts about terms. What stands in place of an entered
node is plain, so nothing is left of the markup that desugaring knows; and the
added nodes can be entered, so it succeeds exactly if all nodes of the tree at
first can.
-/

import JsxFactory.Proofs.Walking

namespace JsxFactory

open Edge (Alike)

/-! ## Results are plain -/

namespace Node

variable {α β γ δ : Type}

/-- Whether a node is other than the markup that desugaring rewrites or
rejects. -/
def Plain (node : Node α β) : Prop :=
  match node.shape with
  | .jsxElement .. | .jsxText _ | .jsxContainer _ | .jsxIdentifier _ | .jsxMember .. => False
  | .generic kind _ => kind ≠ "JSXFragment"
  | _ => True

theorem plain_fill {node : Node α β} {others : List (Edge γ δ)} (alike : Alike node.edges others) :
    (node.fill others).Plain ↔ node.Plain := by
  rw [Plain, shape_fill alike]
  rfl

theorem plain_of_bare {node : Node α β} (bare : node.kind ∈ Term.expressionKinds) :
    node.Plain := by
  cases node with
  | generic kind fields =>
    rintro rfl
    simp [kind, Term.expressionKinds] at bare
  | jsxElement | jsxText | jsxContainer | jsxIdentifier | jsxMember =>
    simp [kind, Term.expressionKinds] at bare
  | jsxAttribute _ value => cases value <;> trivial
  | _ => trivial

end Node

namespace Term

variable {options : Options} {term result : Term} {node entered : Node Term (List Term)}

theorem plain_of_enter (succeeds : enter options term = pure entered) : entered.Plain := by
  obtain ⟨node⟩ := term
  cases node with
  | jsxElement name attributes children selfClosing =>
    obtain ⟨_, _, rest⟩ := ok_of_bind succeeds
    obtain ⟨_, _, call⟩ := ok_of_bind rest
    cases call
    trivial
  | jsxContainer expression =>
    by_cases bare : expression.kind ∈ expressionKinds
    · -- The expression is not entered again, but it is plain by its kind.
      rw [enter, if_pos bare] at succeeds
      cases succeeds
      exact Node.plain_of_bare bare
    · rw [enter, if_neg bare] at succeeds
      cases succeeds
  | jsxText value =>
    cases succeeds
    split <;> trivial
  | generic kind fields =>
    by_cases fragment : kind = "JSXFragment"
    · rw [enter, if_pos fragment] at succeeds
      cases succeeds
    · rw [enter, if_neg fragment] at succeeds
      cases succeeds
      exact fragment
  | jsxAttribute _ value =>
    cases succeeds
    cases value <;> trivial
  | _ =>
    cases succeeds
    trivial

/-- Each of the results is some item desugared, and each item that does more than
indent has its result. -/
structure ComeFrom (options : Options) (items results : List Term) : Prop where
  origin : ∀ result ∈ results, ∃ item ∈ items, item.desugar options = pure result
  outcome : ∀ item ∈ items, item.isIndentation = true ∨
    ∃ result ∈ results, item.desugar options = pure result

theorem ComeFrom.append {items results others otherResults : List Term}
    (first : ComeFrom options items results) (second : ComeFrom options others otherResults) :
    ComeFrom options (items ++ others) (results ++ otherResults) where
  origin := by
    intro result mem
    obtain mem | mem := List.mem_append.mp mem
    · obtain ⟨item, memItems, desugars⟩ := first.origin result mem
      exact ⟨item, List.mem_append_left _ memItems, desugars⟩
    · obtain ⟨item, memItems, desugars⟩ := second.origin result mem
      exact ⟨item, List.mem_append_right _ memItems, desugars⟩
  outcome := by
    intro item mem
    obtain mem | mem := List.mem_append.mp mem
    · refine (first.outcome item mem).imp_right ?_
      rintro ⟨result, memResults, desugars⟩
      exact ⟨result, List.mem_append_left _ memResults, desugars⟩
    · refine (second.outcome item mem).imp_right ?_
      rintro ⟨result, memResults, desugars⟩
      exact ⟨result, List.mem_append_right _ memResults, desugars⟩

theorem comeFrom_nil : ComeFrom options [] [] :=
  ⟨by simp, by simp⟩

theorem comeFrom_singleton (desugars : term.desugar options = pure result) :
    ComeFrom options [term] [result] :=
  ⟨by simp [desugars], by simp [desugars]⟩

theorem comeFrom_indentation (indents : term.isIndentation = true) :
    ComeFrom options [term] [] :=
  ⟨by simp, by simp [indents]⟩

theorem comeFrom_desugarItems {items results : List Term}
    (succeeds : desugarItems options items = pure results) : ComeFrom options items results := by
  induction items generalizing results with
  | nil =>
    cases succeeds
    exact comeFrom_nil
  | cons item items ih =>
    by_cases indents : item.isIndentation = true
    · rw [desugarItems, if_pos indents] at succeeds
      exact (comeFrom_indentation indents).append (ih succeeds)
    · rw [desugarItems, if_neg indents] at succeeds
      obtain ⟨first, desugarsFirst, rest⟩ := ok_of_bind succeeds
      obtain ⟨others, desugarsOthers, all⟩ := ok_of_bind rest
      cases all
      exact (comeFrom_singleton desugarsFirst).append (ih desugarsOthers)

theorem comeFrom_desugarParts {parts results : List Part}
    (succeeds : desugarParts options parts = pure results) :
    Alike parts results ∧
      ComeFrom options (parts.flatMap Edge.items) (results.flatMap Edge.items) := by
  induction parts generalizing results with
  | nil =>
    cases succeeds
    exact ⟨.nil, comeFrom_nil⟩
  | cons part parts ih =>
    cases part with
    | node inner =>
      rw [desugarParts_node] at succeeds
      obtain ⟨first, desugarsFirst, rest⟩ := ok_of_bind succeeds
      obtain ⟨others, desugarsOthers, all⟩ := ok_of_bind rest
      cases all
      obtain ⟨alike, come⟩ := ih desugarsOthers
      exact ⟨.node alike, (comeFrom_singleton desugarsFirst).append come⟩
    | list items =>
      rw [desugarParts_list] at succeeds
      obtain ⟨first, desugarsFirst, rest⟩ := ok_of_bind succeeds
      obtain ⟨others, desugarsOthers, all⟩ := ok_of_bind rest
      cases all
      obtain ⟨alike, come⟩ := ih desugarsOthers
      exact ⟨.list alike, (comeFrom_desugarItems desugarsFirst).append come⟩

/-- A desugared term is what stands there after entering, with the children
desugared. -/
theorem desugar_ok (succeeds : term.desugar options = pure result) :
    ∃ entered parts, enter options term = pure entered ∧ Alike entered.edges parts ∧
      result = ⟨entered.fill parts⟩ ∧ ComeFrom options entered.children result.node.children := by
  rw [desugar_eq] at succeeds
  obtain ⟨entered, enters, rest⟩ := ok_of_bind succeeds
  obtain ⟨parts, desugars, same⟩ := ok_of_bind rest
  cases same
  obtain ⟨alike, come⟩ := comeFrom_desugarParts desugars
  refine ⟨entered, parts, enters, alike, rfl, ?_⟩
  change ComeFrom options entered.children (entered.fill parts).children
  rw [Node.children, Node.children, Node.edges_fill alike]
  exact come

theorem everywhere_plain_of_desugar (succeeds : term.desugar options = pure result) :
    result.Everywhere fun inner => inner.node.Plain := by
  induction term using induction_enter options generalizing result with
  | step term ih =>
    obtain ⟨entered, parts, enters, alike, rfl, come⟩ := desugar_ok succeeds
    refine everywhere_mk.mpr ⟨(Node.plain_fill alike).mpr (plain_of_enter enters), ?_⟩
    -- A child of the result comes from a child of the entered node, not of the term itself.
    intro inner mem
    obtain ⟨item, memItems, desugars⟩ := come.origin inner mem
    exact ih entered enters item memItems desugars

end Term

namespace Tree

variable {t t' : Tree} {options : Options}

theorem Represents.plain_iff {id : NodeId} {inner : Term} {below : List Place}
    (represents : t.Represents [.node id] [.node inner] below) :
    (t.node id).Plain ↔ inner.node.Plain := by
  obtain ⟨parts, _, same, _, below⟩ := Represents.node_iff.mp represents
  obtain rfl := Edge.node.inj same
  exact (Node.plain_fill below.alike).symm

/-- No markup is left in a desugared document, wherever it stood: each node that
is reached from the root is plain. -/
theorem plain_of_desugar (isRead : t.IsRead) (succeeds : t.desugar options = .ok t') {id : NodeId}
    (reachable : t'.Reachable (.node id)) : (t'.node id).Plain := by
  obtain ⟨term, footprint, owns⟩ := isRead.owned.exists_owns
  obtain ⟨t₁, result, new, desugars, expected, owns'⟩ | ⟨problem, fails, _⟩ :=
    owns.desugar_cases options
  · cases succeeds.symm.trans desugars
    have plain := Term.everywhere_plain_of_desugar expected
    exact (owns'.represents.forall_reachable_iff Represents.plain_iff).mpr plain id reachable
  · cases succeeds.symm.trans fails

theorem plain_of_desugar_nestedElement :
    (ofTerm Term.nestedElement).IsRead ∧
      ∃ t', (ofTerm Term.nestedElement).desugar {} = .ok t' ∧
        t'.Reachable (.node t'.root) ∧ ∀ id, t'.Reachable (.node id) → (t'.node id).Plain := by
  have isRead := isRead_nestedElement
  have desugars : Term.nestedElement.desugar {} = .ok Term.nestedCall := rfl
  obtain ⟨t', _, succeeds, _⟩ := exists_desugar_ofTerm desugars
  refine ⟨isRead, t', succeeds, .refl, fun id reachable => ?_⟩
  exact plain_of_desugar isRead succeeds reachable

end Tree

/-! ## What can be desugared -/

namespace Term

variable {options : Options} {term result : Term} {node entered : Node Term (List Term)}

/-- Whether a term can be entered. -/
def Enters (options : Options) (term : Term) : Prop :=
  ∃ entered, enter options term = pure entered

/-- Whether a term can be desugared. -/
def Desugars (options : Options) (term : Term) : Prop :=
  ∃ result, term.desugar options = pure result

/-- Two steps that are put together succeed if each does. -/
theorem both_succeed_iff {ε α β γ : Type} {first : Except ε α} {second : Except ε β}
    {f : α → β → γ} :
    (∃ result, (do return f (← first) (← second)) = (pure result : Except ε γ)) ↔
      (∃ a, first = pure a) ∧ ∃ b, second = pure b := by
  constructor
  · rintro ⟨result, succeeds⟩
    obtain ⟨a, first, rest⟩ := ok_of_bind succeeds
    obtain ⟨b, second, _⟩ := ok_of_bind rest
    exact ⟨⟨a, first⟩, b, second⟩
  · rintro ⟨⟨a, rfl⟩, b, rfl⟩
    exact ⟨f a b, rfl⟩

theorem exists_desugarItems_iff {items : List Term} :
    (∃ results, desugarItems options items = pure results) ↔
      ∀ item ∈ items, Desugars options item := by
  induction items with
  | nil => simp
  | cons item items ih =>
    rw [List.forall_mem_cons, ← ih]
    by_cases indents : item.isIndentation = true
    · -- Indentation is left out, but it could be desugared as well.
      have desugars : Desugars options item := ⟨hole, desugar_of_indentation options indents⟩
      rw [desugarItems, if_pos indents, and_iff_right desugars]
    · rw [desugarItems, if_neg indents]
      exact both_succeed_iff

theorem exists_desugarParts_iff {parts : List Part} :
    (∃ results, desugarParts options parts = pure results) ↔
      ∀ inner ∈ parts.flatMap Edge.items, Desugars options inner := by
  induction parts with
  | nil => simp [desugarParts]
  | cons part parts ih =>
    rw [List.flatMap_cons, List.forall_mem_append, ← ih]
    cases part with
    | node inner =>
      rw [desugarParts_node, Edge.items_node, List.forall_mem_singleton]
      exact both_succeed_iff
    | list items =>
      rw [desugarParts_list, Edge.items_list, ← exists_desugarItems_iff]
      exact both_succeed_iff

/-- A term can be desugared if it can be entered and the children that it then
has can be desugared. -/
theorem desugars_iff_enter :
    Desugars options term ↔ ∃ entered, enter options term = pure entered ∧
      ∀ inner ∈ entered.children, Desugars options inner := by
  constructor
  · rintro ⟨result, succeeds⟩
    rw [desugar_eq] at succeeds
    obtain ⟨entered, enters, rest⟩ := ok_of_bind succeeds
    obtain ⟨parts, desugars, _⟩ := ok_of_bind rest
    exact ⟨entered, enters, exists_desugarParts_iff.mp ⟨parts, desugars⟩⟩
  · rintro ⟨entered, enters, desugars⟩
    obtain ⟨parts, succeeds⟩ := exists_desugarParts_iff.mpr desugars
    refine ⟨⟨entered.fill parts⟩, ?_⟩
    rw [desugar_eq, enters, pure_bind, succeeds]
    rfl

theorem enters_jsxElement_iff {name : Term} {attributes children : List Term} {selfClosing : Bool} :
    Enters options ⟨.jsxElement name attributes children selfClosing⟩ ↔
      checkTag name = pure () ∧ ∀ entry ∈ attributes, checkEntry entry = pure () := by
  rw [← forM_succeeds_iff]
  constructor
  · rintro ⟨entered, succeeds⟩
    obtain ⟨_, tag, rest⟩ := ok_of_bind succeeds
    obtain ⟨_, entries, _⟩ := ok_of_bind rest
    exact ⟨tag, entries⟩
  · rintro ⟨tag, entries⟩
    simp only [Enters, enter, tag, entries, pure_bind]
    exact ⟨_, rfl⟩

theorem enters_jsxContainer_iff {expression : Term} :
    Enters options ⟨.jsxContainer expression⟩ ↔ expression.kind ∈ expressionKinds := by
  rw [Enters, enter]
  split <;> rename_i bare
  · exact iff_of_true ⟨_, rfl⟩ bare
  · refine iff_of_false ?_ bare
    rintro ⟨_, enters⟩
    cases enters

theorem enters_generic_iff {kind : String} {fields : List (String × Field Term (List Term))} :
    Enters options ⟨.generic kind fields⟩ ↔ kind ≠ "JSXFragment" := by
  rw [Enters, enter]
  split <;> rename_i fragment
  · refine iff_of_false ?_ (not_not_intro fragment)
    rintro ⟨_, enters⟩
    cases enters
  · exact iff_of_true ⟨_, rfl⟩ fragment

end Term

/-- Whether a node is of a shape that entering an element adds or leaves out. -/
def Node.Incidental {α β : Type} : Node α β → Prop
  | .identifier _ | .literal _ | .property .. | .spread _ | .object _ | .array _ => True
  | .jsxIdentifier _ | .jsxAttribute .. | .jsxSpreadAttribute _ => True
  | _ => False

namespace Term

/-- Whether a condition is one that entering cannot change: it holds of each node
that is added or left out, and of each that may stand without braces. -/
structure Stable (P : Term → Prop) : Prop where
  incidental : ∀ {node : Node Term (List Term)}, node.Incidental → P ⟨node⟩
  bare : ∀ {term : Term}, term.kind ∈ expressionKinds → P term

namespace Stable

variable {options : Options} {node entered : Node Term (List Term)} {P : Term → Prop}

theorem everywhere_iff (stable : Stable P) (node : Node Term (List Term))
    (incidental : node.Incidental) :
    Everywhere P ⟨node⟩ ↔ ∀ inner ∈ node.children, Everywhere P inner := by
  rw [everywhere_mk, and_iff_right (stable.incidental incidental)]

theorem everywhere_leaf (stable : Stable P) (incidental : node.Incidental)
    (childless : node.edges = []) : Everywhere P ⟨node⟩ := by
  rw [stable.everywhere_iff node incidental, Node.children, childless]
  simp

theorem everywhere_spelled (stable : Stable P) (quoted : Bool) (name : String) :
    Everywhere P (spelled quoted name) := by
  cases quoted <;> exact stable.everywhere_leaf trivial rfl

theorem everywhere_tagArgument (stable : Stable P) (name : Term) :
    Everywhere P (tagArgument options name name) ↔ Everywhere P name := by
  obtain ⟨node⟩ := name
  cases node with
  | jsxIdentifier | identifier =>
    exact iff_of_true (stable.everywhere_spelled _ _) (stable.everywhere_leaf trivial rfl)
  | _ => rfl

theorem everywhere_key (stable : Stable P) (options : Options) {key : Term}
    (supported : checkKey key = pure ()) :
    Everywhere P key ∧ Everywhere P (propertyKey options key) := by
  obtain ⟨node⟩ := key
  cases node with
  | jsxIdentifier =>
    exact ⟨stable.everywhere_leaf trivial rfl, stable.everywhere_spelled _ _⟩
  | jsxAttribute _ value => cases value <;> cases supported
  | _ => cases supported

theorem everywhere_entryProperty (stable : Stable P) {entry : Term}
    (supported : checkEntry entry = pure ()) :
    Everywhere P (entryProperty options entry) ↔ Everywhere P entry := by
  obtain ⟨node⟩ := entry
  cases node with
  | jsxAttribute key value =>
    obtain ⟨_, supportedKey, _⟩ := ok_of_bind supported
    -- The key is spelled anew and a missing value is made up, but neither matters.
    obtain ⟨old, new⟩ := stable.everywhere_key options supportedKey
    have literal : Everywhere P trueValue := stable.everywhere_leaf trivial rfl
    rw [entryProperty, stable.everywhere_iff (.plainProperty _ _) trivial,
      stable.everywhere_iff (.jsxAttribute key value) trivial]
    cases value <;> simp [Node.children, Node.edges, Node.plainProperty, old, new, literal]
  | jsxSpreadAttribute argument =>
    rw [entryProperty, stable.everywhere_iff (.spread argument) trivial,
      stable.everywhere_iff (.jsxSpreadAttribute argument) trivial]
    rfl
  | _ => cases supported

theorem everywhere_attributesArgument (stable : Stable P) {attributes : List Term}
    (supported : ∀ entry ∈ attributes, checkEntry entry = pure ()) :
    Everywhere P (attributesArgument (attributes.map (entryProperty options))) ↔
      ∀ entry ∈ attributes, Everywhere P entry := by
  cases attributes with
  | nil => exact iff_of_true (stable.everywhere_leaf trivial rfl) (by simp)
  | cons first rest =>
    refine (stable.everywhere_iff (.object _) trivial).trans ?_
    simp only [Node.children, Node.edges, List.flatMap_singleton, Edge.items_list,
      List.forall_mem_map]
    exact forall₂_congr fun entry mem => stable.everywhere_entryProperty (supported entry mem)

theorem everywhere_childrenArgument (stable : Stable P) (children : List Term) :
    (∀ argument ∈ childrenArgument children children, Everywhere P argument) ↔
      ∀ child ∈ children, Everywhere P child := by
  cases children with
  | nil => simp [childrenArgument]
  | cons child rest =>
    refine List.forall_mem_singleton.trans ((stable.everywhere_iff (.array _) trivial).trans ?_)
    simp [Node.children, Node.edges]

/-- Entering moves nodes, and adds and leaves out nodes that do not matter. -/
theorem everywhere_entered (stable : Stable P) (enters : enter options ⟨node⟩ = pure entered) :
    (∀ inner ∈ entered.children, Everywhere P inner) ↔
      ∀ inner ∈ node.children, Everywhere P inner := by
  obtain ⟨name, attributes, children, selfClosing, rfl, tag, entries, rfl⟩ |
    ⟨⟨entered⟩, rfl, bare, rfl⟩ | same := enter_cases options enters
  · -- Argument by argument, what the call holds is what the element held.
    have callee : Everywhere P (identifier options.factory) := stable.everywhere_leaf trivial rfl
    simp only [factoryCall, Node.children, Node.edges, List.flatMap_cons, List.flatMap_nil,
      Edge.items_node, Edge.items_list, List.append_nil, List.forall_mem_append,
      List.forall_mem_cons, stable.everywhere_tagArgument,
      stable.everywhere_attributesArgument (forM_succeeds_iff.mp entries),
      stable.everywhere_childrenArgument]
    simp [callee]
  · -- The expression is no longer among the children, but the condition holds of it anyway.
    have one : (Node.jsxContainer (Term.mk entered)).children = [Term.mk entered] := rfl
    rw [one, List.forall_mem_singleton, everywhere_mk, and_iff_right (stable.bare bare)]
  · rw [Node.children, Node.children, same]

end Stable

variable {options : Options} {term : Term}

/-- What entering adds, leaves out and takes out of braces can be entered. -/
theorem stable_enters : Stable (Enters options) where
  incidental := by
    intro node incidental
    cases node with
    | generic | jsxElement | jsxContainer => cases incidental
    | _ => exact ⟨_, rfl⟩
  bare bare := ⟨_, enter_of_bare options bare⟩

/-- A term can be desugared if every part of it can be entered. -/
theorem desugars_iff_everywhere : Desugars options term ↔ Everywhere (Enters options) term := by
  induction term using induction_enter options with
  | step term ih =>
    obtain ⟨node⟩ := term
    rw [desugars_iff_enter, everywhere_mk]
    -- The children after entering are other than before, but they can be entered everywhere
    -- just if those before can.
    constructor
    · rintro ⟨entered, enters, desugars⟩
      refine ⟨⟨entered, enters⟩, (stable_enters.everywhere_entered enters).mp fun inner mem => ?_⟩
      exact (ih entered enters inner mem).mp (desugars inner mem)
    · rintro ⟨⟨entered, enters⟩, all⟩
      refine ⟨entered, enters, fun inner mem => ?_⟩
      refine (ih entered enters inner mem).mpr ?_
      exact (stable_enters.everywhere_entered enters).mpr all inner mem

end Term

namespace Tree

variable {t : Tree} {options : Options} {id : NodeId} {term : Term} {footprint : List Place}

/-- Whether the entry of a tag at a place can be desugared: it is a spread, or an
attribute with a simple name and with no value, a literal or something in
braces. -/
def SupportedEntry (t : Tree) (id : NodeId) : Prop :=
  match t.node id with
  | .jsxSpreadAttribute _ => True
  | .jsxAttribute name none => (t.node name).namesAttribute
  | .jsxAttribute name (some value) =>
    (t.node name).namesAttribute ∧ (t.node value).valuesAttribute
  | _ => False

/-- Whether the node at a place can be desugared: an element has a simple or a
dotted name and entries that can be desugared, braces hold an expression of a kind
that may stand without them, and there are no fragments. -/
def Supported (t : Tree) (id : NodeId) : Prop :=
  match t.node id with
  | .jsxElement name attributes _ _ =>
    (t.node name).namesTag ∧ ∀ entry ∈ t.list attributes, t.SupportedEntry entry
  | .jsxContainer expression => (t.node expression).kind ∈ Term.expressionKinds
  | .generic kind _ => kind ≠ "JSXFragment"
  | _ => True

theorem check_succeeds_iff {passes : Bool} {problem : DesugarError} :
    (if passes then pure () else throw problem : Except DesugarError Unit) = pure () ↔
      passes = true := by
  cases passes with
  | true => simp
  | false =>
    refine iff_of_false ?_ Bool.false_ne_true
    intro succeeds
    cases succeeds

namespace Represents

theorem namesTag_iff (represents : t.Represents [.node id] [.node term] footprint) :
    (t.node id).namesTag = true ↔ Term.checkTag term = pure () := by
  obtain ⟨parts, _, same, _, below⟩ := node_iff.mp represents
  obtain rfl := Edge.node.inj same
  rw [Term.checkTag_fill below.alike, check_succeeds_iff]

theorem namesAttribute_iff (represents : t.Represents [.node id] [.node term] footprint) :
    (t.node id).namesAttribute = true ↔ Term.checkKey term = pure () := by
  obtain ⟨parts, _, same, _, below⟩ := node_iff.mp represents
  obtain rfl := Edge.node.inj same
  rw [Term.checkKey_fill below.alike, check_succeeds_iff]

theorem valuesAttribute_iff (represents : t.Represents [.node id] [.node term] footprint) :
    (t.node id).valuesAttribute = true ↔ Term.checkValue (some term) = pure () := by
  obtain ⟨parts, _, same, _, below⟩ := node_iff.mp represents
  obtain rfl := Edge.node.inj same
  rw [Term.checkValue_fill below.alike, check_succeeds_iff]

theorem supportedEntry_iff (represents : t.Represents [.node id] [.node term] footprint) :
    t.SupportedEntry id ↔ Term.checkEntry term = pure () := by
  obtain ⟨parts, _, same, _, below⟩ := node_iff.mp represents
  have alike := below.alike
  obtain rfl := Edge.node.inj same
  rw [SupportedEntry]
  cases slot : t.node id with
  | jsxSpreadAttribute argument =>
    rw [slot] at alike
    repeat cases ‹Alike _ _›
    exact iff_of_true trivial rfl
  | jsxAttribute name value =>
    rw [slot] at alike below
    cases value with
    | none =>
      repeat cases ‹Alike _ _›
      refine below.namesAttribute_iff.trans ?_
      exact (Term.checks_succeed_iff.trans (and_iff_left rfl)).symm
    | some value =>
      -- The key and the value are checked one after the other, and either may fail.
      repeat cases ‹Alike _ _›
      obtain ⟨_, _, _, _, same, rfl, key, value⟩ := below.uncons
      obtain ⟨rfl, rfl⟩ := List.cons.inj same
      refine (and_congr key.namesAttribute_iff value.valuesAttribute_iff).trans ?_
      exact Term.checks_succeed_iff.symm
  | generic =>
    refine iff_of_false not_false ?_
    intro succeeds
    cases succeeds
  | _ =>
    rw [slot] at alike
    simp only [Node.edges] at alike
    repeat cases ‹Alike _ _›
    refine iff_of_false not_false ?_
    intro succeeds
    cases succeeds

/-- What holds of the places in a sequence is what holds of the terms there. -/
theorem forall_items_iff {ids : List NodeId} {terms : List Term} {P : NodeId → Prop}
    {Q : Term → Prop}
    (agree : ∀ {id inner below}, t.Represents [.node id] [.node inner] below → (P id ↔ Q inner))
    (represents : t.Represents (ids.map .node) (terms.map .node) footprint) :
    (∀ id ∈ ids, P id) ↔ ∀ inner ∈ terms, Q inner := by
  induction ids generalizing terms footprint with
  | nil =>
    cases terms with
    | nil => simp
    | cons => cases represents
  | cons id ids ih =>
    cases terms with
    | nil => cases represents
    | cons term terms =>
      obtain ⟨_, _, _, _, same, rfl, head, tail⟩ := represents.uncons
      obtain ⟨rfl, rfl⟩ := List.cons.inj same
      rw [List.forall_mem_cons, List.forall_mem_cons, agree head, ih tail]

theorem supported_iff (options : Options)
    (represents : t.Represents [.node id] [.node term] footprint) :
    t.Supported id ↔ term.Enters options := by
  obtain ⟨parts, _, same, _, below⟩ := node_iff.mp represents
  have alike := below.alike
  obtain rfl := Edge.node.inj same
  rw [Supported]
  cases slot : t.node id with
  | jsxElement name attributes children selfClosing =>
    -- The name and the entries are looked up in the tree on one side and are in the term on
    -- the other.
    rw [slot] at alike below
    simp only [Node.edges] at alike
    repeat cases ‹Alike _ _›
    obtain ⟨_, _, _, _, same, rfl, tag, rest⟩ := below.uncons
    obtain ⟨rfl, rfl⟩ := List.cons.inj same
    obtain ⟨_, _, _, _, same, rfl, entries, _⟩ := rest.uncons
    obtain ⟨rfl, rfl⟩ := List.cons.inj same
    obtain ⟨_, _, same, _, items⟩ := list_iff.mp entries
    obtain rfl := Edge.list.inj same
    refine (and_congr tag.namesTag_iff (forall_items_iff supportedEntry_iff items)).trans ?_
    exact Term.enters_jsxElement_iff.symm
  | jsxContainer expression =>
    rw [slot] at alike below
    repeat cases ‹Alike _ _›
    obtain ⟨inner, _, same, _, belowInner⟩ := node_iff.mp below
    obtain rfl := Edge.node.inj same
    refine Iff.trans ?_ Term.enters_jsxContainer_iff.symm
    rw [Term.kind, Term.node, Node.kind_fill belowInner.alike]
  | generic kind fields => exact Term.enters_generic_iff.symm
  | jsxAttribute _ value =>
    rw [slot] at alike
    cases value <;> simp only [Node.edges] at alike <;> (repeat cases ‹Alike _ _›) <;>
      exact iff_of_true trivial ⟨_, rfl⟩
  | _ =>
    rw [slot] at alike
    simp only [Node.edges] at alike
    repeat cases ‹Alike _ _›
    exact iff_of_true trivial ⟨_, rfl⟩

end Represents

/-- Desugaring succeeds exactly if every node that is reached from the root of the
tree, as it is before, can be desugared. -/
theorem desugar_succeeds_iff (options : Options) (t : Tree)
    (source : t.IsRead ∨ t.IsLowered ∨ t.Owned) :
    (∃ t', t.desugar options = .ok t') ↔ ∀ id, t.Reachable (.node id) → t.Supported id := by
  -- Both sides are facts about the term that the tree owns.
  obtain ⟨term, footprint, owns⟩ := (owned_of_source source).exists_owns
  rw [owns.represents.forall_reachable_iff (Represents.supported_iff options),
    ← Term.desugars_iff_everywhere]
  obtain ⟨t', result, _, desugars, expected, _⟩ | ⟨problem, fails, expected⟩ :=
    owns.desugar_cases options
  · exact iff_of_true ⟨t', desugars⟩ ⟨result, expected⟩
  · refine iff_of_false ?_ ?_
    · rintro ⟨t', desugars⟩
      cases desugars.symm.trans fails
    · rintro ⟨result, desugars⟩
      cases desugars.symm.trans expected

theorem desugar_succeeds_iff_nestedElement :
    (ofTerm Term.nestedElement).IsRead ∧
      (∃ t', (ofTerm Term.nestedElement).desugar {} = .ok t') ∧
      ∀ id, (ofTerm Term.nestedElement).Reachable (.node id) →
        (ofTerm Term.nestedElement).Supported id := by
  have isRead := isRead_nestedElement
  have desugars : Term.nestedElement.desugar {} = .ok Term.nestedCall := rfl
  obtain ⟨t', _, succeeds, _⟩ := exists_desugar_ofTerm desugars
  refine ⟨isRead, ⟨t', succeeds⟩, ?_⟩
  rw [← desugar_succeeds_iff {} (ofTerm Term.nestedElement) (.inl isRead)]
  exact ⟨t', succeeds⟩

end Tree

end JsxFactory
