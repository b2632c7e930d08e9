/-
# Markup in lowered programs

Lowering puts markup in certain places only: entries stand in tags, names with a
namespace stand in tags and entries, and what is left of empty braces stands in
braces. There they are desugared or stop the desugaring. Anywhere else stands
what desugaring rewrites or rejects, with one exception: a spread between two
tags is a generic node like any other, and it stays. So a lowered program that
can be desugared is free of markup afterwards exactly if it has no such spread.
-/

import JsxFactory.Proofs.Outcome

namespace JsxFactory

open Edge (Alike)

/-! ## Where markup may stand -/

/-- Whether a kind is one of markup, by its spelling. -/
def IsMarkup (kind : String) : Prop :=
  "JSX".toList <+: kind.toList

instance (kind : String) : Decidable (IsMarkup kind) :=
  inferInstanceAs (Decidable (_ <+: _))

/-- Whether a node may stand anywhere: it is not the entry of a tag, and among
generic nodes only fragments and spread children are markup. Elements and braces
may too, but make demands on what is in them. -/
def Node.Ordinary {α β : Type} : Node α β → Prop
  | .jsxElement .. | .jsxContainer _ | .jsxAttribute .. | .jsxSpreadAttribute _ => False
  | .generic kind _ => IsMarkup kind → kind = "JSXFragment" ∨ kind = "JSXSpreadChild"
  | _ => True

namespace Term

mutual

/-- A term that may stand anywhere, and in which everything stands where it may.
A name of a tag and an expression in braces are free to be anything that stops the
desugaring. -/
inductive Placed : Term → Prop
  | ordinary {node : Node Term (List Term)} :
    node.Ordinary → (∀ inner ∈ node.children, Placed inner) → Placed ⟨node⟩
  -- Nothing is asked of a name with a namespace, as the element is rejected for it.
  | element {name : Term} {attributes children : List Term} {selfClosing : Bool} :
    (checkTag name = pure () → Placed name) → (∀ entry ∈ attributes, PlacedEntry entry) →
    (∀ child ∈ children, Placed child) →
    Placed ⟨.jsxElement name attributes children selfClosing⟩
  -- Nor of what is in braces, unless it may stand without them.
  | container {expression : Term} :
    (expression.kind ∈ expressionKinds → Placed expression) → Placed ⟨.jsxContainer expression⟩

/-- An entry of a tag in which everything stands where it may. -/
inductive PlacedEntry : Term → Prop
  -- The key is spelled anew or rejected, so only the value matters.
  | plain {key : Term} {value : Option Term} :
    (∀ inner ∈ value, Placed inner) → PlacedEntry ⟨.jsxAttribute key value⟩
  | spread {argument : Term} : Placed argument → PlacedEntry ⟨.jsxSpreadAttribute argument⟩

end

/-- Terms that may all stand anywhere. -/
def AllPlaced (terms : List Term) : Prop :=
  ∀ inner ∈ terms, Placed inner

@[simp] theorem allPlaced_nil : AllPlaced [] := by
  simp [AllPlaced]

@[simp] theorem allPlaced_cons {first : Term} {rest : List Term} :
    AllPlaced (first :: rest) ↔ Placed first ∧ AllPlaced rest :=
  List.forall_mem_cons

@[simp] theorem allPlaced_append {first second : List Term} :
    AllPlaced (first ++ second) ↔ AllPlaced first ∧ AllPlaced second :=
  List.forall_mem_append

theorem Placed.leaf {node : Node Term (List Term)} (ordinary : node.Ordinary)
    (childless : node.edges = []) : Placed ⟨node⟩ := by
  refine .ordinary ordinary ?_
  rw [Node.children, childless]
  exact allPlaced_nil

theorem Placed.shaped {node : Node Term (List Term)} (ordinary : node.Ordinary)
    (inside : AllPlaced node.children) : Placed ⟨node⟩ :=
  .ordinary ordinary inside

theorem placed_identifier (name : String) : Placed (identifier name) :=
  .leaf trivial rfl

theorem placed_hole : Placed hole :=
  .leaf trivial rfl

end Term

/-! ## Where lowering puts markup -/

namespace Program

open Term (PlacedEntry allPlaced_nil allPlaced_cons allPlaced_append)

/-- What is asked of a lowered term in a role: names are free to have a namespace, and
what stands in empty braces is not to be taken out of them. -/
def Role.Placed : Role → Term → Prop
  | .part, term | .solid, term | .dotted, term => Term.Placed term
  | .entry, term => PlacedEntry term
  | .name, term => Term.checkTag term = pure () → Term.Placed term
  | .empty, term => term.kind ∉ Term.expressionKinds

theorem isMarkup_of_mem_genericShapes : ∀ shape ∈ genericShapes,
    IsMarkup shape.1 → shape.1 = "JSXFragment" ∨ shape.1 = "JSXSpreadChild" := by
  decide

theorem NodesRelated.placed {role : Role} {node : Node Term (List Term)}
    (related : NodesRelated (OneSided Role.Placed) role node node) : role.Placed ⟨node⟩ := by
  cases related with
  | identifier | literal | text | simpleName => exact .leaf trivial rfl
  | member first second | property first second | memberName first second =>
    exact .ordinary trivial (allPlaced_cons.mpr ⟨first, allPlaced_cons.mpr ⟨second, allPlaced_nil⟩⟩)
  | call callee arguments =>
    have first : Term.Placed _ := callee
    have rest : Term.AllPlaced _ := forall_of_related arguments
    exact .shaped trivial (by simp [Node.children, Node.edges, first, rest])
  | object properties =>
    exact .ordinary trivial
      (allPlaced_append.mpr ⟨forall_of_related properties, allPlaced_nil⟩)
  | spread argument => exact .ordinary trivial (allPlaced_cons.mpr ⟨argument, allPlaced_nil⟩)
  | generic shape inside =>
    exact .ordinary (isMarkup_of_mem_genericShapes _ shape) (inside.forall_children _)
  | container expression => exact .container fun _ => expression
  | emptyContainer expression => exact .container fun bare => absurd bare expression
  | element name attributes children =>
    exact .element name (forall_of_related attributes) (forall_of_related children)
  | plainAttribute _ value =>
    refine .plain fun inner mem => ?_
    cases value with
    | none => cases mem
    | some value =>
      cases mem
      exact value
  | spreadAttribute argument => exact .spread argument
  -- An element with such a name is rejected.
  | namespacedName => exact fun supported => by cases supported
  | empty => simp [Role.Placed, Term.kind, Term.node, Node.kind, Term.expressionKinds]

theorem kept_placed : KeptByLowering Role.Placed where
  node := NodesRelated.placed
  array {elements} placed := .ordinary trivial (by rwa [Node.children_array])
  hole := Term.placed_hole
  part placed := placed
  name placed _ := placed

/-- In a lowered program everything stands where it may. -/
theorem placed (program : Program) : Term.Placed program.lower.value :=
  kept_placed.lower program

end Program

/-! ## What desugaring leaves of it -/

theorem not_isMarkup_of_bare {kind : String} (bare : kind ∈ Term.expressionKinds) :
    ¬IsMarkup kind := by
  simp only [Term.expressionKinds, List.mem_cons, List.not_mem_nil, or_false] at bare
  obtain rfl | rfl | rfl | rfl | rfl := bare <;> decide

namespace Node

variable {α β γ δ : Type}

theorem isMarkup_fill {node : Node α β} {others : List (Edge γ δ)}
    (alike : Alike node.edges others) :
    IsMarkup (node.fill others).kind ↔ IsMarkup node.kind := by
  rw [kind_fill alike]

end Node

namespace Term

variable {options : Options} {term result : Term} {node entered : Node Term (List Term)}

theorem placed_spelled (quoted : Bool) (name : String) : Placed (spelled quoted name) := by
  cases quoted <;> exact .leaf trivial rfl

theorem placed_tagArgument {name : Term} (placed : Placed name) :
    Placed (tagArgument options name name) := by
  obtain ⟨node⟩ := name
  cases node with
  | jsxIdentifier | identifier => exact placed_spelled _ _
  | _ => exact placed

theorem placed_propertyKey {key : Term} (supported : checkKey key = pure ()) :
    Placed (propertyKey options key) := by
  obtain ⟨node⟩ := key
  cases node with
  | jsxIdentifier => exact placed_spelled _ _
  | jsxAttribute _ value => cases value <;> cases supported
  | _ => cases supported

theorem PlacedEntry.placed_entryProperty {entry : Term} (placed : PlacedEntry entry)
    (supported : checkEntry entry = pure ()) : Placed (entryProperty options entry) := by
  cases placed with
  | @plain key value placedValue =>
    obtain ⟨_, supportedKey, _⟩ := ok_of_bind supported
    have key : Placed (propertyKey options key) := placed_propertyKey supportedKey
    -- A value that is not given is made up.
    have value : Placed (value.getD trueValue) := by
      cases value with
      | none => exact .leaf trivial rfl
      | some value => exact placedValue value rfl
    exact .shaped trivial (by simp [Node.children, Node.edges, Node.plainProperty, key, value])
  | spread placedArgument =>
    exact .shaped trivial (by simp [Node.children, Node.edges, placedArgument])

theorem placed_attributesArgument {attributes : List Term}
    (placed : ∀ entry ∈ attributes, PlacedEntry entry)
    (supported : ∀ entry ∈ attributes, checkEntry entry = pure ()) :
    Placed (attributesArgument (attributes.map (entryProperty options))) := by
  cases attributes with
  | nil => exact .leaf trivial rfl
  | cons first rest =>
    refine .ordinary trivial ?_
    simp only [Node.children, Node.edges, List.flatMap_singleton, Edge.items_list,
      List.forall_mem_map]
    intro entry mem
    exact (placed entry mem).placed_entryProperty (supported entry mem)

theorem allPlaced_childrenArgument {children : List Term} (placed : AllPlaced children) :
    AllPlaced (childrenArgument children children) := by
  cases children with
  | nil => exact allPlaced_nil
  | cons child rest =>
    have array : Placed ⟨.array (child :: rest)⟩ :=
      .shaped trivial (by simpa [Node.children, Node.edges] using placed)
    exact allPlaced_cons.mpr ⟨array, allPlaced_nil⟩

/-- The call that stands in place of an element has everything in it where it
may stand. -/
theorem allPlaced_factoryCall {name : Term} {attributes children : List Term}
    (placedName : Placed name) (placedEntries : ∀ entry ∈ attributes, PlacedEntry entry)
    (placedChildren : AllPlaced children)
    (supported : ∀ entry ∈ attributes, checkEntry entry = pure ()) :
    AllPlaced (factoryCall options (tagArgument options name name)
      (attributesArgument (attributes.map (entryProperty options)))
      (childrenArgument children children)).children := by
  have tag : Placed (tagArgument options name name) := placed_tagArgument placedName
  have properties : Placed (attributesArgument (attributes.map (entryProperty options))) :=
    placed_attributesArgument placedEntries supported
  have items := allPlaced_childrenArgument placedChildren
  simp [factoryCall, Node.children, Node.edges, placed_identifier, tag, properties, items]

/-- Entering a term leaves everything below it where it may stand. -/
theorem Placed.of_enter (placed : Placed ⟨node⟩) (enters : enter options ⟨node⟩ = pure entered) :
    AllPlaced entered.children := by
  cases placed with
  | ordinary ordinary inside =>
    -- An ordinary node is no element and no braces, so it keeps its children.
    obtain ⟨_, _, _, _, rfl, _⟩ | ⟨_, rfl, _⟩ | same := enter_cases options enters
    · cases ordinary
    · cases ordinary
    · rw [Node.children, same]
      exact inside
  | element name attributes children =>
    obtain ⟨_, tag, rest⟩ := ok_of_bind enters
    obtain ⟨_, entries, call⟩ := ok_of_bind rest
    cases call
    exact allPlaced_factoryCall (name tag) attributes children (forM_succeeds_iff.mp entries)
  | @container expression placed =>
    have bare := enters_jsxContainer_iff.mp ⟨entered, enters⟩
    rw [enter, if_pos bare] at enters
    cases enters
    -- The expression is of a kind that may stand bare, so it is neither an element nor braces.
    cases placed bare with
    | ordinary _ inside => exact inside
    | element | container => simp [kind, Term.node, Node.kind, expressionKinds] at bare

/-- Of the nodes that are entered, only a spread child is markup afterwards. -/
theorem Placed.isMarkup_iff (placed : Placed ⟨node⟩)
    (enters : enter options ⟨node⟩ = pure entered) :
    IsMarkup entered.kind ↔ node.kind = "JSXSpreadChild" := by
  cases placed with
  | ordinary ordinary inside =>
    cases node with
    | generic kind fields =>
      -- Of the two kinds of markup that are generic, fragments stop the desugaring.
      have fragment := enters_generic_iff.mp ⟨entered, enters⟩
      rw [enter, if_neg fragment] at enters
      cases enters
      constructor
      · exact fun isMarkup => (ordinary isMarkup).resolve_left fragment
      · rintro rfl
        simp [IsMarkup, Node.kind]
    | jsxText value =>
      cases enters
      split <;> simp [IsMarkup, Node.kind, Node.text]
    | jsxElement | jsxContainer | jsxAttribute | jsxSpreadAttribute => cases ordinary
    | _ =>
      -- Names become plain ones, and the other nodes are no markup as they are.
      cases enters
      simp [IsMarkup, Node.kind]
  | element =>
    obtain ⟨_, _, rest⟩ := ok_of_bind enters
    obtain ⟨_, _, call⟩ := ok_of_bind rest
    cases call
    simp [IsMarkup, Node.kind, factoryCall]
  | @container expression _ =>
    have bare := enters_jsxContainer_iff.mp ⟨entered, enters⟩
    rw [enter, if_pos bare] at enters
    cases enters
    exact iff_of_false (not_isMarkup_of_bare bare) (by simp [Node.kind])

theorem stable_ne_spreadChild : Stable fun inner => inner.kind ≠ "JSXSpreadChild" where
  incidental := by
    intro node incidental
    cases node with
    | generic => cases incidental
    | _ => simp [kind, Term.node, Node.kind]
  bare := by
    intro term bare isSpread
    rw [isSpread] at bare
    revert bare
    decide

theorem everywhere_of_indentation (indents : term.isIndentation = true) :
    Everywhere (fun inner => inner.kind ≠ "JSXSpreadChild") term := by
  obtain ⟨node⟩ := term
  cases node with
  | jsxText value => exact everywhere_mk.mpr ⟨by simp [kind, Term.node, Node.kind], nofun⟩
  | _ => cases indents

/-- What is left of the markup in a term are its spread children. -/
theorem Placed.everywhere_not_isMarkup_iff (placed : Placed term)
    (succeeds : term.desugar options = pure result) :
    Everywhere (fun inner => ¬IsMarkup inner.kind) result ↔
      Everywhere (fun inner => inner.kind ≠ "JSXSpreadChild") term := by
  induction term using induction_enter options generalizing result with
  | step term ih =>
    obtain ⟨node⟩ := term
    obtain ⟨entered, parts, enters, alike, rfl, come⟩ := desugar_ok succeeds
    have inside := placed.of_enter enters
    rw [everywhere_mk, everywhere_mk, ← stable_ne_spreadChild.everywhere_entered enters]
    refine and_congr ?_ ⟨fun all inner mem => ?_, fun all inner mem => ?_⟩
    · exact not_congr ((Node.isMarkup_fill alike).trans (placed.isMarkup_iff enters))
    · -- A child that has no result was indentation, which has no spread child in it.
      obtain indents | ⟨result, memResults, desugars⟩ := come.outcome inner mem
      · exact everywhere_of_indentation indents
      · exact (ih entered enters inner mem (inside inner mem) desugars).mp (all result memResults)
    · obtain ⟨item, memItems, desugars⟩ := come.origin inner mem
      exact (ih entered enters item memItems (inside item memItems) desugars).mpr
        (all item memItems)

end Term

namespace Tree

variable {t t' : Tree} {options : Options}

theorem Represents.kind_eq {id : NodeId} {inner : Term} {below : List Place}
    (represents : t.Represents [.node id] [.node inner] below) :
    (t.node id).kind = inner.kind := by
  obtain ⟨parts, _, same, _, below⟩ := Represents.node_iff.mp represents
  obtain rfl := Edge.node.inj same
  exact (Node.kind_fill below.alike).symm

/-- What holds of the kinds in a tree is what holds of those in its term. -/
theorem Represents.forall_kind_iff {term : Term} {footprint : List Place}
    (represents : t.Represents [.node t.root] [.node term] footprint) (C : String → Prop) :
    (∀ id, t.Reachable (.node id) → C (t.node id).kind) ↔
      term.Everywhere fun inner => C inner.kind :=
  represents.forall_reachable_iff fun inner => iff_of_eq (congrArg C inner.kind_eq)

/-- A lowered program that can be desugared is free of markup afterwards exactly
if there is no spread between two tags in it. -/
theorem not_isMarkup_iff_of_desugar (isLowered : t.IsLowered)
    (succeeds : t.desugar options = .ok t') :
    (∀ id, t'.Reachable (.node id) → ¬IsMarkup (t'.node id).kind) ↔
      ∀ id, t.Reachable (.node id) → (t.node id).kind ≠ "JSXSpreadChild" := by
  obtain ⟨program, rfl⟩ := isLowered
  obtain ⟨footprint, owns⟩ := owns_ofProgram program
  obtain ⟨t₁, result, new, desugars, expected, owns'⟩ | ⟨problem, fails, _⟩ :=
    owns.desugar_cases options
  · cases succeeds.symm.trans desugars
    rw [owns'.represents.forall_kind_iff fun kind => ¬IsMarkup kind,
      owns.represents.forall_kind_iff fun kind => kind ≠ "JSXSpreadChild"]
    exact program.placed.everywhere_not_isMarkup_iff expected
  · cases succeeds.symm.trans fails

/-- The program `<a k={x}>{f(<b />)}</a>`. -/
def elementInBraces : Program :=
  ⟨.module, [.expression ⟨0, 24⟩ (.element (.mk ⟨0, 24⟩ (.dotted (.simple ⟨1, 2⟩ "a"))
    [.plain ⟨3, 8⟩ (.simple ⟨3, 4⟩ "k") (some (.container ⟨5, 8⟩ (some (.identifier ⟨6, 7⟩ "x"))))]
    [.container ⟨9, 20⟩ (some (.call ⟨10, 19⟩ (.identifier ⟨10, 11⟩ "f")
      [.plain (.element (.mk ⟨12, 18⟩ (.dotted (.simple ⟨13, 14⟩ "b")) [] [] false))] false))]
    true))]⟩

theorem not_isMarkup_iff_of_desugar_elementInBraces :
    (ofProgram elementInBraces).value.IsLowered ∧
      ∃ t', (ofProgram elementInBraces).value.desugar {} = .ok t' ∧
        t'.Reachable (.node t'.root) ∧
        ∀ id, t'.Reachable (.node id) → ¬IsMarkup (t'.node id).kind := by
  have isLowered : (ofProgram elementInBraces).value.IsLowered := ⟨elementInBraces, rfl⟩
  obtain ⟨footprint, owns⟩ := owns_ofProgram elementInBraces
  obtain ⟨result, desugars⟩ : ∃ result, elementInBraces.lower.value.desugar {} = .ok result :=
    ⟨_, rfl⟩
  obtain ⟨t', _, succeeds, _⟩ := owns.exists_desugar desugars
  refine ⟨isLowered, t', succeeds, .refl, ?_⟩
  rw [not_isMarkup_iff_of_desugar isLowered succeeds,
    owns.represents.forall_kind_iff fun kind => kind ≠ "JSXSpreadChild"]
  -- The lowered program is small enough to look at one subterm after another.
  repeat' first
    | exact List.forall_mem_nil _
    | refine List.forall_mem_cons.mpr ⟨?_, ?_⟩
    | refine Term.everywhere_mk.mpr ⟨by decide +kernel, ?_⟩

/-- The program `<a>{...b}</a>`. -/
def spreadBetweenTags : Program :=
  ⟨.module, [.expression ⟨0, 13⟩ (.element (.mk ⟨0, 13⟩ (.dotted (.simple ⟨1, 2⟩ "a")) []
    [.spread ⟨3, 9⟩ (.identifier ⟨7, 8⟩ "b")] true))]⟩

/-- A spread between two tags is lowered without complaint and outlives the
desugaring. -/
theorem isMarkup_spreadBetweenTags :
    (ofProgram spreadBetweenTags).diagnostics = [] ∧
      ∃ t', (ofProgram spreadBetweenTags).value.desugar {} = .ok t' ∧
        ∃ id, t'.Reachable (.node id) ∧ IsMarkup (t'.node id).kind := by
  obtain ⟨footprint, owned⟩ := owns_ofProgram spreadBetweenTags
  obtain ⟨result, desugars⟩ : ∃ result, spreadBetweenTags.lower.value.desugar {} = .ok result :=
    ⟨_, rfl⟩
  obtain ⟨t', _, succeeds, owns⟩ := owned.exists_desugar desugars
  refine ⟨diagnostics_ofProgram _, t', succeeds, ?_⟩
  -- Were the result free of markup, the lowered program would have no spread child in it.
  by_contra none
  have free : ∀ id, t'.Reachable (.node id) → ¬IsMarkup (t'.node id).kind :=
    fun id reachable isMarkup => none ⟨id, reachable, isMarkup⟩
  rw [owns.represents.forall_kind_iff fun kind => ¬IsMarkup kind,
    spreadBetweenTags.placed.everywhere_not_isMarkup_iff desugars] at free
  refine free (Term.generic "JSXSpreadChild" [("expression", .node (Term.identifier "b"))]) ?_ rfl
  exact .inside List.mem_cons_self (.inside List.mem_cons_self
    (.inside (List.mem_cons_of_mem _ List.mem_cons_self) .here))

end Tree

end JsxFactory
