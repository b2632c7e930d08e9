/-
# Desugaring terms

What desugaring means, without a store: a recursion over terms that gives the
desugared term or the first problem. An element is checked before anything in it
is desugared, its name first and then its entries one by one; then its name, its
entries and its children are desugared from left to right. Braces are judged by
the expression that stands in them before it is desugared.

A walk of a store goes another way about it: it enters a node, which changes only
that node, and then walks the children that the node has got. `enter` is that
first half on terms, and `desugar_eq` says that the recursion is to enter and
then to desugar the children.
-/

import JsxFactory.Desugar
import JsxFactory.Proofs.Subterms

namespace JsxFactory

/-! ## What is checked -/

namespace Node

variable {α β γ δ : Type} {node : Node α β} {others : List (Edge γ δ)}

/-- Whether a node may name a tag: it is a simple or a dotted name. -/
def namesTag (node : Node α β) : Bool :=
  match node.shape with
  | .jsxIdentifier _ | .identifier _ | .jsxMember .. | .member .. => true
  | _ => false

/-- Whether a node may name an attribute: it is a simple name. -/
def namesAttribute (node : Node α β) : Bool :=
  match node.shape with
  | .jsxIdentifier _ => true
  | _ => false

/-- Whether a node may be the value of an attribute: it is a literal or in
braces. -/
def valuesAttribute (node : Node α β) : Bool :=
  match node.shape with
  | .literal _ | .jsxContainer _ => true
  | _ => false

open Edge (Alike)

theorem namesTag_fill (alike : Alike node.edges others) :
    (node.fill others).namesTag = node.namesTag := by
  rw [namesTag, shape_fill alike]
  rfl

theorem namesAttribute_fill (alike : Alike node.edges others) :
    (node.fill others).namesAttribute = node.namesAttribute := by
  rw [namesAttribute, shape_fill alike]
  rfl

theorem valuesAttribute_fill (alike : Alike node.edges others) :
    (node.fill others).valuesAttribute = node.valuesAttribute := by
  rw [valuesAttribute, shape_fill alike]
  rfl

end Node

namespace Term

/-- A tag has a name that will do. -/
def checkTag (name : Term) : Except DesugarError Unit :=
  if name.node.namesTag then return () else throw (.unsupportedName name.kind)

/-- An attribute has a key that will do. -/
def checkKey (key : Term) : Except DesugarError Unit :=
  if key.node.namesAttribute then return () else throw (.unsupportedName key.kind)

/-- An attribute has no value, or one that will do. -/
def checkValue : Option Term → Except DesugarError Unit
  | none => return ()
  | some value =>
    if value.node.valuesAttribute then return ()
    else throw (.unsupportedAttributeValue value.kind)

/-- An entry of a tag is an attribute with a key and a value that will do, or a
spread. -/
def checkEntry : Term → Except DesugarError Unit
  | ⟨.jsxAttribute key value⟩ => do
    checkKey key
    checkValue value
  | ⟨.jsxSpreadAttribute _⟩ => return ()
  | other => throw (.unsupportedAttribute other.kind)

section Fill

open Edge (Alike)

variable {α β : Type} {node : Node α β} {parts : List Part}

theorem checkTag_fill (alike : Alike node.edges parts) :
    checkTag ⟨node.fill parts⟩ =
      if node.namesTag then pure () else throw (.unsupportedName node.kind) := by
  rw [checkTag, kind, Term.node, Node.namesTag_fill alike, Node.kind_fill alike]

theorem checkKey_fill (alike : Alike node.edges parts) :
    checkKey ⟨node.fill parts⟩ =
      if node.namesAttribute then pure () else throw (.unsupportedName node.kind) := by
  rw [checkKey, kind, Term.node, Node.namesAttribute_fill alike, Node.kind_fill alike]

theorem checkValue_fill (alike : Alike node.edges parts) :
    checkValue (some ⟨node.fill parts⟩) =
      if node.valuesAttribute then pure () else throw (.unsupportedAttributeValue node.kind) := by
  rw [checkValue, kind, Term.node, Node.valuesAttribute_fill alike, Node.kind_fill alike]

end Fill

/-- The kinds of expressions that may stand without the braces around them. -/
def expressionKinds : List String :=
  ["MemberExpression", "BinaryExpression", "CallExpression", "ArrowFunctionExpression",
    "Identifier"]

/-- Whether a term is text that only indents. -/
def isIndentation : Term → Bool
  | ⟨.jsxText value⟩ => Text.isIndentation value
  | _ => false

/-! ## What is put together -/

/-- A name as a string literal or as an identifier. -/
def spelled (quoted : Bool) (name : String) : Term :=
  if quoted then text name else identifier name

/-- The name of a tag as the first argument of a call: a simple name is spelled
anew, and any other is what `dotted` says. -/
def tagArgument (options : Options) (name dotted : Term) : Term :=
  match name with
  | ⟨.jsxIdentifier s⟩ | ⟨.identifier s⟩ =>
    spelled (options.quoteIntrinsic && !Text.startsCapital s) s
  | _ => dotted

/-- The key of an attribute as the key of a property. -/
def propertyKey (options : Options) : Term → Term
  | ⟨.jsxIdentifier s⟩ => spelled options.quotePropNames s
  | other => other

/-- The value of an attribute that has none. -/
def trueValue : Term :=
  ⟨.literal (.boolean true)⟩

/-- The properties as the second argument of a call. -/
def attributesArgument (properties : List Term) : Term :=
  if properties.isEmpty then ⟨.literal .null⟩ else ⟨.object properties⟩

/-- The third argument of a call, for an element that has children: an array of
what is in `items`. -/
def childrenArgument (children items : List Term) : List Term :=
  if children.isEmpty then [] else [⟨.array items⟩]

/-- The call of the factory function. -/
def factoryCall (options : Options) (tag attributes : Term) (elements : List Term) :
    Node Term (List Term) :=
  .call (identifier options.factory) (tag :: attributes :: elements) false

/-! ## Desugaring -/

mutual

/-- The desugared term, or the first problem. -/
def desugar (options : Options) : Term → Except DesugarError Term
  | ⟨.hole⟩ => return hole
  | ⟨.jsxElement name attributes children _⟩ => do
    -- All of the tag is checked before anything in it can cause a problem of its own.
    checkTag name
    attributes.forM checkEntry
    let tag ← desugar options name
    let properties ← desugarEntries options attributes
    let items ← desugarItems options children
    return ⟨factoryCall options (tagArgument options name tag) (attributesArgument properties)
      (childrenArgument children items)⟩
  | ⟨.jsxIdentifier name⟩ => return identifier name
  | ⟨.jsxMember base name⟩ => do
    return ⟨.member (← desugar options base) (← desugar options name) false false⟩
  | ⟨.jsxAttribute name none⟩ => do
    return ⟨.jsxAttribute (← desugar options name) none⟩
  | ⟨.jsxAttribute name (some value)⟩ => do
    return ⟨.jsxAttribute (← desugar options name) (some (← desugar options value))⟩
  | ⟨.jsxSpreadAttribute argument⟩ => do
    return ⟨.jsxSpreadAttribute (← desugar options argument)⟩
  | ⟨.jsxContainer expression⟩ =>
    -- The kind is that of the expression as it was written.
    if expression.kind ∈ expressionKinds then desugar options expression
    else throw (.unsupportedExpression expression.kind)
  | ⟨.jsxText value⟩ =>
    return if Text.isIndentation value then hole else text (Text.trim value)
  | ⟨.identifier name⟩ => return identifier name
  | ⟨.literal value⟩ => return ⟨.literal value⟩
  | ⟨.property key value kind method shorthand computed⟩ => do
    return ⟨.property (← desugar options key) (← desugar options value) kind method shorthand
      computed⟩
  | ⟨.spread argument⟩ => do return ⟨.spread (← desugar options argument)⟩
  | ⟨.object properties⟩ => do return ⟨.object (← desugarItems options properties)⟩
  | ⟨.array elements⟩ => do return ⟨.array (← desugarItems options elements)⟩
  | ⟨.call callee arguments optional⟩ => do
    return ⟨.call (← desugar options callee) (← desugarItems options arguments) optional⟩
  | ⟨.member base name computed optional⟩ => do
    return ⟨.member (← desugar options base) (← desugar options name) computed optional⟩
  | ⟨.generic kind fields⟩ =>
    if kind = "JSXFragment" then throw (.unsupportedElement kind)
    else return ⟨.generic kind (← desugarFields options fields)⟩
termination_by structural term => term

/-- The desugared items of a sequence, without those that only indent. -/
def desugarItems (options : Options) : List Term → Except DesugarError (List Term)
  | [] => return []
  | item :: rest => do
    if item.isIndentation then desugarItems options rest
    else return (← desugar options item) :: (← desugarItems options rest)

/-- The properties and the spreads for the entries of a tag. -/
def desugarEntries (options : Options) : List Term → Except DesugarError (List Term)
  | [] => return []
  | ⟨.jsxAttribute key none⟩ :: rest => do
    return ⟨.plainProperty (propertyKey options key) trueValue⟩ :: (← desugarEntries options rest)
  | ⟨.jsxAttribute key (some value)⟩ :: rest => do
    return ⟨.plainProperty (propertyKey options key) (← desugar options value)⟩ ::
      (← desugarEntries options rest)
  | ⟨.jsxSpreadAttribute argument⟩ :: rest => do
    return ⟨.spread (← desugar options argument)⟩ :: (← desugarEntries options rest)
  | other :: _ => throw (.unsupportedAttribute other.kind)

/-- The fields of a generic node with the children in them desugared. -/
def desugarFields (options : Options) :
    List (String × Field Term (List Term)) →
      Except DesugarError (List (String × Field Term (List Term)))
  | [] => return []
  | (key, .node child) :: rest => do
    return (key, .node (← desugar options child)) :: (← desugarFields options rest)
  | (key, .list children) :: rest => do
    return (key, .list (← desugarItems options children)) :: (← desugarFields options rest)
  | (key, .value json) :: rest => do
    return (key, .value json) :: (← desugarFields options rest)

end

/-- The element `<Foo.bar k={f(<b />)} {...p}>` with indentation, text and an
expression in braces inside. -/
def nestedElement : Term :=
  ⟨.jsxElement ⟨.jsxMember ⟨.jsxIdentifier "Foo"⟩ ⟨.jsxIdentifier "bar"⟩⟩
    [⟨.jsxAttribute ⟨.jsxIdentifier "k"⟩
        (some ⟨.jsxContainer
          ⟨.call (identifier "f") [⟨.jsxElement ⟨.jsxIdentifier "b"⟩ [] [] true⟩] false⟩⟩)⟩,
      ⟨.jsxSpreadAttribute (identifier "p")⟩]
    [⟨.jsxText "\n  "⟩, ⟨.jsxText " hi "⟩, ⟨.jsxContainer (identifier "x")⟩] false⟩

/-- The call `h(Foo.bar, {"k": f(h("b", null)), ...p}, ["hi", x])`. -/
def nestedCall : Term :=
  ⟨.call (identifier "h")
    [⟨.member (identifier "Foo") (identifier "bar") false false⟩,
      ⟨.object
        [⟨.plainProperty (text "k")
            ⟨.call (identifier "f")
              [⟨.call (identifier "h") [text "b", ⟨.literal .null⟩] false⟩] false⟩⟩,
          ⟨.spread (identifier "p")⟩]⟩,
      ⟨.array [text "hi", identifier "x"]⟩]
    false⟩

example : nestedElement.desugar {} = .ok nestedCall := rfl

/-! ## Entering a term -/

/-- The property or the spread for an entry of a tag, with nothing desugared. -/
def entryProperty (options : Options) : Term → Term
  | ⟨.jsxAttribute key value⟩ =>
    ⟨.plainProperty (propertyKey options key) (value.getD trueValue)⟩
  | ⟨.jsxSpreadAttribute argument⟩ => ⟨.spread argument⟩
  | other => other

/-- What stands in place of a term when it has been entered, with its children
as they were. -/
def enter (options : Options) : Term → Except DesugarError (Node Term (List Term))
  | ⟨.jsxElement name attributes children _⟩ => do
    checkTag name
    attributes.forM checkEntry
    return factoryCall options (tagArgument options name name)
      (attributesArgument (attributes.map (entryProperty options)))
      (childrenArgument children children)
  | ⟨.jsxIdentifier name⟩ => return .identifier name
  | ⟨.jsxMember base name⟩ => return .member base name false false
  | ⟨.jsxContainer expression⟩ =>
    if expression.kind ∈ expressionKinds then return expression.node
    else throw (.unsupportedExpression expression.kind)
  | ⟨.jsxText value⟩ =>
    return if Text.isIndentation value then .hole else .text (Text.trim value)
  | ⟨.generic kind fields⟩ =>
    if kind = "JSXFragment" then throw (.unsupportedElement kind)
    else return .generic kind fields
  | ⟨node⟩ => return node

variable (options : Options)

theorem desugarFields_eq_mapFields (fields : List (String × Field Term (List Term))) :
    desugarFields options fields =
      Node.mapM.mapFields (desugar options) (desugarItems options) fields := by
  induction fields with
  | nil => rfl
  | cons head rest ih =>
    obtain ⟨key, _ | _ | _⟩ := head <;> simp only [desugarFields, Node.mapM.mapFields, ih]

@[simp] theorem desugar_spelled (quoted : Bool) (name : String) :
    (spelled quoted name).desugar options = pure (spelled quoted name) := by
  cases quoted <;> rfl

@[simp] theorem isIndentation_spelled (quoted : Bool) (name : String) :
    (spelled quoted name).isIndentation = false := by
  cases quoted <;> rfl

@[simp] theorem desugarItems_nil : desugarItems options [] = pure [] := rfl

theorem desugarItems_cons {item : Term} (isItem : item.isIndentation = false) (rest : List Term) :
    desugarItems options (item :: rest) = do
      return (← item.desugar options) :: (← desugarItems options rest) := by
  simp [desugarItems, isItem]

/-- An expression that may stand without its braces is entered as it is. -/
theorem enter_of_bare {term : Term} (bare : term.kind ∈ expressionKinds) :
    enter options term = pure term.node := by
  obtain ⟨node⟩ := term
  cases node with
  | generic kind fields =>
    -- None of the kinds is that of a fragment, so there is nothing to reject.
    have ne : kind ≠ "JSXFragment" := by
      rintro rfl
      simp [kind, node, Node.kind, expressionKinds] at bare
    simp [enter, ne, node]
  | jsxElement | jsxIdentifier | jsxMember | jsxContainer | jsxText =>
    simp [kind, node, Node.kind, expressionKinds] at bare
  | _ => rfl

theorem desugar_tagArgument (name : Term) :
    (tagArgument options name name).desugar options =
      tagArgument options name <$> name.desugar options := by
  obtain ⟨node⟩ := name
  cases node with
  | jsxIdentifier | identifier => simp [tagArgument, desugar]
  | _ => exact (id_map _).symm

theorem isIndentation_tagArgument {name : Term} (supported : checkTag name = pure ()) :
    (tagArgument options name name).isIndentation = false := by
  obtain ⟨node⟩ := name
  cases node with
  | jsxIdentifier | identifier => simp [tagArgument]
  | jsxMember | member => rfl
  | jsxAttribute _ value => cases value <;> cases supported
  | _ => cases supported

theorem desugar_propertyKey {key : Term} (supported : checkKey key = pure ()) :
    (propertyKey options key).desugar options = pure (propertyKey options key) := by
  obtain ⟨node⟩ := key
  cases node with
  | jsxIdentifier => simp [propertyKey]
  | jsxAttribute _ value => cases value <;> cases supported
  | _ => cases supported

/-- If one step after another succeeds, then so does each. -/
theorem ok_of_bind {ε α β : Type} {first : Except ε α} {next : α → Except ε β} {result : β}
    (succeeds : first >>= next = pure result) :
    ∃ middle, first = pure middle ∧ next middle = pure result := by
  cases first with
  | error problem => cases succeeds
  | ok middle => exact ⟨middle, rfl, succeeds⟩

theorem checks_succeed_iff {ε : Type} {first second : Except ε Unit} :
    (do first; second) = pure () ↔ first = pure () ∧ second = pure () := by
  constructor
  · intro succeeds
    obtain ⟨_, first, second⟩ := ok_of_bind succeeds
    exact ⟨first, second⟩
  · rintro ⟨rfl, rfl⟩
    rfl

theorem forM_succeeds_iff {ε α : Type} {items : List α} {check : α → Except ε Unit} :
    items.forM check = pure () ↔ ∀ item ∈ items, check item = pure () := by
  induction items with
  | nil => exact iff_of_true rfl (by simp)
  | cons first rest ih =>
    rw [List.forall_mem_cons, ← ih]
    exact checks_succeed_iff

theorem isIndentation_entryProperty {entry : Term} (supported : checkEntry entry = pure ()) :
    (entryProperty options entry).isIndentation = false := by
  obtain ⟨node⟩ := entry
  cases node with
  | jsxAttribute | jsxSpreadAttribute => rfl
  | _ => cases supported

/-- Desugaring an entry is desugaring the property or the spread for it. -/
theorem desugarEntries_cons {entry : Term} (supported : checkEntry entry = pure ())
    (rest : List Term) :
    desugarEntries options (entry :: rest) = do
      return (← (entryProperty options entry).desugar options) ::
        (← desugarEntries options rest) := by
  obtain ⟨node⟩ := entry
  cases node with
  | jsxAttribute key value =>
    -- The key of the property is as it should be already; only the value is desugared.
    obtain ⟨_, supportedKey, _⟩ := ok_of_bind supported
    have property := desugar_propertyKey options supportedKey
    cases value <;>
      simp [entryProperty, desugar, Node.plainProperty, property, desugarEntries, trueValue]
  | jsxSpreadAttribute argument => simp [entryProperty, desugar, desugarEntries]
  | _ => cases supported

theorem desugarItems_entryProperty {attributes : List Term}
    (supported : attributes.forM checkEntry = pure ()) :
    desugarItems options (attributes.map (entryProperty options)) =
      desugarEntries options attributes := by
  induction attributes with
  | nil => rfl
  | cons entry rest ih =>
    obtain ⟨_, supportedEntry, supportedRest⟩ := ok_of_bind supported
    have isItem := isIndentation_entryProperty options supportedEntry
    rw [List.map_cons, desugarItems_cons options isItem, ih supportedRest,
      desugarEntries_cons options supportedEntry]

theorem desugar_attributesArgument {attributes : List Term}
    (supported : attributes.forM checkEntry = pure ()) :
    (attributesArgument (attributes.map (entryProperty options))).desugar options =
      attributesArgument <$> desugarEntries options attributes := by
  cases attributes with
  | nil => rfl
  | cons entry rest =>
    -- A tag with entries has properties, so the argument is an object both times.
    obtain ⟨_, supportedEntry, _⟩ := ok_of_bind supported
    have properties := desugarItems_entryProperty options supported
    rw [desugarEntries_cons options supportedEntry] at properties ⊢
    have nonempty : attributesArgument ((entry :: rest).map (entryProperty options)) =
        ⟨.object ((entry :: rest).map (entryProperty options))⟩ := rfl
    simp only [nonempty, desugar, properties, map_bind, map_pure, bind_assoc, pure_bind]
    rfl

theorem isIndentation_attributesArgument (properties : List Term) :
    (attributesArgument properties).isIndentation = false := by
  cases properties <;> rfl

theorem desugarItems_childrenArgument (children : List Term) :
    desugarItems options (childrenArgument children children) =
      childrenArgument children <$> desugarItems options children := by
  cases children with
  | nil => rfl
  | cons child rest =>
    have one : desugarItems options [⟨.array (child :: rest)⟩] =
        (fun items => [⟨.array items⟩]) <$> desugarItems options (child :: rest) := by
      rw [desugarItems_cons options rfl]
      simp only [desugar, desugarItems_nil, bind_assoc, pure_bind, map_eq_pure_bind]
    exact one

theorem desugar_jsxElement {name : Term} {attributes : List Term} (children : List Term)
    (selfClosing : Bool) (tag : checkTag name = pure ())
    (entries : attributes.forM checkEntry = pure ()) :
    desugar options ⟨.jsxElement name attributes children selfClosing⟩ =
      enter options ⟨.jsxElement name attributes children selfClosing⟩ >>= fun entered =>
        Term.mk <$> entered.mapM (desugar options) (desugarItems options) := by
  -- None of the arguments is indentation, so that desugaring them leaves none of them out.
  have arguments := desugarItems_cons options (isIndentation_tagArgument options tag)
    (attributesArgument (attributes.map (entryProperty options)) ::
      childrenArgument children children)
  rw [desugarItems_cons options (isIndentation_attributesArgument _), desugar_tagArgument,
    desugar_attributesArgument options entries, desugarItems_childrenArgument] at arguments
  simp only [desugar, enter, tag, entries, pure_bind, factoryCall, Node.mapM, arguments, identifier]
  simp

/-- Entering turns an element into a call and moves an expression out of its
braces; any other node keeps its children. -/
theorem enter_cases {node entered : Node Term (List Term)}
    (succeeds : enter options ⟨node⟩ = pure entered) :
    (∃ name attributes children selfClosing,
      node = .jsxElement name attributes children selfClosing ∧
      checkTag name = pure () ∧ attributes.forM checkEntry = pure () ∧
      entered = factoryCall options (tagArgument options name name)
        (attributesArgument (attributes.map (entryProperty options)))
        (childrenArgument children children)) ∨
    (∃ expression, node = .jsxContainer expression ∧ expression.kind ∈ expressionKinds ∧
      entered = expression.node) ∨
    entered.edges = node.edges := by
  cases node with
  | jsxElement name attributes children selfClosing =>
    obtain ⟨_, tag, rest⟩ := ok_of_bind succeeds
    obtain ⟨_, entries, call⟩ := ok_of_bind rest
    cases call
    exact .inl ⟨name, attributes, children, selfClosing, rfl, tag, entries, rfl⟩
  | jsxContainer expression =>
    by_cases bare : expression.kind ∈ expressionKinds
    · rw [enter, if_pos bare] at succeeds
      cases succeeds
      exact .inr (.inl ⟨expression, rfl, bare, rfl⟩)
    · rw [enter, if_neg bare] at succeeds
      cases succeeds
  | jsxText value =>
    -- Text has no children, whatever becomes of it.
    cases succeeds
    right; right
    split <;> rfl
  | generic kind fields =>
    by_cases fragment : kind = "JSXFragment"
    · rw [enter, if_pos fragment] at succeeds
      cases succeeds
    · rw [enter, if_neg fragment] at succeeds
      cases succeeds
      exact .inr (.inr rfl)
  | _ =>
    cases succeeds
    exact .inr (.inr rfl)

theorem desugar_eq_mapM (term : Term) :
    term.desugar options =
      enter options term >>= fun entered =>
        Term.mk <$> entered.mapM (desugar options) (desugarItems options) := by
  induction term using Term.induction with
  | mk node ih =>
    cases node with
    | jsxElement name attributes children selfClosing =>
      -- Both sides make the same checks in the same order.
      cases tag : checkTag name with
      | error problem =>
        simp only [desugar, enter, tag]
        rfl
      | ok =>
        cases entries : attributes.forM checkEntry with
        | error problem =>
          simp only [desugar, enter, tag, entries]
          rfl
        | ok => exact desugar_jsxElement options children selfClosing tag entries
    | jsxContainer expression =>
      -- The expression is not entered again after it moved: entering it changes nothing.
      have inner := ih expression (by simp [Node.children, Node.edges])
      by_cases bare : expression.kind ∈ expressionKinds
      · rw [enter_of_bare options bare] at inner
        simp only [desugar, enter, if_pos bare, inner, pure_bind]
      · simp only [desugar, enter, if_neg bare]
        rfl
    | jsxText value =>
      cases indents : Text.isIndentation value <;> simp [desugar, enter, indents] <;> rfl
    | generic kind fields =>
      by_cases fragment : kind = "JSXFragment"
      · simp only [desugar, enter, if_pos fragment]
        rfl
      · simp [desugar, enter, fragment, Node.mapM, desugarFields_eq_mapFields]
    | jsxAttribute name value => cases value <;> simp [desugar, enter, Node.mapM]
    | _ => simp [desugar, enter, Node.mapM, hole, identifier]

/-- The desugared children of a node. -/
def desugarParts (parts : List Part) : Except DesugarError (List Part) :=
  parts.mapM (Edge.mapM (desugar options) (desugarItems options))

/-- To desugar a term is to enter it and then to desugar its children. -/
theorem desugar_eq (term : Term) :
    term.desugar options = do
      let entered ← enter options term
      let parts ← desugarParts options entered.edges
      return ⟨entered.fill parts⟩ := by
  simp only [desugar_eq_mapM, Node.mapM_eq_fill, map_eq_pure_bind, bind_assoc, pure_bind,
    desugarParts]

theorem desugarParts_node (inner : Term) (rest : List Part) :
    desugarParts options (.node inner :: rest) = do
      let result ← desugar options inner
      let results ← desugarParts options rest
      return .node result :: results := by
  simp [desugarParts, Edge.mapM]

theorem desugarParts_list (items : List Term) (rest : List Part) :
    desugarParts options (.list items :: rest) = do
      let result ← desugarItems options items
      let results ← desugarParts options rest
      return .list result :: results := by
  simp [desugarParts, Edge.mapM]

theorem desugar_of_indentation {term : Term} (indents : term.isIndentation = true) :
    term.desugar options = pure hole := by
  obtain ⟨node⟩ := term
  cases node with
  | jsxText value => exact congrArg pure (if_pos indents)
  | _ => cases indents

theorem desugarItems_of_indentation {term : Term} (indents : term.isIndentation = true)
    (rest : List Term) :
    desugarItems options (term :: rest) =
      term.desugar options >>= fun _ => desugarItems options rest := by
  rw [desugarItems, if_pos indents, desugar_of_indentation options indents, pure_bind]

end Term

end JsxFactory
