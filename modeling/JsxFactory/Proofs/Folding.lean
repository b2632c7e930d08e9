/-
# What holds of every lowered program

Lowering is one fold, taken with different algebras: terms, slots of a store, terms that
are labelled with what they came from. What two algebras make of the same program is
related as soon as their constructors keep the relation (`Program.fold_related`), and a
property of one algebra is a relation that looks at one side only. The constructors are
those that lowering uses, each for the role that its result may play: `NodesRelated` lists
them, with the kinds and fields of its generic nodes in `genericShapes`.
-/

import JsxFactory.Program.Lowering
import JsxFactory.Proofs.Subterms
import Mathlib.Data.List.Forall2

namespace JsxFactory

namespace Reported

variable {α β : Type}

@[simp] theorem diagnostics_pure (value : α) : (pure value : Reported α).diagnostics = [] := rfl

@[simp] theorem diagnostics_bind (first : Reported α) (next : α → Reported β) :
    (first >>= next).diagnostics = first.diagnostics ++ (next first.value).diagnostics := rfl

@[simp] theorem value_pure (value : α) : (pure value : Reported α).value = value := rfl

@[simp] theorem value_bind (first : Reported α) (next : α → Reported β) :
    (first >>= next).value = (next first.value).value := rfl

@[simp] theorem diagnostics_map (f : α → β) (inner : Reported α) :
    (f <$> inner).diagnostics = inner.diagnostics :=
  List.append_nil _

@[simp] theorem value_map (f : α → β) (inner : Reported α) :
    (f <$> inner).value = f inner.value := rfl

theorem ext {first second : Reported α} (value : first.value = second.value)
    (diagnostics : first.diagnostics = second.diagnostics) : first = second := by
  cases first
  cases second
  cases value
  cases diagnostics
  rfl

instance : LawfulMonad Reported :=
  .mk' Reported (fun _ => ext rfl (List.append_nil _)) (fun _ _ => rfl)
    (fun _ _ _ => ext rfl (List.append_assoc ..))

end Reported

namespace Program

/-- The kinds of generic nodes that lowering makes where any part may stand, with their
fields. -/
def genericShapes : List (String × List String) :=
  [("Program", ["sourceType", "body"]), ("ExpressionStatement", ["expression"]),
    ("ReturnStatement", ["argument"]), ("BlockStatement", ["body"]),
    ("IfStatement", ["test", "consequent", "alternate"]),
    ("VariableDeclaration", ["declarations", "kind"]), ("VariableDeclarator", ["id", "init"]),
    ("FunctionDeclaration", ["id", "expression", "generator", "async", "params", "body"]),
    ("FunctionExpression", ["id", "expression", "generator", "async", "params", "body"]),
    ("ArrowFunctionExpression", ["id", "expression", "generator", "async", "params", "body"]),
    ("ImportDeclaration", ["specifiers", "source"]), ("ImportSpecifier", ["imported", "local"]),
    ("ImportDefaultSpecifier", ["local"]), ("ImportNamespaceSpecifier", ["local"]),
    ("ExportDefaultDeclaration", ["declaration"]),
    ("ExportNamedDeclaration", ["declaration", "specifiers", "source"]),
    ("ExportSpecifier", ["local", "exported"]), ("ThisExpression", []),
    ("TemplateLiteral", ["quasis", "expressions"]), ("TemplateElement", ["value", "tail"]),
    ("BinaryExpression", ["operator", "left", "right"]),
    ("LogicalExpression", ["operator", "left", "right"]),
    ("UnaryExpression", ["operator", "prefix", "argument"]),
    ("AssignmentExpression", ["operator", "left", "right"]),
    ("ConditionalExpression", ["test", "consequent", "alternate"]),
    ("NewExpression", ["callee", "arguments"]), ("JSXFragment", ["children"]),
    ("JSXSpreadChild", ["expression"])]

/-- The plain data that lowering puts in fields. -/
inductive IsFieldData : Json → Prop
  | text (s : String) : IsFieldData (.string s)
  | flag (b : Bool) : IsFieldData (.bool b)
  | null : IsFieldData .null
  | spelling (quasi : Quasi) : IsFieldData quasi.spelling

/-- The parts that something may play in a lowered program. -/
inductive Role
  /-- Anything that may stand anywhere, a hole too. -/
  | part
  /-- The same, but no hole. -/
  | solid
  /-- An entry of a tag. -/
  | entry
  /-- The name of a tag or an attribute. -/
  | name
  /-- A name without a namespace. -/
  | dotted
  /-- What stands in empty braces. -/
  | empty

section Related

variable {α β : Type} (R : Role → α → β → Prop)

/-- Fields with the given names that agree in their data and are related in their
children. -/
inductive FieldsRelated : List String → List (String × Field α (List α)) →
    List (String × Field β (List β)) → Prop
  | nil : FieldsRelated [] [] []
  | node {key : String} {keys : List String} {a : α} {b : β}
      {fields : List (String × Field α (List α))} {others : List (String × Field β (List β))} :
    R .part a b → FieldsRelated keys fields others →
    FieldsRelated (key :: keys) ((key, .node a) :: fields) ((key, .node b) :: others)
  | list {key : String} {keys : List String} {as : List α} {bs : List β}
      {fields : List (String × Field α (List α))} {others : List (String × Field β (List β))} :
    List.Forall₂ (R .part) as bs → FieldsRelated keys fields others →
    FieldsRelated (key :: keys) ((key, .list as) :: fields) ((key, .list bs) :: others)
  | value {key : String} {keys : List String} {json : Json}
      {fields : List (String × Field α (List α))} {others : List (String × Field β (List β))} :
    IsFieldData json → FieldsRelated keys fields others →
    FieldsRelated (key :: keys) ((key, .value json) :: fields) ((key, .value json) :: others)

/-- Nodes of one shape that lowering makes for a role, related in their children. -/
inductive NodesRelated : Role → Node α (List α) → Node β (List β) → Prop
  | identifier (name : String) : NodesRelated .solid (.identifier name) (.identifier name)
  | literal (value : Primitive) : NodesRelated .solid (.literal value) (.literal value)
  | member {object property : α} {object' property' : β} {computed optional : Bool} :
    R .part object object' → R .part property property' →
    NodesRelated .solid (.member object property computed optional)
      (.member object' property' computed optional)
  | call {callee : α} {callee' : β} {arguments : List α} {arguments' : List β}
      {optional : Bool} :
    R .part callee callee' → List.Forall₂ (R .part) arguments arguments' →
    NodesRelated .solid (.call callee arguments optional) (.call callee' arguments' optional)
  | object {properties : List α} {properties' : List β} :
    List.Forall₂ (R .part) properties properties' →
    NodesRelated .solid (.object properties) (.object properties')
  | property {key value : α} {key' value' : β} {kind : PropertyKind}
      {method shorthand computed : Bool} :
    R .part key key' → R .part value value' →
    NodesRelated .solid (.property key value kind method shorthand computed)
      (.property key' value' kind method shorthand computed)
  | spread {argument : α} {argument' : β} :
    R .part argument argument' → NodesRelated .solid (.spread argument) (.spread argument')
  | generic {kind : String} {keys : List String} {fields : List (String × Field α (List α))}
      {others : List (String × Field β (List β))} :
    (kind, keys) ∈ genericShapes → FieldsRelated R keys fields others →
    NodesRelated .solid (.generic kind fields) (.generic kind others)
  | text (value : String) : NodesRelated .solid (.jsxText value) (.jsxText value)
  | container {expression : α} {expression' : β} :
    R .part expression expression' →
    NodesRelated .solid (.jsxContainer expression) (.jsxContainer expression')
  | emptyContainer {expression : α} {expression' : β} :
    R .empty expression expression' →
    NodesRelated .solid (.jsxContainer expression) (.jsxContainer expression')
  | element {name : α} {name' : β} {attributes children : List α}
      {attributes' children' : List β} {selfClosing : Bool} :
    R .name name name' → List.Forall₂ (R .entry) attributes attributes' →
    List.Forall₂ (R .part) children children' →
    NodesRelated .solid (.jsxElement name attributes children selfClosing)
      (.jsxElement name' attributes' children' selfClosing)
  | plainAttribute {name : α} {name' : β} {value : Option α} {value' : Option β} :
    R .name name name' → Option.Rel (R .solid) value value' →
    NodesRelated .entry (.jsxAttribute name value) (.jsxAttribute name' value')
  | spreadAttribute {argument : α} {argument' : β} :
    R .part argument argument' →
    NodesRelated .entry (.jsxSpreadAttribute argument) (.jsxSpreadAttribute argument')
  | simpleName (name : String) :
    NodesRelated .dotted (.jsxIdentifier name) (.jsxIdentifier name)
  | memberName {object property : α} {object' property' : β} :
    R .dotted object object' → R .dotted property property' →
    NodesRelated .dotted (.jsxMember object property) (.jsxMember object' property')
  | namespacedName {space name : α} {space' name' : β} :
    R .dotted space space' → R .dotted name name' →
    NodesRelated .name
      (.generic "JSXNamespacedName" [("namespace", .node space), ("name", .node name)])
      (.generic "JSXNamespacedName" [("namespace", .node space'), ("name", .node name')])
  | empty :
    NodesRelated .empty (.generic "JSXEmptyExpression" []) (.generic "JSXEmptyExpression" [])

/-- A relation that two algebras keep, for each role. -/
structure Related (A : Algebra α) (B : Algebra β) : Prop where
  node : ∀ {role node node'}, NodesRelated R role node node' → R role (A.node node) (B.node node')
  array : ∀ {elements elements'}, List.Forall₂ (Option.Rel (R .part)) elements elements' →
    R .solid (A.array elements) (B.array elements')
  unsupported : ∀ what span, R .part (A.unsupported what span) (B.unsupported what span)
  abandoning : ∀ {a b} name, R .part a b → R .part (A.abandoning name a) (B.abandoning name b)
  part : ∀ {a b}, R .solid a b → R .part a b
  name : ∀ {a b}, R .dotted a b → R .name a b

variable {R}

theorem list_related {γ : Type} {f : γ → α} {g : γ → β} (each : ∀ item, R .part (f item) (g item))
    (items : List γ) : List.Forall₂ (R .part) (items.map f) (items.map g) := by
  induction items with
  | nil => exact .nil
  | cons item rest ih => exact .cons (each item) ih

theorem FieldsRelated.optional {key : String} {keys : List String} {a : Option α} {b : Option β}
    {fields : List (String × Field α (List α))} {others : List (String × Field β (List β))}
    (child : Option.Rel (R .part) a b) (rest : FieldsRelated R keys fields others) :
    FieldsRelated R (key :: keys) ((key, Program.optional a) :: fields)
      ((key, Program.optional b) :: others) := by
  cases child with
  | some related => exact .node related rest
  | none => exact .value .null rest

variable {A : Algebra α} {B : Algebra β} (related : Related R A B)

include related

theorem generic_related {kind : String} {keys : List String}
    {fields : List (String × Field α (List α))} {others : List (String × Field β (List β))}
    (shape : (kind, keys) ∈ genericShapes) (inside : FieldsRelated R keys fields others) :
    R .solid (A.generic kind fields) (B.generic kind others) :=
  related.node (.generic shape inside)

theorem identifier_related (name : String) : R .part (A.identifier name) (B.identifier name) :=
  related.part (related.node (.identifier name))

theorem text_related (value : String) : R .solid (A.text value) (B.text value) :=
  related.node (.literal _)

theorem markupName_related (name : String) :
    R .dotted (A.markupName name) (B.markupName name) :=
  related.node (.simpleName name)

theorem namespacedName_related (space name : String) :
    R .name (A.namespacedName space name) (B.namespacedName space name) :=
  related.node
    (.namespacedName (markupName_related related space) (markupName_related related name))

theorem block_related {as : List α} {bs : List β} (inside : List.Forall₂ (R .part) as bs) :
    R .part (A.block as) (B.block bs) :=
  related.part (generic_related related (by decide) (.list inside .nil))

theorem variableDeclaration_related (kind : String) {as : List α} {bs : List β}
    (inside : List.Forall₂ (R .part) as bs) :
    R .part (A.variableDeclaration kind as) (B.variableDeclaration kind bs) :=
  related.part (generic_related related (by decide) (.list inside (.value (.text kind) .nil)))

theorem fragment_related {as : List α} {bs : List β} (inside : List.Forall₂ (R .part) as bs) :
    R .solid (A.fragment as) (B.fragment bs) :=
  generic_related related (by decide) (.list inside .nil)

theorem container_related {a : Option α} {b : Option β} (inside : Option.Rel (R .part) a b) :
    R .solid (A.container a) (B.container b) := by
  cases inside with
  | some inside => exact related.node (.container inside)
  | none => exact related.node (.emptyContainer (related.node .empty))

theorem foldNumber_related (span : Span) (value : Option Double) :
    R .part (foldNumber A span value) (foldNumber B span value) := by
  cases value with
  | none => exact related.unsupported _ _
  | some => exact related.part (related.node (.literal _))

theorem Binding.fold_related (binding : Binding) : R .part (binding.fold A) (binding.fold B) := by
  cases binding with
  | identifier _ name => exact identifier_related related name
  | pattern => exact related.unsupported _ _

theorem ExportName.fold_related (name : ExportName) : R .part (name.fold A) (name.fold B) := by
  cases name with
  | identifier _ name => exact identifier_related related name
  | string _ value => exact related.part (text_related related value)

theorem ImportSpecifier.fold_related (specifier : ImportSpecifier) :
    R .part (specifier.fold A) (specifier.fold B) := by
  have binding := identifier_related related
  cases specifier with
  | named _ imported name =>
    exact related.part (generic_related related (by decide)
      (.node (imported.fold_related related) (.node (binding name) .nil)))
  | default _ name | all _ name =>
    exact related.part (generic_related related (by decide) (.node (binding name) .nil))

theorem ExportSpecifier.fold_related (specifier : ExportSpecifier) :
    R .part (specifier.fold A) (specifier.fold B) :=
  related.part (generic_related related (by decide)
    (.node (specifier.inner.fold_related related)
      (.node (specifier.exported.fold_related related) .nil)))

theorem Quasi.fold_related (quasi : Quasi) : R .part (quasi.fold A) (quasi.fold B) :=
  related.part (generic_related related (by decide)
    (.value (.spelling quasi) (.value (.flag quasi.tail) .nil)))

theorem DottedName.fold_related (name : DottedName) : R .dotted (name.fold A) (name.fold B) := by
  induction name with
  | simple _ name => exact markupName_related related name
  | member _ _ property ih =>
    exact related.node (.memberName ih (markupName_related related property))

theorem TagName.fold_related (name : TagName) : R .name (name.fold A) (name.fold B) := by
  cases name with
  | dotted name => exact related.name (name.fold_related related)
  | namespaced _ space name => exact namespacedName_related related space name

theorem AttributeName.fold_related (name : AttributeName) :
    R .name (name.fold A) (name.fold B) := by
  cases name with
  | simple _ name => exact related.name (markupName_related related name)
  | namespaced _ space name => exact namespacedName_related related space name

-- The linter misses that a theorem of the block uses it through another one.
set_option linter.unusedSectionVars false in
mutual

theorem Expression.fold_related : ∀ expression : Expression,
    R .part (expression.fold A) (expression.fold B)
  | .identifier _ name => identifier_related related name
  | .string _ value => related.part (text_related related value)
  | .boolean .. | .null _ => related.part (related.node (.literal _))
  | .number span value => foldNumber_related related span value
  | .template _ quasis expressions =>
    related.part (generic_related related (by decide)
      (.list (list_related (Quasi.fold_related related) quasis)
        (.list (foldExpressions_related expressions) .nil)))
  | .this _ => related.part (generic_related related (by decide) .nil)
  | .parenthesized _ inner => inner.fold_related
  | .staticMember _ target name _ =>
    related.part (related.node
      (.member target.fold_related (identifier_related related name)))
  | .computedMember _ target key _ =>
    related.part (related.node (.member target.fold_related key.fold_related))
  | .binary _ operator left right =>
    related.part (generic_related related (by decide)
      (.value (.text operator) (.node left.fold_related (.node right.fold_related .nil))))
  | .logical _ operator left right =>
    related.part (generic_related related (by decide)
      (.value (.text operator) (.node left.fold_related (.node right.fold_related .nil))))
  | .unary _ operator argument =>
    related.part (generic_related related (by decide)
      (.value (.text operator) (.value (.flag true) (.node argument.fold_related .nil))))
  | .assignment _ operator target value =>
    related.part (generic_related related (by decide)
      (.value (.text operator) (.node target.fold_related (.node value.fold_related .nil))))
  | .conditional _ test consequent alternate =>
    related.part (generic_related related (by decide)
      (.node test.fold_related (.node consequent.fold_related
        (.node alternate.fold_related .nil))))
  | .call _ callee arguments _ =>
    related.part (related.node
      (.call callee.fold_related (foldArguments_related arguments)))
  | .construction _ callee arguments =>
    related.part (generic_related related (by decide)
      (.node callee.fold_related (.list (foldArguments_related arguments) .nil)))
  | .function function => function.fold_related (by decide)
  -- With a rest parameter there is a hole in place of the whole function.
  | .arrow _ _ _ ⟨_, some _⟩ _ _ => related.unsupported _ _
  | .arrow _ isExpression isAsync ⟨items, none⟩ span statements => by
    have parameters := list_related (Binding.fold_related related) items
    have body : R .part
        (if isExpression then foldExpressionBody A span statements
          else A.block (foldStatements A statements))
        (if isExpression then foldExpressionBody B span statements
          else B.block (foldStatements B statements)) := by
      split
      · exact foldExpressionBody_related span statements
      · exact block_related related (foldStatements_related statements)
    exact related.part (generic_related related (by decide)
      (.value .null (.value (.flag isExpression) (.value (.flag false)
        (.value (.flag isAsync) (.list parameters (.node body .nil)))))))
  | .array _ elements => related.part (related.array (foldElements_related elements))
  | .object _ properties =>
    related.part (related.node (.object (foldProperties_related properties)))
  | .element element => related.part element.fold_related
  | .fragment _ children =>
    related.part (fragment_related related (foldChildren_related children))
  | .unsupported _ => related.unsupported _ _
termination_by structural expression => expression

theorem foldExpressions_related : ∀ expressions : List Expression,
    List.Forall₂ (R .part) (foldExpressions A expressions) (foldExpressions B expressions)
  | [] => .nil
  | expression :: rest => .cons expression.fold_related (foldExpressions_related rest)

theorem Target.fold_related : ∀ target : Target, R .part (target.fold A) (target.fold B)
  | .identifier _ name => identifier_related related name
  | .staticMember _ target name _ =>
    related.part (related.node
      (.member target.fold_related (identifier_related related name)))
  | .computedMember _ target key _ =>
    related.part (related.node (.member target.fold_related key.fold_related))
  | .unsupported _ => related.unsupported _ _

theorem Argument.fold_related : ∀ argument : Argument,
    R .part (argument.fold A) (argument.fold B)
  | .plain value => value.fold_related
  | .spread _ value => related.part (related.node (.spread value.fold_related))

theorem foldArguments_related : ∀ arguments : List Argument,
    List.Forall₂ (R .part) (foldArguments A arguments) (foldArguments B arguments)
  | [] => .nil
  | argument :: rest => .cons argument.fold_related (foldArguments_related rest)

theorem foldElements_related : ∀ elements : List (Option Argument),
    List.Forall₂ (Option.Rel (R .part)) (foldElements A elements) (foldElements B elements)
  | [] => .nil
  | none :: rest => .cons .none (foldElements_related rest)
  | some element :: rest => .cons (.some element.fold_related) (foldElements_related rest)

theorem PropertyKey.fold_related : ∀ key : PropertyKey, R .part (key.fold A) (key.fold B)
  | .name _ name => identifier_related related name
  | .privateName _ => related.unsupported _ _
  | .expression value => value.fold_related

theorem Property.fold_related : ∀ property : Property,
    R .part (property.fold A) (property.fold B)
  | .plain _ key value _ _ _ _ =>
    related.part (related.node (.property key.fold_related value.fold_related))
  | .spread _ value => related.part (related.node (.spread value.fold_related))

theorem foldProperties_related : ∀ properties : List Property,
    List.Forall₂ (R .part) (foldProperties A properties) (foldProperties B properties)
  | [] => .nil
  | property :: rest => .cons property.fold_related (foldProperties_related rest)

theorem Function.fold_related {kind : String}
    (shape : (kind, ["id", "expression", "generator", "async", "params", "body"]) ∈
      genericShapes) :
    ∀ function : Function, R .part (function.fold A kind) (function.fold B kind)
  -- Only a function that has a name leaves something behind.
  | .mk _ (some name) _ _ ⟨_, some _⟩ _ => related.abandoning name (related.unsupported _ _)
  | .mk _ none _ _ ⟨_, some _⟩ _ => related.unsupported _ _
  | .mk _ name isGenerator isAsync ⟨items, none⟩ body => by
    have id : Option.Rel (R .part) (name.map A.identifier) (name.map B.identifier) := by
      cases name with
      | none => exact .none
      | some name => exact .some (identifier_related related name)
    have parameters := list_related (Binding.fold_related related) items
    exact related.part (generic_related related shape
      (.optional id (.value (.flag false) (.value (.flag isGenerator) (.value (.flag isAsync)
        (.list parameters (.optional (foldBody_related body) .nil)))))))

theorem foldBody_related : ∀ body : Option (List Statement),
    Option.Rel (R .part) (foldBody A body) (foldBody B body)
  | none => .none
  | some statements => .some (block_related related (foldStatements_related statements))

theorem foldExpressionBody_related (span : Span) : ∀ statements : List Statement,
    R .part (foldExpressionBody A span statements) (foldExpressionBody B span statements)
  | .expression _ value :: _ => value.fold_related
  -- A body that is said to be an expression, and is not one statement with it, is not supported.
  | [] => related.unsupported _ _
  | .returns .. :: _ | .variables .. :: _ | .function _ :: _ | .block .. :: _
  | .conditional .. :: _ | .imports .. :: _ | .exportDefault .. :: _ | .exportNamed .. :: _
  | .unsupported _ :: _ => related.unsupported _ _

theorem Statement.fold_related : ∀ statement : Statement,
    R .part (statement.fold A) (statement.fold B)
  | .expression _ value =>
    related.part (generic_related related (by decide) (.node value.fold_related .nil))
  | .returns _ value =>
    related.part (generic_related related (by decide)
      (.optional (foldOptional_related value) .nil))
  | .variables _ kind declarators =>
    variableDeclaration_related related kind (foldDeclarators_related declarators)
  | .function function => function.fold_related (by decide)
  | .block _ body => block_related related (foldStatements_related body)
  | .conditional _ test consequent alternate =>
    related.part (generic_related related (by decide)
      (.node test.fold_related (.node consequent.fold_related
        (.optional (foldAlternate_related alternate) .nil))))
  | .imports _ specifiers source =>
    related.part (generic_related related (by decide)
      (.list (list_related (ImportSpecifier.fold_related related) specifiers)
        (.node (related.part (text_related related source)) .nil)))
  | .exportDefault _ declaration =>
    related.part (generic_related related (by decide) (.node declaration.fold_related .nil))
  | .exportNamed _ declaration specifiers source => by
    have origin : Option.Rel (R .part) (source.map A.text) (source.map B.text) := by
      cases source with
      | none => exact .none
      | some source => exact .some (related.part (text_related related source))
    exact related.part (generic_related related (by decide)
      (.optional (foldDeclaration_related declaration)
        (.list (list_related (ExportSpecifier.fold_related related) specifiers)
          (.optional origin .nil))))
  | .unsupported _ => related.unsupported _ _

theorem foldStatements_related : ∀ statements : List Statement,
    List.Forall₂ (R .part) (foldStatements A statements) (foldStatements B statements)
  | [] => .nil
  | statement :: rest => .cons statement.fold_related (foldStatements_related rest)

theorem foldOptional_related : ∀ value : Option Expression,
    Option.Rel (R .part) (foldOptional A value) (foldOptional B value)
  | none => .none
  | some expression => .some expression.fold_related

theorem foldAlternate_related : ∀ alternate : Option Statement,
    Option.Rel (R .part) (foldAlternate A alternate) (foldAlternate B alternate)
  | none => .none
  | some statement => .some statement.fold_related

theorem Declarator.fold_related : ∀ declarator : Declarator,
    R .part (declarator.fold A) (declarator.fold B)
  | .mk _ binding value =>
    related.part (generic_related related (by decide)
      (.node (binding.fold_related related) (.optional (foldOptional_related value) .nil)))

theorem foldDeclarators_related : ∀ declarators : List Declarator,
    List.Forall₂ (R .part) (foldDeclarators A declarators) (foldDeclarators B declarators)
  | [] => .nil
  | declarator :: rest => .cons declarator.fold_related (foldDeclarators_related rest)

theorem DefaultExport.fold_related : ∀ declaration : DefaultExport,
    R .part (declaration.fold A) (declaration.fold B)
  | .function function => function.fold_related (by decide)
  | .expression value => value.fold_related
  | .unsupported _ => related.unsupported _ _

theorem foldDeclaration_related : ∀ declaration : Option Declaration,
    Option.Rel (R .part) (foldDeclaration A declaration) (foldDeclaration B declaration)
  | none => .none
  | some declaration => .some declaration.fold_related

theorem Declaration.fold_related : ∀ declaration : Declaration,
    R .part (declaration.fold A) (declaration.fold B)
  | .variables _ kind declarators =>
    variableDeclaration_related related kind (foldDeclarators_related declarators)
  | .function function => function.fold_related (by decide)
  | .unsupported _ => related.unsupported _ _

theorem Element.fold_related : ∀ element : Element,
    R .solid (element.fold A) (element.fold B)
  | .mk _ name attributes children _ =>
    related.node (.element (name.fold_related related) (foldAttributes_related attributes)
      (foldChildren_related children))

theorem Attribute.fold_related : ∀ entry : Attribute, R .entry (entry.fold A) (entry.fold B)
  | .plain _ name value =>
    related.node (.plainAttribute (name.fold_related related) (foldAttributeValue_related value))
  | .spread _ value => related.node (.spreadAttribute value.fold_related)

theorem foldAttributes_related : ∀ attributes : List Attribute,
    List.Forall₂ (R .entry) (foldAttributes A attributes) (foldAttributes B attributes)
  | [] => .nil
  | entry :: rest => .cons entry.fold_related (foldAttributes_related rest)

theorem foldAttributeValue_related : ∀ value : Option AttributeValue,
    Option.Rel (R .solid) (foldAttributeValue A value) (foldAttributeValue B value)
  | none => .none
  | some value => .some value.fold_related

theorem AttributeValue.fold_related : ∀ value : AttributeValue,
    R .solid (value.fold A) (value.fold B)
  | .string .. => text_related related _
  | .container _ value => container_related related (foldOptional_related value)
  | .element element => element.fold_related
  | .fragment _ children => fragment_related related (foldChildren_related children)

theorem Child.fold_related : ∀ child : Child, R .part (child.fold A) (child.fold B)
  | .text .. => related.part (related.node (.text _))
  | .container _ value => related.part (container_related related (foldOptional_related value))
  | .spread _ value =>
    related.part (generic_related related (by decide) (.node value.fold_related .nil))
  | .element element => related.part element.fold_related
  | .fragment _ children =>
    related.part (fragment_related related (foldChildren_related children))

theorem foldChildren_related : ∀ children : List Child,
    List.Forall₂ (R .part) (foldChildren A children) (foldChildren B children)
  | [] => .nil
  | child :: rest => .cons child.fold_related (foldChildren_related rest)

end

/-- A relation that two algebras keep holds between what they make of a program. -/
theorem fold_related (program : Program) : R .solid (program.fold A) (program.fold B) :=
  generic_related related (by decide)
    (.value (.text _) (.list (foldStatements_related related program.body) .nil))

end Related

/-! ## Relations that do not look at roles -/

section Edges

variable {α β : Type} {R : Role → α → β → Prop} {Q Q' : α → β → Prop}

/-- Edges that are related in their children. -/
inductive EdgesRelated (Q : α → β → Prop) : Edge α (List α) → Edge β (List β) → Prop
  | node {a : α} {b : β} : Q a b → EdgesRelated Q (.node a) (.node b)
  | list {as : List α} {bs : List β} : List.Forall₂ Q as bs → EdgesRelated Q (.list as) (.list bs)

theorem EdgesRelated.imp (implies : ∀ a b, Q a b → Q' a b) {edge : Edge α (List α)}
    {other : Edge β (List β)} (related : EdgesRelated Q edge other) :
    EdgesRelated Q' edge other := by
  cases related with
  | node child => exact .node (implies _ _ child)
  | list children => exact .list (children.imp implies)

theorem edges_alike {edges : List (Edge α (List α))} {others : List (Edge β (List β))}
    (related : List.Forall₂ (EdgesRelated Q) edges others) : Edge.Alike edges others := by
  induction related with
  | nil => exact .nil
  | cons first _ ih =>
    cases first with
    | node => exact .node ih
    | list => exact .list ih

/-- Elements that are related stay so when the missing ones are filled in. -/
theorem filled_related {a : α} {b : β} (missing : Q a b) {elements : List (Option α)}
    {others : List (Option β)} (each : List.Forall₂ (Option.Rel Q) elements others) :
    List.Forall₂ Q (elements.map (·.getD a)) (others.map (·.getD b)) := by
  induction each with
  | nil => exact .nil
  | cons first _ ih =>
    cases first with
    | none => exact .cons missing ih
    | some related => exact .cons related ih

/-- What is related in some role. -/
abbrev InSomeRole (R : Role → α → β → Prop) (a : α) (b : β) : Prop :=
  ∃ role, R role a b

theorem inSomeRole {role : Role} {as : List α} {bs : List β}
    (related : List.Forall₂ (R role) as bs) : List.Forall₂ (InSomeRole R) as bs :=
  related.imp fun _ _ inner => ⟨role, inner⟩

theorem FieldsRelated.edges {keys : List String} {fields : List (String × Field α (List α))}
    {others : List (String × Field β (List β))} (related : FieldsRelated R keys fields others) :
    Node.fillFields fields ((Node.fieldEdges fields).map Edge.shape) =
        Node.fillFields others ((Node.fieldEdges others).map Edge.shape) ∧
      List.Forall₂ (EdgesRelated (InSomeRole R)) (Node.fieldEdges fields)
        (Node.fieldEdges others) := by
  induction related with
  | nil => exact ⟨rfl, .nil⟩
  | node child _ ih => exact ⟨congrArg (_ :: ·) ih.1, .cons (.node ⟨_, child⟩) ih.2⟩
  | list children _ ih =>
    exact ⟨congrArg (_ :: ·) ih.1, .cons (.list (inSomeRole children)) ih.2⟩
  | value _ _ ih =>
    -- Plain data has no edge, so it is part of the shape.
    refine ⟨?_, ih.2⟩
    simpa only [Node.fieldEdges_value, Node.fillFields] using congrArg (_ :: ·) ih.1

/-- What is related has one shape and related edges. -/
theorem NodesRelated.edges {role : Role} {node : Node α (List α)} {node' : Node β (List β)}
    (related : NodesRelated R role node node') :
    node.shape = node'.shape ∧
      List.Forall₂ (EdgesRelated (InSomeRole R)) node.edges node'.edges := by
  cases related with
  | identifier | literal | text | simpleName | empty => exact ⟨rfl, .nil⟩
  | spread child | container child | emptyContainer child | spreadAttribute child =>
    exact ⟨rfl, .cons (.node ⟨_, child⟩) .nil⟩
  | member first second | property first second | memberName first second
  | namespacedName first second =>
    exact ⟨rfl, .cons (.node ⟨_, first⟩) (.cons (.node ⟨_, second⟩) .nil)⟩
  | call callee arguments =>
    exact ⟨rfl, .cons (.node ⟨_, callee⟩) (.cons (.list (inSomeRole arguments)) .nil)⟩
  | object properties => exact ⟨rfl, .cons (.list (inSomeRole properties)) .nil⟩
  | generic _ inside =>
    obtain ⟨same, edges⟩ := inside.edges
    exact ⟨congrArg (Node.generic _) same, edges⟩
  | element name attributes children =>
    exact ⟨rfl, .cons (.node ⟨_, name⟩) (.cons (.list (inSomeRole attributes))
      (.cons (.list (inSomeRole children)) .nil))⟩
  | plainAttribute name value =>
    cases value with
    | none => exact ⟨rfl, .cons (.node ⟨_, name⟩) .nil⟩
    | some value => exact ⟨rfl, .cons (.node ⟨_, name⟩) (.cons (.node ⟨_, value⟩) .nil)⟩

/-- A relation that is kept by nodes of one shape, whatever the shape. -/
theorem Related.of_edges {A : Algebra α} {B : Algebra β}
    (node : ∀ {node node'}, node.shape = node'.shape →
      List.Forall₂ (EdgesRelated Q) node.edges node'.edges → Q (A.node node) (B.node node'))
    (array : ∀ {elements elements'}, List.Forall₂ (Option.Rel Q) elements elements' →
      Q (A.array elements) (B.array elements'))
    (unsupported : ∀ what span, Q (A.unsupported what span) (B.unsupported what span))
    (abandoning : ∀ {a b} name, Q a b → Q (A.abandoning name a) (B.abandoning name b)) :
    Related (fun _ => Q) A B where
  node related := by
    obtain ⟨same, edges⟩ := related.edges
    exact node same (edges.imp fun _ _ edge => edge.imp fun _ _ inner => inner.elim fun _ q => q)
  array := array
  unsupported := unsupported
  abandoning := abandoning
  part related := related
  name related := related

end Edges

/-! ## The algebra of terms -/

/-- The part that an edge leads to, reports aside. -/
def loweredPart : Edge (Reported Term) (List (Reported Term)) → Part
  | .node child => .node child.value
  | .list children => .list (children.map (·.value))

theorem alike_loweredPart (edges : List (Edge (Reported Term) (List (Reported Term)))) :
    Edge.Alike edges (edges.map loweredPart) :=
  Edge.alike_map (fun edge => by cases edge <;> rfl) edges

theorem mapM_reported_eq (items : List (Reported Term)) :
    items.mapM id = ⟨items.map (·.value), items.flatMap (·.diagnostics)⟩ := by
  induction items with
  | nil => rfl
  | cons item rest ih =>
    rw [List.mapM_cons, ih]
    apply Reported.ext <;> simp

theorem mapM_parts_eq (edges : List (Edge (Reported Term) (List (Reported Term)))) :
    edges.mapM (Edge.mapM id (·.mapM id)) =
      ⟨edges.map loweredPart, (edges.flatMap Edge.items).flatMap (·.diagnostics)⟩ := by
  induction edges with
  | nil => rfl
  | cons edge rest ih =>
    rw [List.mapM_cons, ih]
    cases edge with
    | node child => apply Reported.ext <;> simp [Edge.mapM, loweredPart]
    | list children =>
      apply Reported.ext <;> simp [Edge.mapM, loweredPart, mapM_reported_eq]

/-- A node of terms reports what its children report, in order. -/
theorem terms_node_eq (node : Node (Reported Term) (List (Reported Term))) :
    terms.node node =
      ⟨⟨node.fill (node.edges.map loweredPart)⟩, node.children.flatMap (·.diagnostics)⟩ := by
  simp only [terms, Node.mapM_eq_fill, mapM_parts_eq]
  apply Reported.ext <;> simp [Node.children]

/-- An array is a node whose missing elements are holes. -/
theorem terms_array_eq (elements : List (Option (Reported Term))) :
    terms.array elements = terms.node (.array (elements.map (·.getD (pure Term.hole)))) := by
  simp [terms, Node.mapM, List.mapM_map]

/-! ## What holds of every lowered term -/

section OneSided

variable {α β : Type} {P : Role → α → Prop}

/-- A property as a relation that does not look at the other side. -/
abbrev OneSided (P : Role → α → Prop) (role : Role) (a : α) (_b : β) : Prop :=
  P role a

theorem forall_of_related {Q : α → Prop} {items : List α} {others : List β}
    (related : List.Forall₂ (fun item _ => Q item) items others) : ∀ item ∈ items, Q item := by
  induction related with
  | nil => exact List.forall_mem_nil _
  | cons first _ ih => exact List.forall_mem_cons.mpr ⟨first, ih⟩

theorem forall_items_of_related {Q : α → Prop} {edges : List (Edge α (List α))}
    {others : List (Edge β (List β))}
    (related : List.Forall₂ (EdgesRelated fun item _ => Q item) edges others) :
    ∀ item ∈ edges.flatMap Edge.items, Q item := by
  induction related with
  | nil => exact List.forall_mem_nil _
  | cons first _ ih =>
    cases first with
    | node child => exact List.forall_mem_cons.mpr ⟨child, ih⟩
    | list children => exact List.forall_mem_append.mpr ⟨forall_of_related children, ih⟩

theorem NodesRelated.forall_children {role : Role} {node : Node α (List α)}
    {other : Node β (List β)} (related : NodesRelated (OneSided P) role node other) :
    ∀ inner ∈ node.children, ∃ role, P role inner :=
  forall_items_of_related related.edges.2

theorem FieldsRelated.forall_children {keys : List String}
    {fields : List (String × Field α (List α))} {others : List (String × Field β (List β))}
    (related : FieldsRelated (OneSided P) keys fields others) (kind : String) :
    ∀ inner ∈ (Node.generic kind fields).children, P .part inner := by
  induction related with
  | nil => exact List.forall_mem_nil _
  | node child _ ih => exact List.forall_mem_cons.mpr ⟨child, ih⟩
  | list children _ ih => exact List.forall_mem_append.mpr ⟨forall_of_related children, ih⟩
  | value _ _ ih => exact ih

end OneSided

variable {P : Role → Term → Prop}

/-- The property, of what is lowered. -/
abbrev OfLowered (P : Role → Term → Prop) (role : Role) (lowered : Reported Term) : Prop :=
  P role lowered.value

theorem values_lowered {role : Role} {as bs : List (Reported Term)}
    (related : List.Forall₂ (OneSided (OfLowered P) role) as bs) :
    List.Forall₂ (OneSided P role) (as.map (·.value)) (as.map (·.value)) := by
  induction related with
  | nil => exact .nil
  | cons first _ ih => exact .cons first ih

theorem FieldsRelated.lowered {keys : List String}
    {fields others : List (String × Field (Reported Term) (List (Reported Term)))}
    (related : FieldsRelated (OneSided (OfLowered P)) keys fields others) :
    FieldsRelated (OneSided P) keys
      (Node.fillFields fields ((Node.fieldEdges fields).map loweredPart))
      (Node.fillFields fields ((Node.fieldEdges fields).map loweredPart)) := by
  induction related with
  | nil => exact .nil
  | node child _ ih => exact .node child ih
  | list children _ ih => exact .list (values_lowered children) ih
  | value data _ ih =>
    simp only [Node.fieldEdges_value, Node.fillFields]
    exact .value data ih

/-- The node of terms that lowering makes is one that lowering makes. -/
theorem NodesRelated.lowered {role : Role}
    {node other : Node (Reported Term) (List (Reported Term))}
    (related : NodesRelated (OneSided (OfLowered P)) role node other) :
    NodesRelated (OneSided P) role (node.fill (node.edges.map loweredPart))
      (node.fill (node.edges.map loweredPart)) := by
  cases related with
  | identifier name => exact .identifier name
  | literal value => exact .literal value
  | member object property => exact .member object property
  | call callee arguments => exact .call callee (values_lowered arguments)
  | object properties => exact .object (values_lowered properties)
  | property key value => exact .property key value
  | spread argument => exact .spread argument
  | generic shape inside => exact .generic shape inside.lowered
  | text value => exact .text value
  | container expression => exact .container expression
  | emptyContainer expression => exact .emptyContainer expression
  | element name attributes children =>
    exact .element name (values_lowered attributes) (values_lowered children)
  | plainAttribute name value =>
    cases value with
    | none => exact .plainAttribute name .none
    | some value => exact .plainAttribute name (.some value)
  | spreadAttribute argument => exact .spreadAttribute argument
  | simpleName name => exact .simpleName name
  | memberName object property => exact .memberName object property
  | namespacedName space name => exact .namespacedName space name
  | empty => exact .empty

/-- A property of terms, for each role, that the constructors of lowering keep. -/
structure KeptByLowering (P : Role → Term → Prop) : Prop where
  node : ∀ {role node}, NodesRelated (OneSided P) role node node → P role ⟨node⟩
  array : ∀ {elements}, (∀ element ∈ elements, P .part element) → P .solid ⟨.array elements⟩
  hole : P .part Term.hole
  part : ∀ {term}, P .solid term → P .part term
  name : ∀ {term}, P .dotted term → P .name term

theorem elements_lowered (hole : P .part Term.hole)
    {elements others : List (Option (Reported Term))}
    (related : List.Forall₂ (Option.Rel (OneSided (OfLowered P) .part)) elements others) :
    ∀ term ∈ (elements.map (·.getD (pure Term.hole))).map (·.value), P .part term := by
  have missing : OneSided (OfLowered P) .part (pure Term.hole) (pure Term.hole : Reported Term) :=
    hole
  exact forall_of_related (values_lowered (filled_related missing related))

/-- What the constructors of lowering keep holds of every lowered program. -/
theorem KeptByLowering.lower (kept : KeptByLowering P) (program : Program) :
    P .solid program.lower.value := by
  -- The terms are compared with themselves, and the relation looks at one side of it.
  have related : Related (OneSided (OfLowered P)) terms terms := by
    refine ⟨?node, ?array, fun _ _ => kept.hole, fun _ lowered => lowered, kept.part, kept.name⟩
    case node =>
      intro role node other related
      rw [OneSided, OfLowered, terms_node_eq]
      exact kept.node related.lowered
    case array =>
      intro elements others related
      rw [OneSided, OfLowered, terms_array_eq, terms_node_eq]
      exact kept.array (elements_lowered kept.hole related)
  exact fold_related related program

end Program

end JsxFactory
