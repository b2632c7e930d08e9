/-
# Programs without parentheses

The bare form of a program has no parentheses, and its spans are moved in some way: they may all
be kept, or all be forgotten. What is made of the bare form is made of the program by an algebra
that moves the spans (`Program.fold_bare`), and a store sees nothing of spans. So lowering the
bare form yields the same tree, and the same diagnostics with their labels moved in that way
(`Program.ofProgram_bare`). Two programs with one bare form are lowered to one tree, whatever
their parentheses; and what is reported differs at most in its labels, and not in these either
if the spans are kept.
-/

import JsxFactory.Proofs.Canonical

namespace JsxFactory

/-! ## Moving labels -/

/-- The same span for all. -/
def Span.forget (_ : Span) : Span :=
  ⟨0, 0⟩

/-- The diagnostic about stretches of text that were moved. -/
def Diagnostic.relabel (move : Span → Span) (diagnostic : Diagnostic) : Diagnostic :=
  { diagnostic with labels := diagnostic.labels.map move }

theorem Diagnostic.relabel_id : Diagnostic.relabel id = id := by
  funext diagnostic
  rw [Diagnostic.relabel, List.map_id]
  rfl

namespace Reported

variable {α β : Type}

/-- The same value with diagnostics about stretches of text that were moved. -/
def relabel (move : Span → Span) (reported : Reported α) : Reported α :=
  ⟨reported.value, reported.diagnostics.map (Diagnostic.relabel move)⟩

theorem relabel_id (reported : Reported α) : reported.relabel id = reported := by
  rw [relabel, Diagnostic.relabel_id, List.map_id]

theorem value_relabel (move : Span → Span) (reported : Reported α) :
    (reported.relabel move).value = reported.value := rfl

theorem messages_relabel (move : Span → Span) (reported : Reported α) :
    (reported.relabel move).diagnostics.map (·.message) =
      reported.diagnostics.map (·.message) := by
  rw [relabel, List.map_map]
  rfl

/-- Steps that report alike, up to moving labels, do so one after the other. -/
theorem relabel_bind {move : Span → Span} {first moved : Reported α}
    {next movedNext : α → Reported β} (same : moved = first.relabel move)
    (sameNext : movedNext first.value = (next first.value).relabel move) :
    moved >>= movedNext = (first >>= next).relabel move := by
  subst same
  simp [relabel, Bind.bind, sameNext]

end Reported

namespace Program

/-! ## Bare programs -/

/-- The binding with its span moved. -/
def Binding.respan (move : Span → Span) : Binding → Binding
  | .identifier span name => .identifier (move span) name
  | .pattern span => .pattern (move span)

/-- The parameters with their spans moved. -/
def Parameters.respan (move : Span → Span) (parameters : Parameters) : Parameters :=
  ⟨parameters.items.map (·.respan move), parameters.rest.map move⟩

/-- The piece of a template with its span moved. -/
def Quasi.respan (move : Span → Span) (quasi : Quasi) : Quasi :=
  { quasi with span := move quasi.span }

/-- The name with its span moved. -/
def ExportName.respan (move : Span → Span) : ExportName → ExportName
  | .identifier span name => .identifier (move span) name
  | .string span value => .string (move span) value

/-- The name of an import with its spans moved. -/
def ImportSpecifier.respan (move : Span → Span) : ImportSpecifier → ImportSpecifier
  | .named span imported binding => .named (move span) (imported.respan move) binding
  | .default span binding => .default (move span) binding
  | .all span binding => .all (move span) binding

/-- The name of an export with its spans moved. -/
def ExportSpecifier.respan (move : Span → Span) (specifier : ExportSpecifier) : ExportSpecifier :=
  ⟨move specifier.span, specifier.inner.respan move, specifier.exported.respan move⟩

/-- The dotted name with its spans moved. -/
def DottedName.respan (move : Span → Span) : DottedName → DottedName
  | .simple span name => .simple (move span) name
  | .member span object property => .member (move span) (object.respan move) property

/-- The name of a tag with its spans moved. -/
def TagName.respan (move : Span → Span) : TagName → TagName
  | .dotted name => .dotted (name.respan move)
  | .namespaced span space name => .namespaced (move span) space name

/-- The name of an attribute with its span moved. -/
def AttributeName.respan (move : Span → Span) : AttributeName → AttributeName
  | .simple span name => .simple (move span) name
  | .namespaced span space name => .namespaced (move span) space name

-- Only expressions can be in parentheses; everything else keeps its shape.
mutual

/-- The bare form of an expression: without parentheses, and with its spans moved. -/
def Expression.bare (move : Span → Span) : Expression → Expression
  | .identifier span name => .identifier (move span) name
  | .string span value => .string (move span) value
  | .boolean span value => .boolean (move span) value
  | .null span => .null (move span)
  | .number span value => .number (move span) value
  | .template span quasis expressions =>
    .template (move span) (quasis.map (·.respan move)) (bareExpressions move expressions)
  | .this span => .this (move span)
  | .parenthesized _ inner => inner.bare move
  | .staticMember span object property optional =>
    .staticMember (move span) (object.bare move) property optional
  | .computedMember span object property optional =>
    .computedMember (move span) (object.bare move) (property.bare move) optional
  | .binary span operator left right =>
    .binary (move span) operator (left.bare move) (right.bare move)
  | .logical span operator left right =>
    .logical (move span) operator (left.bare move) (right.bare move)
  | .unary span operator argument => .unary (move span) operator (argument.bare move)
  | .assignment span operator target value =>
    .assignment (move span) operator (target.bare move) (value.bare move)
  | .conditional span test consequent alternate =>
    .conditional (move span) (test.bare move) (consequent.bare move) (alternate.bare move)
  | .call span callee arguments optional =>
    .call (move span) (callee.bare move) (bareArguments move arguments) optional
  | .construction span callee arguments =>
    .construction (move span) (callee.bare move) (bareArguments move arguments)
  | .function function => .function (function.bare move)
  | .arrow span isExpression isAsync parameters bodySpan statements =>
    .arrow (move span) isExpression isAsync (parameters.respan move) (move bodySpan)
      (bareStatements move statements)
  | .array span elements => .array (move span) (bareElements move elements)
  | .object span properties => .object (move span) (bareProperties move properties)
  | .element element => .element (element.bare move)
  | .fragment span children => .fragment (move span) (bareChildren move children)
  | .unsupported span => .unsupported (move span)
termination_by structural expression => expression

/-- The bare forms of expressions. -/
def bareExpressions (move : Span → Span) : List Expression → List Expression
  | [] => []
  | expression :: rest => expression.bare move :: bareExpressions move rest

/-- The bare form of what is assigned to. -/
def Target.bare (move : Span → Span) : Target → Target
  | .identifier span name => .identifier (move span) name
  | .staticMember span object property optional =>
    .staticMember (move span) (object.bare move) property optional
  | .computedMember span object property optional =>
    .computedMember (move span) (object.bare move) (property.bare move) optional
  | .unsupported span => .unsupported (move span)

/-- The bare form of an argument. -/
def Argument.bare (move : Span → Span) : Argument → Argument
  | .plain value => .plain (value.bare move)
  | .spread span value => .spread (move span) (value.bare move)

/-- The bare forms of arguments. -/
def bareArguments (move : Span → Span) : List Argument → List Argument
  | [] => []
  | argument :: rest => argument.bare move :: bareArguments move rest

/-- The bare forms of the elements of an array. -/
def bareElements (move : Span → Span) : List (Option Argument) → List (Option Argument)
  | [] => []
  | none :: rest => none :: bareElements move rest
  | some element :: rest => some (element.bare move) :: bareElements move rest

/-- The bare form of the key of a member of an object. -/
def PropertyKey.bare (move : Span → Span) : PropertyKey → PropertyKey
  | .name span name => .name (move span) name
  | .privateName span => .privateName (move span)
  | .expression value => .expression (value.bare move)

/-- The bare form of a member of an object. -/
def Property.bare (move : Span → Span) : Property → Property
  | .plain span key value kind method shorthand computed =>
    .plain (move span) (key.bare move) (value.bare move) kind method shorthand computed
  | .spread span value => .spread (move span) (value.bare move)

/-- The bare forms of the members of an object. -/
def bareProperties (move : Span → Span) : List Property → List Property
  | [] => []
  | property :: rest => property.bare move :: bareProperties move rest

/-- The bare form of a function. -/
def Function.bare (move : Span → Span) : Function → Function
  | .mk span name isGenerator isAsync parameters body =>
    .mk (move span) name isGenerator isAsync (parameters.respan move) (bareBody move body)

/-- The bare form of the body of a function, if there is one. -/
def bareBody (move : Span → Span) : Option (List Statement) → Option (List Statement)
  | none => none
  | some statements => some (bareStatements move statements)

/-- The bare form of a statement. -/
def Statement.bare (move : Span → Span) : Statement → Statement
  | .expression span value => .expression (move span) (value.bare move)
  | .returns span value => .returns (move span) (bareOptional move value)
  | .variables span kind declarators =>
    .variables (move span) kind (bareDeclarators move declarators)
  | .function function => .function (function.bare move)
  | .block span body => .block (move span) (bareStatements move body)
  | .conditional span test consequent alternate =>
    .conditional (move span) (test.bare move) (consequent.bare move)
      (bareAlternate move alternate)
  | .imports span specifiers source =>
    .imports (move span) (specifiers.map (·.respan move)) source
  | .exportDefault span declaration => .exportDefault (move span) (declaration.bare move)
  | .exportNamed span declaration specifiers source =>
    .exportNamed (move span) (bareDeclaration move declaration)
      (specifiers.map (·.respan move)) source
  | .unsupported span => .unsupported (move span)

/-- The bare forms of statements. -/
def bareStatements (move : Span → Span) : List Statement → List Statement
  | [] => []
  | statement :: rest => statement.bare move :: bareStatements move rest

/-- The bare form of an expression that may be absent. -/
def bareOptional (move : Span → Span) : Option Expression → Option Expression
  | none => none
  | some expression => some (expression.bare move)

/-- The bare form of the second branch of a conditional, if there is one. -/
def bareAlternate (move : Span → Span) : Option Statement → Option Statement
  | none => none
  | some statement => some (statement.bare move)

/-- The bare form of a variable. -/
def Declarator.bare (move : Span → Span) : Declarator → Declarator
  | .mk span binding value => .mk (move span) (binding.respan move) (bareOptional move value)

/-- The bare forms of variables. -/
def bareDeclarators (move : Span → Span) : List Declarator → List Declarator
  | [] => []
  | declarator :: rest => declarator.bare move :: bareDeclarators move rest

/-- The bare form of what is exported by default. -/
def DefaultExport.bare (move : Span → Span) : DefaultExport → DefaultExport
  | .function function => .function (function.bare move)
  | .expression value => .expression (value.bare move)
  | .unsupported span => .unsupported (move span)

/-- The bare form of an exported declaration, if there is one. -/
def bareDeclaration (move : Span → Span) : Option Declaration → Option Declaration
  | none => none
  | some declaration => some (declaration.bare move)

/-- The bare form of an exported declaration. -/
def Declaration.bare (move : Span → Span) : Declaration → Declaration
  | .variables span kind declarators =>
    .variables (move span) kind (bareDeclarators move declarators)
  | .function function => .function (function.bare move)
  | .unsupported span => .unsupported (move span)

/-- The bare form of an element. -/
def Element.bare (move : Span → Span) : Element → Element
  | .mk span name attributes children hasClosing =>
    .mk (move span) (name.respan move) (bareAttributes move attributes)
      (bareChildren move children) hasClosing

/-- The bare form of an entry of a tag. -/
def Attribute.bare (move : Span → Span) : Attribute → Attribute
  | .plain span name value =>
    .plain (move span) (name.respan move) (bareAttributeValue move value)
  | .spread span value => .spread (move span) (value.bare move)

/-- The bare forms of the entries of a tag. -/
def bareAttributes (move : Span → Span) : List Attribute → List Attribute
  | [] => []
  | entry :: rest => entry.bare move :: bareAttributes move rest

/-- The bare form of the value of an attribute, if there is one. -/
def bareAttributeValue (move : Span → Span) : Option AttributeValue → Option AttributeValue
  | none => none
  | some value => some (value.bare move)

/-- The bare form of the value of an attribute. -/
def AttributeValue.bare (move : Span → Span) : AttributeValue → AttributeValue
  | .string span raw => .string (move span) raw
  | .container span value => .container (move span) (bareOptional move value)
  | .element element => .element (element.bare move)
  | .fragment span children => .fragment (move span) (bareChildren move children)

/-- The bare form of what stands between two tags. -/
def Child.bare (move : Span → Span) : Child → Child
  | .text span raw => .text (move span) raw
  | .container span value => .container (move span) (bareOptional move value)
  | .spread span value => .spread (move span) (value.bare move)
  | .element element => .element (element.bare move)
  | .fragment span children => .fragment (move span) (bareChildren move children)

/-- The bare forms of the children of an element. -/
def bareChildren (move : Span → Span) : List Child → List Child
  | [] => []
  | child :: rest => child.bare move :: bareChildren move rest

end

/-- The bare form of a program. -/
def bare (move : Span → Span) (program : Program) : Program :=
  ⟨program.sourceType, bareStatements move program.body⟩

/-! ## Lowering bare programs -/

/-- The algebra that sees spans after they were moved. -/
def Algebra.respan {α : Type} (A : Algebra α) (move : Span → Span) : Algebra α :=
  { A with unsupported := fun what span => A.unsupported what (move span) }

section Fold

variable {α : Type} (A : Algebra α) (move : Span → Span)

theorem foldNumber_respan (span : Span) (value : Option Double) :
    foldNumber A (move span) value = foldNumber (A.respan move) span value := by
  cases value <;> rfl

theorem Binding.fold_respan (binding : Binding) :
    (binding.respan move).fold A = binding.fold (A.respan move) := by
  cases binding <;> rfl

theorem ExportName.fold_respan (name : ExportName) :
    (name.respan move).fold A = name.fold (A.respan move) := by
  cases name <;> rfl

theorem ImportSpecifier.fold_respan (specifier : ImportSpecifier) :
    (specifier.respan move).fold A = specifier.fold (A.respan move) := by
  cases specifier with
  | named _ imported =>
    rw [ImportSpecifier.respan, ImportSpecifier.fold, imported.fold_respan]
    rfl
  | default | all => rfl

theorem ExportSpecifier.fold_respan (specifier : ExportSpecifier) :
    (specifier.respan move).fold A = specifier.fold (A.respan move) := by
  rw [ExportSpecifier.respan, ExportSpecifier.fold, specifier.inner.fold_respan,
    specifier.exported.fold_respan]
  rfl

theorem DottedName.fold_respan (name : DottedName) :
    (name.respan move).fold A = name.fold (A.respan move) := by
  induction name with
  | simple => rfl
  | member _ _ _ ih =>
    rw [DottedName.respan, DottedName.fold, ih]
    rfl

theorem TagName.fold_respan (name : TagName) :
    (name.respan move).fold A = name.fold (A.respan move) := by
  cases name with
  | dotted name => exact name.fold_respan A move
  | namespaced => rfl

theorem AttributeName.fold_respan (name : AttributeName) :
    (name.respan move).fold A = name.fold (A.respan move) := by
  cases name <;> rfl

theorem map_fold_respan {β : Type} {respan : β → β} {first second : β → α}
    (same : ∀ item, first (respan item) = second item) (items : List β) :
    (items.map respan).map first = items.map second := by
  rw [List.map_map]
  exact List.map_congr_left fun item _ => same item

-- By induction on the syntax, as the fold goes. Parentheses are passed over, and a span is looked
-- at only where something is not supported.
mutual

theorem Expression.fold_bare : ∀ expression : Expression,
    (expression.bare move).fold A = expression.fold (A.respan move)
  | .identifier .. | .string .. | .boolean .. | .null _ | .this _ | .unsupported _ => rfl
  | .number span value => foldNumber_respan A move span value
  | .template _ quasis expressions => by
    rw [Expression.bare, Expression.fold, foldExpressions_bare expressions, List.map_map]
    rfl
  | .parenthesized _ inner => inner.fold_bare
  | .staticMember _ object _ _ => by
    rw [Expression.bare, Expression.fold, object.fold_bare]
    rfl
  | .computedMember _ object property _ => by
    rw [Expression.bare, Expression.fold, object.fold_bare, property.fold_bare]
    rfl
  | .binary _ _ left right => by
    rw [Expression.bare, Expression.fold, left.fold_bare, right.fold_bare]
    rfl
  | .logical _ _ left right => by
    rw [Expression.bare, Expression.fold, left.fold_bare, right.fold_bare]
    rfl
  | .unary _ _ argument => by
    rw [Expression.bare, Expression.fold, argument.fold_bare]
    rfl
  | .assignment _ _ target value => by
    rw [Expression.bare, Expression.fold, target.fold_bare, value.fold_bare]
    rfl
  | .conditional _ test consequent alternate => by
    rw [Expression.bare, Expression.fold, test.fold_bare, consequent.fold_bare,
      alternate.fold_bare]
    rfl
  | .call _ callee arguments _ => by
    rw [Expression.bare, Expression.fold, callee.fold_bare, foldArguments_bare arguments]
    rfl
  | .construction _ callee arguments => by
    rw [Expression.bare, Expression.fold, callee.fold_bare, foldArguments_bare arguments]
    rfl
  | .function function => function.fold_bare "FunctionExpression"
  | .arrow _ _ _ ⟨_, some _⟩ _ _ => rfl
  | .arrow _ isExpression _ ⟨items, none⟩ span statements => by
    rw [Expression.bare, Expression.fold, foldExpressionBody_bare span statements,
      foldStatements_bare statements, Parameters.respan,
      map_fold_respan (Binding.fold_respan A move) items]
    rfl
  | .array _ elements => by
    rw [Expression.bare, Expression.fold, foldElements_bare elements]
    rfl
  | .object _ properties => by
    rw [Expression.bare, Expression.fold, foldProperties_bare properties]
    rfl
  | .element element => element.fold_bare
  | .fragment _ children => by
    rw [Expression.bare, Expression.fold, foldChildren_bare children]
    rfl
termination_by structural expression => expression

theorem foldExpressions_bare : ∀ expressions : List Expression,
    foldExpressions A (bareExpressions move expressions) =
      foldExpressions (A.respan move) expressions
  | [] => rfl
  | expression :: rest => by
    rw [bareExpressions, foldExpressions, expression.fold_bare, foldExpressions_bare rest]
    rfl

theorem Target.fold_bare : ∀ target : Target,
    (target.bare move).fold A = target.fold (A.respan move)
  | .identifier .. | .unsupported _ => rfl
  | .staticMember _ object _ _ => by
    rw [Target.bare, Target.fold, object.fold_bare]
    rfl
  | .computedMember _ object property _ => by
    rw [Target.bare, Target.fold, object.fold_bare, property.fold_bare]
    rfl

theorem Argument.fold_bare : ∀ argument : Argument,
    (argument.bare move).fold A = argument.fold (A.respan move)
  | .plain value => value.fold_bare
  | .spread _ value => by
    rw [Argument.bare, Argument.fold, value.fold_bare]
    rfl

theorem foldArguments_bare : ∀ arguments : List Argument,
    foldArguments A (bareArguments move arguments) = foldArguments (A.respan move) arguments
  | [] => rfl
  | argument :: rest => by
    rw [bareArguments, foldArguments, argument.fold_bare, foldArguments_bare rest]
    rfl

theorem foldElements_bare : ∀ elements : List (Option Argument),
    foldElements A (bareElements move elements) = foldElements (A.respan move) elements
  | [] => rfl
  | none :: rest => by
    rw [bareElements, foldElements, foldElements_bare rest]
    rfl
  | some element :: rest => by
    rw [bareElements, foldElements, element.fold_bare, foldElements_bare rest]
    rfl

theorem PropertyKey.fold_bare : ∀ key : PropertyKey,
    (key.bare move).fold A = key.fold (A.respan move)
  | .name .. | .privateName _ => rfl
  | .expression value => value.fold_bare

theorem Property.fold_bare : ∀ property : Property,
    (property.bare move).fold A = property.fold (A.respan move)
  | .plain _ key value _ _ _ _ => by
    rw [Property.bare, Property.fold, key.fold_bare, value.fold_bare]
    rfl
  | .spread _ value => by
    rw [Property.bare, Property.fold, value.fold_bare]
    rfl

theorem foldProperties_bare : ∀ properties : List Property,
    foldProperties A (bareProperties move properties) = foldProperties (A.respan move) properties
  | [] => rfl
  | property :: rest => by
    rw [bareProperties, foldProperties, property.fold_bare, foldProperties_bare rest]
    rfl

theorem Function.fold_bare (kind : String) : ∀ function : Function,
    (function.bare move).fold A kind = function.fold (A.respan move) kind
  | .mk _ (some _) _ _ ⟨_, some _⟩ _ | .mk _ none _ _ ⟨_, some _⟩ _ => rfl
  | .mk _ _ _ _ ⟨items, none⟩ body => by
    rw [Function.bare, Function.fold, foldBody_bare body, Parameters.respan,
      map_fold_respan (Binding.fold_respan A move) items]
    · rfl
    · rfl

theorem foldBody_bare : ∀ body : Option (List Statement),
    foldBody A (bareBody move body) = foldBody (A.respan move) body
  | none => rfl
  | some statements => by
    rw [bareBody, foldBody, foldStatements_bare statements]
    rfl

theorem foldExpressionBody_bare (span : Span) : ∀ statements : List Statement,
    foldExpressionBody A (move span) (bareStatements move statements) =
      foldExpressionBody (A.respan move) span statements
  | .expression _ value :: _ => value.fold_bare
  | [] => rfl
  | .returns .. :: _ | .variables .. :: _ | .function _ :: _ | .block .. :: _
  | .conditional .. :: _ | .imports .. :: _ | .exportDefault .. :: _ | .exportNamed .. :: _
  | .unsupported _ :: _ => rfl

theorem Statement.fold_bare : ∀ statement : Statement,
    (statement.bare move).fold A = statement.fold (A.respan move)
  | .expression _ value => by
    rw [Statement.bare, Statement.fold, value.fold_bare]
    rfl
  | .returns _ value => by
    rw [Statement.bare, Statement.fold, foldOptional_bare value]
    rfl
  | .variables _ _ declarators => by
    rw [Statement.bare, Statement.fold, foldDeclarators_bare declarators]
    rfl
  | .function function => function.fold_bare "FunctionDeclaration"
  | .block _ body => by
    rw [Statement.bare, Statement.fold, foldStatements_bare body]
    rfl
  | .conditional _ test consequent alternate => by
    rw [Statement.bare, Statement.fold, test.fold_bare, consequent.fold_bare,
      foldAlternate_bare alternate]
    rfl
  | .imports _ specifiers _ => by
    rw [Statement.bare, Statement.fold,
      map_fold_respan (ImportSpecifier.fold_respan A move) specifiers]
    rfl
  | .exportDefault _ declaration => by
    rw [Statement.bare, Statement.fold, declaration.fold_bare]
    rfl
  | .exportNamed _ declaration specifiers _ => by
    rw [Statement.bare, Statement.fold, foldDeclaration_bare declaration,
      map_fold_respan (ExportSpecifier.fold_respan A move) specifiers]
    rfl
  | .unsupported _ => rfl

theorem foldStatements_bare : ∀ statements : List Statement,
    foldStatements A (bareStatements move statements) = foldStatements (A.respan move) statements
  | [] => rfl
  | statement :: rest => by
    rw [bareStatements, foldStatements, statement.fold_bare, foldStatements_bare rest]
    rfl

theorem foldOptional_bare : ∀ value : Option Expression,
    foldOptional A (bareOptional move value) = foldOptional (A.respan move) value
  | none => rfl
  | some expression => congrArg some expression.fold_bare

theorem foldAlternate_bare : ∀ alternate : Option Statement,
    foldAlternate A (bareAlternate move alternate) = foldAlternate (A.respan move) alternate
  | none => rfl
  | some statement => congrArg some statement.fold_bare

theorem Declarator.fold_bare : ∀ declarator : Declarator,
    (declarator.bare move).fold A = declarator.fold (A.respan move)
  | .mk _ binding value => by
    rw [Declarator.bare, Declarator.fold, binding.fold_respan, foldOptional_bare value]
    rfl

theorem foldDeclarators_bare : ∀ declarators : List Declarator,
    foldDeclarators A (bareDeclarators move declarators) =
      foldDeclarators (A.respan move) declarators
  | [] => rfl
  | declarator :: rest => by
    rw [bareDeclarators, foldDeclarators, declarator.fold_bare, foldDeclarators_bare rest]
    rfl

theorem DefaultExport.fold_bare : ∀ declaration : DefaultExport,
    (declaration.bare move).fold A = declaration.fold (A.respan move)
  | .function function => function.fold_bare "FunctionDeclaration"
  | .expression value => value.fold_bare
  | .unsupported _ => rfl

theorem foldDeclaration_bare : ∀ declaration : Option Declaration,
    foldDeclaration A (bareDeclaration move declaration) =
      foldDeclaration (A.respan move) declaration
  | none => rfl
  | some declaration => congrArg some declaration.fold_bare

theorem Declaration.fold_bare : ∀ declaration : Declaration,
    (declaration.bare move).fold A = declaration.fold (A.respan move)
  | .variables _ _ declarators => by
    rw [Declaration.bare, Declaration.fold, foldDeclarators_bare declarators]
    rfl
  | .function function => function.fold_bare "FunctionDeclaration"
  | .unsupported _ => rfl

theorem Element.fold_bare : ∀ element : Element,
    (element.bare move).fold A = element.fold (A.respan move)
  | .mk _ name attributes children _ => by
    rw [Element.bare, Element.fold, name.fold_respan, foldAttributes_bare attributes,
      foldChildren_bare children]
    rfl

theorem Attribute.fold_bare : ∀ entry : Attribute,
    (entry.bare move).fold A = entry.fold (A.respan move)
  | .plain _ name value => by
    rw [Attribute.bare, Attribute.fold, name.fold_respan, foldAttributeValue_bare value]
    rfl
  | .spread _ value => by
    rw [Attribute.bare, Attribute.fold, value.fold_bare]
    rfl

theorem foldAttributes_bare : ∀ attributes : List Attribute,
    foldAttributes A (bareAttributes move attributes) = foldAttributes (A.respan move) attributes
  | [] => rfl
  | entry :: rest => by
    rw [bareAttributes, foldAttributes, entry.fold_bare, foldAttributes_bare rest]
    rfl

theorem foldAttributeValue_bare : ∀ value : Option AttributeValue,
    foldAttributeValue A (bareAttributeValue move value) =
      foldAttributeValue (A.respan move) value
  | none => rfl
  | some value => congrArg some value.fold_bare

theorem AttributeValue.fold_bare : ∀ value : AttributeValue,
    (value.bare move).fold A = value.fold (A.respan move)
  | .string .. => rfl
  | .container _ value => by
    rw [AttributeValue.bare, AttributeValue.fold, foldOptional_bare value]
    rfl
  | .element element => element.fold_bare
  | .fragment _ children => by
    rw [AttributeValue.bare, AttributeValue.fold, foldChildren_bare children]
    rfl

theorem Child.fold_bare : ∀ child : Child,
    (child.bare move).fold A = child.fold (A.respan move)
  | .text .. => rfl
  | .container _ value => by
    rw [Child.bare, Child.fold, foldOptional_bare value]
    rfl
  | .spread _ value => by
    rw [Child.bare, Child.fold, value.fold_bare]
    rfl
  | .element element => element.fold_bare
  | .fragment _ children => by
    rw [Child.bare, Child.fold, foldChildren_bare children]
    rfl

theorem foldChildren_bare : ∀ children : List Child,
    foldChildren A (bareChildren move children) = foldChildren (A.respan move) children
  | [] => rfl
  | child :: rest => by
    rw [bareChildren, foldChildren, child.fold_bare, foldChildren_bare rest]
    rfl

end

/-- Whatever is made of the bare form is made of the program itself, spans moved. -/
theorem fold_bare (program : Program) :
    (program.bare move).fold A = program.fold (A.respan move) := by
  rw [bare, fold, foldStatements_bare]
  rfl

end Fold

/-! ## Lowering with moved labels -/

open JsxFactory.Tree (ofProgram place placeList)

/-- Whether one computation does what the other does, and reports the same with labels
moved. -/
abbrev Relabels {α : Type} (move : Span → Span) (code moved : Lowerer α) : Prop :=
  ∀ t, moved t = (code t).relabel move

section Relabels

variable {α β : Type} {move : Span → Span}

theorem relabels_pure (a : α) : Relabels move (pure a : Lowerer α) (pure a) :=
  fun _ => rfl

theorem lowerer_bind (code : Lowerer α) (next : α → Lowerer β) (t : Tree) :
    (code >>= next) t = code t >>= fun result => next result.1 result.2 := rfl

theorem relabels_bind {code moved : Lowerer α} {next movedNext : α → Lowerer β}
    (first : Relabels move code moved) (rest : ∀ a, Relabels move (next a) (movedNext a)) :
    Relabels move (code >>= next) (moved >>= movedNext) := by
  intro t
  rw [lowerer_bind, lowerer_bind]
  exact Reported.relabel_bind (first t) (rest _ _)

theorem relabels_map (f : α → β) {code moved : Lowerer α} (relabels : Relabels move code moved) :
    Relabels move (f <$> code) (f <$> moved) := by
  simp only [← bind_pure_comp]
  exact relabels_bind relabels fun a => relabels_pure (f a)

theorem relabels_items {codes moved : List (Lowerer NodeId)}
    (each : List.Forall₂ (Relabels move) codes moved) :
    Relabels move (codes.mapM id) (moved.mapM id) := by
  induction each with
  | nil => exact relabels_pure []
  | cons first _ ih =>
    simp only [List.mapM_cons]
    exact relabels_bind first fun _ => relabels_bind ih fun _ => relabels_pure _

theorem relabels_sequence {codes moved : List (Lowerer NodeId)}
    (each : List.Forall₂ (Relabels move) codes moved) :
    Relabels move (storeSequence codes) (storeSequence moved) :=
  relabels_bind (relabels_items each) fun _ _ => rfl

theorem relabels_edges {codes moved : List (Edge (Lowerer NodeId) (List (Lowerer NodeId)))}
    (each : List.Forall₂ (EdgesRelated (Relabels move)) codes moved) :
    Relabels move (codes.mapM (Edge.mapM id storeSequence))
      (moved.mapM (Edge.mapM id storeSequence)) := by
  induction each with
  | nil => exact relabels_pure []
  | cons first _ ih =>
    simp only [List.mapM_cons]
    refine relabels_bind ?_ fun _ => relabels_bind ih fun _ => relabels_pure _
    cases first with
    | node child => exact relabels_map _ child
    | list children => exact relabels_map _ (relabels_sequence children)

theorem alike_stored (codes : List (Edge (Lowerer NodeId) (List (Lowerer NodeId)))) (t : Tree) :
    Edge.Alike codes (codes.mapM (Edge.mapM id storeSequence) t).value.1 := by
  induction codes generalizing t with
  | nil => exact .nil
  | cons code rest ih =>
    rw [List.mapM_cons]
    cases code with
    | node => exact .node (ih _)
    | list => exact .list (ih _)

theorem relabels_node {node moved : Node (Lowerer NodeId) (List (Lowerer NodeId))}
    (same : node.shape = moved.shape)
    (edges : List.Forall₂ (EdgesRelated (Relabels move)) node.edges moved.edges) :
    Relabels move (stores.node node) (stores.node moved) := by
  intro t
  have alike := alike_stored node.edges t
  rw [stores_node_eq, stores_node_eq, lowerer_bind, lowerer_bind]
  -- The children are on the same places, and they fill two nodes of one shape.
  refine Reported.relabel_bind (relabels_edges edges t) ?_
  rw [Node.fill_congr same alike ((edges_alike edges).symm.trans alike)]
  rfl

theorem relabels_array {elements moved : List (Option (Lowerer NodeId))}
    (each : List.Forall₂ (Option.Rel (Relabels move)) elements moved) :
    Relabels move (stores.array elements) (stores.array moved) := by
  have hole : Relabels move (place .hole) (place .hole) := fun _ => rfl
  rw [stores_array_eq, stores_array_eq]
  exact relabels_node rfl (.cons (.list (filled_related hole each)) .nil)

/-- Moved spans are seen in the labels only. -/
theorem relabels_related (move : Span → Span) :
    Related (fun _ => Relabels move) stores (stores.respan move) :=
  .of_edges relabels_node relabels_array (fun _ _ _ => rfl)
    fun _ relabels => relabels_bind (fun _ => rfl) fun _ => relabels

end Relabels

variable {move : Span → Span} {p q : Program}

/-- The bare form of a program is lowered to the same tree, with the labels moved. -/
theorem ofProgram_bare (move : Span → Span) (program : Program) :
    ofProgram (program.bare move) = (ofProgram program).relabel move := by
  have relabels := fold_related (relabels_related move) program
  rw [← fold_bare, ← store_eq, ← store_eq] at relabels
  exact Reported.relabel_bind (relabels Tree.empty) rfl

theorem relabel_ofProgram_of_bare_eq (same : p.bare move = q.bare move) :
    (ofProgram p).relabel move = (ofProgram q).relabel move := by
  rw [← ofProgram_bare, same, ofProgram_bare]

/-- Lowering tells two programs apart by neither parentheses nor spans, except that it reports the
spans of what it does not support. -/
theorem lower_of_bare_eq (p q : Program) :
    (p.bare Span.forget = q.bare Span.forget →
      (ofProgram p).value = (ofProgram q).value ∧
      (∃ document, (ofProgram p).value.toEstree? = some document ∧
        (ofProgram q).value.toEstree? = some document) ∧
      (ofProgram p).diagnostics.map (·.message) = (ofProgram q).diagnostics.map (·.message)) ∧
    (p.bare id = q.bare id → ofProgram p = ofProgram q) := by
  constructor
  · intro same
    have relabelled := relabel_ofProgram_of_bare_eq same
    have value : (ofProgram p).value = (ofProgram q).value := by
      rw [← Reported.value_relabel Span.forget, relabelled, Reported.value_relabel]
    obtain ⟨footprint, owns⟩ := Tree.owns_ofProgram p
    refine ⟨value, ⟨p.lower.value.toEstree, owns.toEstree?, ?_⟩, ?_⟩
    · rw [← value]
      exact owns.toEstree?
    · rw [← Reported.messages_relabel Span.forget, relabelled, Reported.messages_relabel]
  · intro same
    have relabelled := relabel_ofProgram_of_bare_eq same
    rwa [Reported.relabel_id, Reported.relabel_id] at relabelled

/-- A statement that calls `f` with an argument that is not supported. -/
def sampleCall (call name argument : Span) : Program :=
  ⟨.module,
    [.expression call (.call call (.identifier name "f") [.plain (.unsupported argument)] false)]⟩

/-- The same in a text with parentheses, `((f)((?)))`. -/
def sampleParenthesized : Program :=
  ⟨.module, [.expression ⟨1, 9⟩ (.parenthesized ⟨0, 10⟩
    (.call ⟨1, 9⟩ (.parenthesized ⟨1, 4⟩ (.identifier ⟨2, 3⟩ "f"))
      [.plain (.parenthesized ⟨5, 8⟩ (.unsupported ⟨6, 7⟩))] false))]⟩

theorem lower_of_bare_eq_sampleParenthesized :
    let p := sampleParenthesized
    let q := sampleCall ⟨1, 9⟩ ⟨2, 3⟩ ⟨6, 7⟩
    let r := sampleCall ⟨0, 4⟩ ⟨0, 1⟩ ⟨2, 3⟩
    p.bare id = q.bare id ∧ ofProgram p = ofProgram q ∧
      p.bare Span.forget = r.bare Span.forget ∧ (ofProgram p).value = (ofProgram r).value ∧
      (ofProgram p).diagnostics.map (·.message) = (ofProgram r).diagnostics.map (·.message) ∧
      (ofProgram p).diagnostics ≠ (ofProgram r).diagnostics := by
  intro p q r
  obtain ⟨value, _, messages⟩ := (lower_of_bare_eq p r).1 rfl
  exact ⟨rfl, (lower_of_bare_eq p q).2 rfl, rfl, value, messages, by decide⟩

end Program

end JsxFactory
