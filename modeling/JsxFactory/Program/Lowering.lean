/-
# What programs are lowered to

A program is lowered to the shapes that the desugaring works with. What has no
shape is reported and leaves a hole, so that one pass finds every unsupported
construct; a function with a rest parameter becomes a hole as a whole.
Parentheses leave no trace. Markup text and attribute strings have their
character references decoded.

Which node a construct becomes does not depend on what nodes are made of, so it is
said once for every algebra, that is, for every way to put nodes together. Terms
are one of them. The term of a program comes with a diagnostic for each construct
that left a hole, in order.
-/

import JsxFactory.Program
import JsxFactory.Term
import JsxFactory.Text.Entity

namespace JsxFactory.Program

/-- A way to put together what programs are lowered to. -/
structure Algebra (α : Type) where
  /-- A node, but for holes and arrays. -/
  node : Node α (List α) → α
  /-- An array; an element that is left out is `none`. -/
  array : List (Option α) → α
  /-- What stands for a construct that is not supported. -/
  unsupported : String → Span → α
  /-- What comes after an identifier that was made and is given up. -/
  abandoning : String → α → α

/-- A field that holds a text. -/
def textField {α β : Type} (s : String) : Field α β := .value (.string s)

/-- A field that holds a truth value. -/
def flag {α β : Type} (b : Bool) : Field α β := .value (.bool b)

/-- A field that may be absent. -/
def optional {α β : Type} : Option α → Field α β
  | some child => .node child
  | none => .value .null

/-- The binary number of a literal as a number: whole numbers below `2 ^ 53` are
whole in JSON too. -/
def numberOf (x : Double) : Number :=
  match x.toInt? with
  | some n => if n.natAbs < Nat.pow 2 53 then .integer n else .double x
  | none => .double x

/-- The two spellings of a piece of a template. -/
def Quasi.spelling (quasi : Quasi) : Json :=
  let cooked : Json := match quasi.cooked with
    | some text => .string text
    | none => .null
  .object [("raw", .string quasi.raw), ("cooked", cooked)]

namespace Algebra

variable {α : Type} (A : Algebra α)

/-- An identifier. -/
def identifier (name : String) : α := A.node (.identifier name)

/-- A string literal. -/
def text (value : String) : α := A.node (.text value)

/-- A generic node. -/
def generic (kind : String) (fields : List (String × Field α (List α))) : α :=
  A.node (.generic kind fields)

/-- The block of some statements. -/
def block (statements : List α) : α :=
  A.generic "BlockStatement" [("body", .list statements)]

/-- A declaration of variables. -/
def variableDeclaration (kind : String) (declarators : List α) : α :=
  A.generic "VariableDeclaration"
    [("declarations", .list declarators), ("kind", textField kind)]

/-- Braces around an expression; in empty ones stands an expression of a kind of
its own. -/
def container : Option α → α
  | some expression => A.node (.jsxContainer expression)
  | none => A.node (.jsxContainer (A.generic "JSXEmptyExpression" []))

/-- Markup without a tag. -/
def fragment (children : List α) : α :=
  A.generic "JSXFragment" [("children", .list children)]

/-- A simple markup name. -/
def markupName (name : String) : α := A.node (.jsxIdentifier name)

/-- A markup name with a namespace. -/
def namespacedName (space name : String) : α :=
  A.generic "JSXNamespacedName"
    [("namespace", .node (A.markupName space)), ("name", .node (A.markupName name))]

end Algebra

section Fold

variable {α : Type} (A : Algebra α)

/-- Lowers a number. -/
def foldNumber (span : Span) : Option Double → α
  | some x => A.node (.literal (.number (numberOf x)))
  | none => A.unsupported "a non-finite number" span

/-- Lowers a bound name. -/
def Binding.fold : Binding → α
  | .identifier _ name => A.identifier name
  | .pattern span => A.unsupported "destructuring" span

/-- Lowers a name that crosses the border of a module. -/
def ExportName.fold : ExportName → α
  | .identifier _ name => A.identifier name
  | .string _ value => A.text value

/-- Lowers a name of an import. -/
def ImportSpecifier.fold : ImportSpecifier → α
  | .named _ imported binding =>
    A.generic "ImportSpecifier"
      [("imported", .node (imported.fold A)), ("local", .node (A.identifier binding))]
  | .default _ binding =>
    A.generic "ImportDefaultSpecifier" [("local", .node (A.identifier binding))]
  | .all _ binding =>
    A.generic "ImportNamespaceSpecifier" [("local", .node (A.identifier binding))]

/-- Lowers a name of an export. -/
def ExportSpecifier.fold (specifier : ExportSpecifier) : α :=
  A.generic "ExportSpecifier"
    [("local", .node (specifier.inner.fold A)), ("exported", .node (specifier.exported.fold A))]

/-- Lowers a piece of a template. -/
def Quasi.fold (quasi : Quasi) : α :=
  A.generic "TemplateElement" [("value", .value quasi.spelling), ("tail", flag quasi.tail)]

/-- Lowers a dotted name. -/
def DottedName.fold : DottedName → α
  | .simple _ name => A.markupName name
  | .member _ object property => A.node (.jsxMember object.fold (A.markupName property))

/-- Lowers the name of a tag. -/
def TagName.fold : TagName → α
  | .dotted name => name.fold A
  | .namespaced _ space name => A.namespacedName space name

/-- Lowers the name of an attribute. -/
def AttributeName.fold : AttributeName → α
  | .simple _ name => A.markupName name
  | .namespaced _ space name => A.namespacedName space name

mutual

/-- Lowers an expression. -/
def Expression.fold : Expression → α
  | .identifier _ name => A.identifier name
  | .string _ value => A.text value
  | .boolean _ value => A.node (.literal (.boolean value))
  | .null _ => A.node (.literal .null)
  | .number span value => foldNumber A span value
  | .template _ quasis expressions =>
    A.generic "TemplateLiteral"
      [("quasis", .list (quasis.map (Quasi.fold A))),
        ("expressions", .list (foldExpressions expressions))]
  | .this _ => A.generic "ThisExpression" []
  | .parenthesized _ inner => inner.fold
  | .staticMember _ object property optional =>
    A.node (.member object.fold (A.identifier property) false optional)
  | .computedMember _ object property optional =>
    A.node (.member object.fold property.fold true optional)
  | .binary _ operator left right =>
    A.generic "BinaryExpression"
      [("operator", textField operator), ("left", .node left.fold), ("right", .node right.fold)]
  | .logical _ operator left right =>
    A.generic "LogicalExpression"
      [("operator", textField operator), ("left", .node left.fold), ("right", .node right.fold)]
  | .unary _ operator argument =>
    A.generic "UnaryExpression"
      [("operator", textField operator), ("prefix", flag true), ("argument", .node argument.fold)]
  | .assignment _ operator target value =>
    A.generic "AssignmentExpression"
      [("operator", textField operator), ("left", .node target.fold), ("right", .node value.fold)]
  | .conditional _ test consequent alternate =>
    A.generic "ConditionalExpression"
      [("test", .node test.fold), ("consequent", .node consequent.fold),
        ("alternate", .node alternate.fold)]
  | .call _ callee arguments optional =>
    A.node (.call callee.fold (foldArguments arguments) optional)
  | .construction _ callee arguments =>
    A.generic "NewExpression"
      [("callee", .node callee.fold), ("arguments", .list (foldArguments arguments))]
  | .function function => function.fold "FunctionExpression"
  | .arrow _ isExpression isAsync parameters bodySpan statements =>
    match parameters.rest with
    | some span => A.unsupported "a rest parameter" span
    | none =>
      let body :=
        if isExpression then foldExpressionBody bodySpan statements
        else A.block (foldStatements statements)
      A.generic "ArrowFunctionExpression"
        [("id", .value .null), ("expression", flag isExpression), ("generator", flag false),
          ("async", flag isAsync), ("params", .list (parameters.items.map (Binding.fold A))),
          ("body", .node body)]
  | .array _ elements => A.array (foldElements elements)
  | .object _ properties => A.node (.object (foldProperties properties))
  | .element element => element.fold
  | .fragment _ children => A.fragment (foldChildren children)
  | .unsupported span => A.unsupported "this expression" span
termination_by structural expression => expression

/-- Lowers expressions. -/
def foldExpressions : List Expression → List α
  | [] => []
  | expression :: rest => expression.fold :: foldExpressions rest

/-- Lowers what is assigned to. -/
def Target.fold : Target → α
  | .identifier _ name => A.identifier name
  | .staticMember _ object property optional =>
    A.node (.member object.fold (A.identifier property) false optional)
  | .computedMember _ object property optional =>
    A.node (.member object.fold property.fold true optional)
  | .unsupported span => A.unsupported "this assignment target" span

/-- Lowers an argument. -/
def Argument.fold : Argument → α
  | .plain value => value.fold
  | .spread _ value => A.node (.spread value.fold)

/-- Lowers arguments. -/
def foldArguments : List Argument → List α
  | [] => []
  | argument :: rest => argument.fold :: foldArguments rest

/-- Lowers the elements of an array that are not left out. -/
def foldElements : List (Option Argument) → List (Option α)
  | [] => []
  | none :: rest => none :: foldElements rest
  | some element :: rest => some element.fold :: foldElements rest

/-- Lowers the key of a member of an object. -/
def PropertyKey.fold : PropertyKey → α
  | .name _ name => A.identifier name
  | .privateName span => A.unsupported "this property key" span
  | .expression value => value.fold

/-- Lowers a member of an object. -/
def Property.fold : Property → α
  | .plain _ key value kind method shorthand computed =>
    A.node (.property key.fold value.fold kind method shorthand computed)
  | .spread _ value => A.node (.spread value.fold)

/-- Lowers the members of an object. -/
def foldProperties : List Property → List α
  | [] => []
  | property :: rest => property.fold :: foldProperties rest

/-- Lowers a function to a node of the given kind. With a rest parameter its name is
given up. -/
def Function.fold (kind : String) : Function → α
  | .mk _ name isGenerator isAsync parameters body =>
    match parameters.rest, name with
    | some span, some name => A.abandoning name (A.unsupported "a rest parameter" span)
    | some span, none => A.unsupported "a rest parameter" span
    | none, name =>
      A.generic kind
        [("id", optional (name.map A.identifier)), ("expression", flag false),
          ("generator", flag isGenerator), ("async", flag isAsync),
          ("params", .list (parameters.items.map (Binding.fold A))),
          ("body", optional (foldBody body))]

/-- Lowers the body of a function, if there is one. -/
def foldBody : Option (List Statement) → Option α
  | none => none
  | some statements => some (A.block (foldStatements statements))

/-- Lowers the body of an arrow function that is an expression. -/
def foldExpressionBody (span : Span) : List Statement → α
  | .expression _ value :: _ => value.fold
  | _ => A.unsupported "this arrow function body" span

/-- Lowers a statement. -/
def Statement.fold : Statement → α
  | .expression _ value => A.generic "ExpressionStatement" [("expression", .node value.fold)]
  | .returns _ value =>
    A.generic "ReturnStatement" [("argument", optional (foldOptional value))]
  | .variables _ kind declarators => A.variableDeclaration kind (foldDeclarators declarators)
  | .function function => function.fold "FunctionDeclaration"
  | .block _ body => A.block (foldStatements body)
  | .conditional _ test consequent alternate =>
    A.generic "IfStatement"
      [("test", .node test.fold), ("consequent", .node consequent.fold),
        ("alternate", optional (foldAlternate alternate))]
  | .imports _ specifiers source =>
    A.generic "ImportDeclaration"
      [("specifiers", .list (specifiers.map (ImportSpecifier.fold A))),
        ("source", .node (A.text source))]
  | .exportDefault _ declaration =>
    A.generic "ExportDefaultDeclaration" [("declaration", .node declaration.fold)]
  | .exportNamed _ declaration specifiers source =>
    A.generic "ExportNamedDeclaration"
      [("declaration", optional (foldDeclaration declaration)),
        ("specifiers", .list (specifiers.map (ExportSpecifier.fold A))),
        ("source", optional (source.map A.text))]
  | .unsupported span => A.unsupported "this statement" span

/-- Lowers statements. -/
def foldStatements : List Statement → List α
  | [] => []
  | statement :: rest => statement.fold :: foldStatements rest

/-- Lowers an expression that may be absent. -/
def foldOptional : Option Expression → Option α
  | none => none
  | some expression => some expression.fold

/-- Lowers the second branch of a conditional, if there is one. -/
def foldAlternate : Option Statement → Option α
  | none => none
  | some statement => some statement.fold

/-- Lowers a variable. -/
def Declarator.fold : Declarator → α
  | .mk _ binding value =>
    A.generic "VariableDeclarator"
      [("id", .node (binding.fold A)), ("init", optional (foldOptional value))]

/-- Lowers variables. -/
def foldDeclarators : List Declarator → List α
  | [] => []
  | declarator :: rest => declarator.fold :: foldDeclarators rest

/-- Lowers what is exported by default. -/
def DefaultExport.fold : DefaultExport → α
  | .function function => function.fold "FunctionDeclaration"
  | .expression value => value.fold
  | .unsupported span => A.unsupported "this default export" span

/-- Lowers an exported declaration, if there is one. -/
def foldDeclaration : Option Declaration → Option α
  | none => none
  | some declaration => some declaration.fold

/-- Lowers an exported declaration. -/
def Declaration.fold : Declaration → α
  | .variables _ kind declarators => A.variableDeclaration kind (foldDeclarators declarators)
  | .function function => function.fold "FunctionDeclaration"
  | .unsupported span => A.unsupported "this exported declaration" span

/-- Lowers an element. -/
def Element.fold : Element → α
  | .mk _ name attributes children hasClosing =>
    A.node (.jsxElement (name.fold A) (foldAttributes attributes) (foldChildren children)
      (!hasClosing))

/-- Lowers an entry of a tag. -/
def Attribute.fold : Attribute → α
  | .plain _ name value => A.node (.jsxAttribute (name.fold A) (foldAttributeValue value))
  | .spread _ value => A.node (.jsxSpreadAttribute value.fold)

/-- Lowers the entries of a tag. -/
def foldAttributes : List Attribute → List α
  | [] => []
  | entry :: rest => entry.fold :: foldAttributes rest

/-- Lowers the value of an attribute, if there is one. -/
def foldAttributeValue : Option AttributeValue → Option α
  | none => none
  | some value => some value.fold

/-- Lowers the value of an attribute. -/
def AttributeValue.fold : AttributeValue → α
  | .string _ raw => A.text (Text.Entity.decode raw)
  | .container _ value => A.container (foldOptional value)
  | .element element => element.fold
  | .fragment _ children => A.fragment (foldChildren children)

/-- Lowers what stands between two tags. -/
def Child.fold : Child → α
  | .text _ raw => A.node (.jsxText (Text.Entity.decode raw))
  | .container _ value => A.container (foldOptional value)
  | .spread _ value => A.generic "JSXSpreadChild" [("expression", .node value.fold)]
  | .element element => element.fold
  | .fragment _ children => A.fragment (foldChildren children)

/-- Lowers the children of an element. -/
def foldChildren : List Child → List α
  | [] => []
  | child :: rest => child.fold :: foldChildren rest

end

/-- Lowers a program. -/
def fold (program : Program) : α :=
  A.generic "Program"
    [("sourceType", textField program.sourceType.name),
      ("body", .list (foldStatements A program.body))]

end Fold

/-- Terms, put together from left to right, with the diagnostics of their parts. -/
def terms : Algebra (Reported Term) where
  node node := do return ⟨← node.mapM id (·.mapM id)⟩
  array elements := do return ⟨.array (← elements.mapM (·.getD (pure Term.hole)))⟩
  unsupported what span := ⟨Term.hole, [.unsupported what span]⟩
  abandoning _ rest := rest

/-- The term of a program, and the diagnostics about it. -/
def lower (program : Program) : Reported Term :=
  program.fold terms

end JsxFactory.Program
