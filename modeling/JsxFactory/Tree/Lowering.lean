/-
# Lowering programs into a store

A program is lowered in one pass that adds nodes and sequences to a store, children
before the node that holds them, and keeps record of what is not supported. The
order of the pass is that of the program. A function is left as soon as its rest
parameter is found, after its name was added: nothing will hold that identifier.
-/

import JsxFactory.Program.Lowering
import JsxFactory.Tree

namespace JsxFactory.Program

open JsxFactory.Tree (place placeList)

/-- A computation that has a store and reports diagnostics. -/
abbrev Lowerer := StateT Tree Reported

/-- Reports a construct that is not supported and adds a hole for it. -/
def unsupported (what : String) (span : Span) : Lowerer NodeId := do
  (⟨(), [.unsupported what span]⟩ : Reported Unit)
  place .hole

/-- Adds a number. -/
def storeNumber (span : Span) : Option Double → Lowerer NodeId
  | some x => place (.literal (.number (numberOf x)))
  | none => unsupported "a non-finite number" span

/-- Adds a bound name. -/
def Binding.store : Binding → Lowerer NodeId
  | .identifier _ name => place (.identifier name)
  | .pattern span => unsupported "destructuring" span

/-- Adds the parameters of a function, or a hole if there is a rest parameter. -/
def Parameters.store (parameters : Parameters) : Lowerer (Except NodeId ListId) :=
  match parameters.rest with
  | some span => return .error (← unsupported "a rest parameter" span)
  | none => return .ok (← placeList (← parameters.items.mapM Binding.store))

/-- Adds a name that crosses the border of a module. -/
def ExportName.store : ExportName → Lowerer NodeId
  | .identifier _ name => place (.identifier name)
  | .string _ value => place (.text value)

/-- Adds a name of an import. -/
def ImportSpecifier.store : ImportSpecifier → Lowerer NodeId
  | .named _ imported binding => do
    let imported ← imported.store
    let binding ← place (.identifier binding)
    place (.generic "ImportSpecifier" [("imported", .node imported), ("local", .node binding)])
  | .default _ binding => do
    let binding ← place (.identifier binding)
    place (.generic "ImportDefaultSpecifier" [("local", .node binding)])
  | .all _ binding => do
    let binding ← place (.identifier binding)
    place (.generic "ImportNamespaceSpecifier" [("local", .node binding)])

/-- Adds a name of an export. -/
def ExportSpecifier.store (specifier : ExportSpecifier) : Lowerer NodeId := do
  let inner ← specifier.inner.store
  let exported ← specifier.exported.store
  place (.generic "ExportSpecifier" [("local", .node inner), ("exported", .node exported)])

/-- Adds a piece of a template. -/
def Quasi.store (quasi : Quasi) : Lowerer NodeId :=
  place (.generic "TemplateElement" [("value", .value quasi.spelling), ("tail", flag quasi.tail)])

/-- Adds a simple markup name. -/
def storeMarkupName (name : String) : Lowerer NodeId :=
  place (.jsxIdentifier name)

/-- Adds a markup name with a namespace. -/
def storeNamespacedName (space name : String) : Lowerer NodeId := do
  let space ← storeMarkupName space
  let name ← storeMarkupName name
  place (.generic "JSXNamespacedName" [("namespace", .node space), ("name", .node name)])

/-- Adds a dotted name, innermost object first. -/
def DottedName.store : DottedName → Lowerer NodeId
  | .simple _ name => storeMarkupName name
  | .member _ object property => do
    let object ← object.store
    let property ← storeMarkupName property
    place (.jsxMember object property)

/-- Adds the name of a tag. -/
def TagName.store : TagName → Lowerer NodeId
  | .dotted name => name.store
  | .namespaced _ space name => storeNamespacedName space name

/-- Adds the name of an attribute. -/
def AttributeName.store : AttributeName → Lowerer NodeId
  | .simple _ name => storeMarkupName name
  | .namespaced _ space name => storeNamespacedName space name

/-- Adds `object.property`. -/
def storeStaticMember (object : Lowerer NodeId) (property : String) (optional : Bool) :
    Lowerer NodeId := do
  let object ← object
  let property ← place (.identifier property)
  place (.member object property false optional)

/-- Adds `object[property]`. -/
def storeComputedMember (object property : Lowerer NodeId) (optional : Bool) :
    Lowerer NodeId := do
  let object ← object
  let property ← property
  place (.member object property true optional)

/-- Adds the block of some statements. -/
def storeBlock (statements : Lowerer (List NodeId)) : Lowerer NodeId := do
  let statements ← placeList (← statements)
  place (.generic "BlockStatement" [("body", .list statements)])

/-- Adds a declaration of variables. -/
def storeVariables (kind : String) (declarators : Lowerer (List NodeId)) : Lowerer NodeId := do
  let declarators ← placeList (← declarators)
  place (.generic "VariableDeclaration"
    [("declarations", .list declarators), ("kind", textField kind)])

/-- Adds markup without a tag. -/
def storeFragment (children : Lowerer (List NodeId)) : Lowerer NodeId := do
  let children ← placeList (← children)
  place (.generic "JSXFragment" [("children", .list children)])

mutual

/-- Adds what an expression is lowered to. -/
def Expression.store : Expression → Lowerer NodeId
  | .identifier _ name => place (.identifier name)
  | .string _ value => place (.text value)
  | .boolean _ value => place (.literal (.boolean value))
  | .null _ => place (.literal .null)
  | .number span value => storeNumber span value
  | .template _ quasis expressions => do
    let quasis ← placeList (← quasis.mapM Quasi.store)
    let expressions ← placeList (← storeExpressions expressions)
    place (.generic "TemplateLiteral"
      [("quasis", .list quasis), ("expressions", .list expressions)])
  | .this _ => place (.generic "ThisExpression" [])
  | .parenthesized _ inner => inner.store
  | .staticMember _ object property optional => storeStaticMember object.store property optional
  | .computedMember _ object property optional =>
    storeComputedMember object.store property.store optional
  | .binary _ operator left right => do
    let left ← left.store
    let right ← right.store
    place (.generic "BinaryExpression"
      [("operator", textField operator), ("left", .node left), ("right", .node right)])
  | .logical _ operator left right => do
    let left ← left.store
    let right ← right.store
    place (.generic "LogicalExpression"
      [("operator", textField operator), ("left", .node left), ("right", .node right)])
  | .unary _ operator argument => do
    let argument ← argument.store
    place (.generic "UnaryExpression"
      [("operator", textField operator), ("prefix", flag true), ("argument", .node argument)])
  | .assignment _ operator target value => do
    let left ← target.store
    let right ← value.store
    place (.generic "AssignmentExpression"
      [("operator", textField operator), ("left", .node left), ("right", .node right)])
  | .conditional _ test consequent alternate => do
    let test ← test.store
    let consequent ← consequent.store
    let alternate ← alternate.store
    place (.generic "ConditionalExpression"
      [("test", .node test), ("consequent", .node consequent), ("alternate", .node alternate)])
  | .call _ callee arguments optional => do
    let callee ← callee.store
    let arguments ← placeList (← storeArguments arguments)
    place (.call callee arguments optional)
  | .construction _ callee arguments => do
    let callee ← callee.store
    let arguments ← placeList (← storeArguments arguments)
    place (.generic "NewExpression" [("callee", .node callee), ("arguments", .list arguments)])
  | .function function => function.store "FunctionExpression"
  | .arrow _ isExpression isAsync parameters bodySpan statements => do
    match ← parameters.store with
    | .error hole => return hole
    | .ok parameters =>
      let body ←
        if isExpression then storeExpressionBody bodySpan statements
        else storeBlock (storeStatements statements)
      place (.generic "ArrowFunctionExpression"
        [("id", .value .null), ("expression", flag isExpression), ("generator", flag false),
          ("async", flag isAsync), ("params", .list parameters), ("body", .node body)])
  | .array _ elements => do
    let elements ← placeList (← storeElements elements)
    place (.array elements)
  | .object _ properties => do
    let properties ← placeList (← storeProperties properties)
    place (.object properties)
  | .element element => element.store
  | .fragment _ children => storeFragment (storeChildren children)
  | .unsupported span => unsupported "this expression" span
termination_by structural expression => expression

/-- Adds expressions from first to last. -/
def storeExpressions : List Expression → Lowerer (List NodeId)
  | [] => return []
  | expression :: rest => return (← expression.store) :: (← storeExpressions rest)

/-- Adds what is assigned to. -/
def Target.store : Target → Lowerer NodeId
  | .identifier _ name => place (.identifier name)
  | .staticMember _ object property optional => storeStaticMember object.store property optional
  | .computedMember _ object property optional =>
    storeComputedMember object.store property.store optional
  | .unsupported span => unsupported "this assignment target" span

/-- Adds an argument. -/
def Argument.store : Argument → Lowerer NodeId
  | .plain value => value.store
  | .spread _ value => do
    let value ← value.store
    place (.spread value)

/-- Adds arguments from first to last. -/
def storeArguments : List Argument → Lowerer (List NodeId)
  | [] => return []
  | argument :: rest => return (← argument.store) :: (← storeArguments rest)

/-- Adds the elements of an array from first to last. One that is left out is a hole,
which is nothing to report. -/
def storeElements : List (Option Argument) → Lowerer (List NodeId)
  | [] => return []
  | none :: rest => return (← place .hole) :: (← storeElements rest)
  | some element :: rest => return (← element.store) :: (← storeElements rest)

/-- Adds the key of a member of an object. -/
def PropertyKey.store : PropertyKey → Lowerer NodeId
  | .name _ name => place (.identifier name)
  | .privateName span => unsupported "this property key" span
  | .expression value => value.store

/-- Adds a member of an object. -/
def Property.store : Property → Lowerer NodeId
  | .plain _ key value kind method shorthand computed => do
    let key ← key.store
    let value ← value.store
    place (.property key value kind method shorthand computed)
  | .spread _ value => do
    let value ← value.store
    place (.spread value)

/-- Adds the members of an object from first to last. -/
def storeProperties : List Property → Lowerer (List NodeId)
  | [] => return []
  | property :: rest => return (← property.store) :: (← storeProperties rest)

/-- Adds a function as a node of the given kind: its name, its parameters, its body. -/
def Function.store (kind : String) : Function → Lowerer NodeId
  | .mk _ name isGenerator isAsync parameters body => do
    let id ← match name with
      | some name => Field.node <$> place (.identifier name)
      | none => pure (.value .null)
    match ← parameters.store with
    | .error hole => return hole
    | .ok parameters =>
      let body ← storeBody body
      place (.generic kind
        [("id", id), ("expression", flag false), ("generator", flag isGenerator),
          ("async", flag isAsync), ("params", .list parameters), ("body", body)])

/-- Adds the body of a function, if there is one. -/
def storeBody : Option (List Statement) → Lowerer (Field NodeId ListId)
  | none => return .value .null
  | some statements => return .node (← storeBlock (storeStatements statements))

/-- Adds the body of an arrow function that is an expression. -/
def storeExpressionBody (span : Span) : List Statement → Lowerer NodeId
  | .expression _ value :: _ => value.store
  | _ => unsupported "this arrow function body" span

/-- Adds what a statement is lowered to. -/
def Statement.store : Statement → Lowerer NodeId
  | .expression _ value => do
    let value ← value.store
    place (.generic "ExpressionStatement" [("expression", .node value)])
  | .returns _ value => do
    let value ← storeOptional value
    place (.generic "ReturnStatement" [("argument", value)])
  | .variables _ kind declarators => storeVariables kind (storeDeclarators declarators)
  | .function function => function.store "FunctionDeclaration"
  | .block _ body => storeBlock (storeStatements body)
  | .conditional _ test consequent alternate => do
    let test ← test.store
    let consequent ← consequent.store
    let alternate ← storeAlternate alternate
    place (.generic "IfStatement"
      [("test", .node test), ("consequent", .node consequent), ("alternate", alternate)])
  | .imports _ specifiers source => do
    let specifiers ← placeList (← specifiers.mapM ImportSpecifier.store)
    let source ← place (.text source)
    place (.generic "ImportDeclaration"
      [("specifiers", .list specifiers), ("source", .node source)])
  | .exportDefault _ declaration => do
    let declaration ← declaration.store
    place (.generic "ExportDefaultDeclaration" [("declaration", .node declaration)])
  | .exportNamed _ declaration specifiers source => do
    let declaration ← storeDeclaration declaration
    let specifiers ← placeList (← specifiers.mapM ExportSpecifier.store)
    let source ← match source with
      | some source => Field.node <$> place (.text source)
      | none => pure (.value .null)
    place (.generic "ExportNamedDeclaration"
      [("declaration", declaration), ("specifiers", .list specifiers), ("source", source)])
  | .unsupported span => unsupported "this statement" span

/-- Adds statements from first to last. -/
def storeStatements : List Statement → Lowerer (List NodeId)
  | [] => return []
  | statement :: rest => return (← statement.store) :: (← storeStatements rest)

/-- Adds an expression that may be absent. -/
def storeOptional : Option Expression → Lowerer (Field NodeId ListId)
  | none => return .value .null
  | some expression => return .node (← expression.store)

/-- Adds the second branch of a conditional, if there is one. -/
def storeAlternate : Option Statement → Lowerer (Field NodeId ListId)
  | none => return .value .null
  | some statement => return .node (← statement.store)

/-- Adds a variable. -/
def Declarator.store : Declarator → Lowerer NodeId
  | .mk _ binding value => do
    let binding ← binding.store
    let value ← storeOptional value
    place (.generic "VariableDeclarator" [("id", .node binding), ("init", value)])

/-- Adds variables from first to last. -/
def storeDeclarators : List Declarator → Lowerer (List NodeId)
  | [] => return []
  | declarator :: rest => return (← declarator.store) :: (← storeDeclarators rest)

/-- Adds what is exported by default. -/
def DefaultExport.store : DefaultExport → Lowerer NodeId
  | .function function => function.store "FunctionDeclaration"
  | .expression value => value.store
  | .unsupported span => unsupported "this default export" span

/-- Adds an exported declaration, if there is one. -/
def storeDeclaration : Option Declaration → Lowerer (Field NodeId ListId)
  | none => return .value .null
  | some declaration => return .node (← declaration.store)

/-- Adds an exported declaration. -/
def Declaration.store : Declaration → Lowerer NodeId
  | .variables _ kind declarators => storeVariables kind (storeDeclarators declarators)
  | .function function => function.store "FunctionDeclaration"
  | .unsupported span => unsupported "this exported declaration" span

/-- Adds an element: its name, its attributes, its children. -/
def Element.store : Element → Lowerer NodeId
  | .mk _ name attributes children hasClosing => do
    let name ← name.store
    let attributes ← placeList (← storeAttributes attributes)
    let children ← placeList (← storeChildren children)
    place (.jsxElement name attributes children (!hasClosing))

/-- Adds an entry of a tag. -/
def Attribute.store : Attribute → Lowerer NodeId
  | .plain _ name value => do
    let name ← name.store
    let value ← storeAttributeValue value
    place (.jsxAttribute name value)
  | .spread _ value => do
    let value ← value.store
    place (.jsxSpreadAttribute value)

/-- Adds the entries of a tag from first to last. -/
def storeAttributes : List Attribute → Lowerer (List NodeId)
  | [] => return []
  | entry :: rest => return (← entry.store) :: (← storeAttributes rest)

/-- Adds the value of an attribute, if there is one. -/
def storeAttributeValue : Option AttributeValue → Lowerer (Option NodeId)
  | none => return none
  | some value => return some (← value.store)

/-- Adds the value of an attribute. -/
def AttributeValue.store : AttributeValue → Lowerer NodeId
  | .string _ raw => place (.text (Text.Entity.decode raw))
  | .container _ value => storeContainer value
  | .element element => element.store
  | .fragment _ children => storeFragment (storeChildren children)

/-- Adds what stands between two tags. -/
def Child.store : Child → Lowerer NodeId
  | .text _ raw => place (.jsxText (Text.Entity.decode raw))
  | .container _ value => storeContainer value
  | .spread _ value => do
    let value ← value.store
    place (.generic "JSXSpreadChild" [("expression", .node value)])
  | .element element => element.store
  | .fragment _ children => storeFragment (storeChildren children)

/-- Adds braces; in empty ones stands an expression of a kind of its own. -/
def storeContainer : Option Expression → Lowerer NodeId
  | none => do
    let expression ← place (.generic "JSXEmptyExpression" [])
    place (.jsxContainer expression)
  | some expression => do
    let expression ← expression.store
    place (.jsxContainer expression)

/-- Adds the children of an element from first to last. -/
def storeChildren : List Child → Lowerer (List NodeId)
  | [] => return []
  | child :: rest => return (← child.store) :: (← storeChildren rest)

end

/-- Adds what a program is lowered to. -/
def store (program : Program) : Lowerer NodeId := do
  let body ← placeList (← storeStatements program.body)
  place (.generic "Program"
    [("sourceType", textField program.sourceType.name), ("body", .list body)])

end JsxFactory.Program

/-- Lowers a program to a tree, and reports what is not supported. -/
def JsxFactory.Tree.ofProgram (program : Program) : Reported Tree := do
  let (root, t) ← program.store empty
  return t.setRoot root
