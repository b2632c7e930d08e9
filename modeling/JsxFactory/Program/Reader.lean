/-
# Reading programs

A parser hands over its syntax tree as an ESTree document with positions. Here
such a document is read as a program. Constructs that lowering has no use for
are read as unsupported, with their span. A document is nested no deeper than
its depth says, so this many steps down are enough to read it.
-/

import JsxFactory.Estree.Reader
import JsxFactory.Program

namespace JsxFactory.Program

namespace Reader

/-- The `type` of a node object. -/
def tag (json : Json) : String :=
  ((json.get? "type").bind Json.asString?).getD ""

/-- A position in the source. -/
def position (key : String) (json : Json) : Nat :=
  match json.get? key with
  | some (.number (.integer n)) => n.toNat
  | _ => 0

/-- The span of a node object. -/
def span (json : Json) : Span :=
  ⟨position "start" json, position "end" json⟩

/-- A field that is there and not `null`. -/
def present? (key : String) (json : Json) : Option Json :=
  (json.get? key).filter fun value => !value.isNull

/-- A field that is a string. -/
def text? (key : String) (json : Json) : Option String :=
  (json.get? key).bind Json.asString?

/-- A field that is a truth value; false if it is not there. -/
def flag (key : String) (json : Json) : Bool :=
  match json.get? key with
  | some (.bool value) => value
  | _ => false

/-- A field that is an array; empty if it is not there. -/
def items (key : String) (json : Json) : List Json :=
  match json.get? key with
  | some (.array items) => items
  | _ => []

/-- The name of an identifier node in a field. -/
def nameOf? (key : String) (json : Json) : Option String :=
  (json.get? key).bind (text? "name")

/-- Reads a bound name. -/
def binding (json : Json) : Binding :=
  match tag json, text? "name" json with
  | "Identifier", some name => .identifier (span json) name
  | _, _ => .pattern (span json)

/-- Reads parameters. A rest parameter stands last. -/
def parameters (json : Json) : Parameters :=
  let all := items "params" json
  ⟨(all.filter fun item => tag item ≠ "RestElement").map binding,
    (all.find? fun item => tag item = "RestElement").map span⟩

/-- Reads a name that crosses the border of a module. -/
def exportName? (json : Json) : Option ExportName :=
  match tag json with
  | "Literal" => (text? "value" json).map (.string (span json))
  | _ => (text? "name" json).map (.identifier (span json))

/-- Reads a name of an import. -/
def importSpecifier? (json : Json) : Option ImportSpecifier := do
  let name ← nameOf? "local" json
  match tag json with
  | "ImportSpecifier" =>
    return .named (span json) (← (json.get? "imported").bind exportName?) name
  | "ImportDefaultSpecifier" => return .default (span json) name
  | "ImportNamespaceSpecifier" => return .all (span json) name
  | _ => none

/-- Reads a name of an export. -/
def exportSpecifier? (json : Json) : Option ExportSpecifier := do
  return ⟨span json, ← (json.get? "local").bind exportName?,
    ← (json.get? "exported").bind exportName?⟩

/-- Reads the source of an import or an export. -/
def moduleSource? (json : Json) : Option String :=
  (present? "source" json).bind (text? "value")

/-- Reads a piece of a template. -/
def quasi? (json : Json) : Option Quasi := do
  let value ← json.get? "value"
  return ⟨span json, ← text? "raw" value, text? "cooked" value, flag "tail" json⟩

/-- Reads a literal. What is neither a string, a truth value, a number nor `null`
is unsupported. A number that is too large has no value. -/
def literal (json : Json) : Expression :=
  let span := span json
  if (json.get? "regex").isSome || (json.get? "bigint").isSome then .unsupported span
  else
    match json.get? "value" with
    | some (.string value) => .string span value
    | some (.bool value) => .boolean span value
    | some (.number (.integer value)) => .number span (Double.ofInt? value)
    | some (.number (.double value)) => .number span (some value)
    | _ => if text? "raw" json = some "null" then .null span else .number span none

/-- Reads a dotted markup name. -/
def dottedName? : Nat → Json → Option DottedName
  | 0, _ => none
  | fuel + 1, json =>
    match tag json with
    | "JSXMemberExpression" => do
      return .member (span json) (← (json.get? "object").bind (dottedName? fuel))
        (← nameOf? "property" json)
    | _ => (text? "name" json).map (.simple (span json))

/-- Reads the name of a tag. -/
def tagName? (fuel : Nat) (json : Json) : Option TagName :=
  match tag json with
  | "JSXNamespacedName" => do
    return .namespaced (span json) (← nameOf? "namespace" json) (← nameOf? "name" json)
  | _ => (dottedName? fuel json).map .dotted

/-- Reads the name of an attribute. -/
def attributeName? (json : Json) : Option AttributeName :=
  match tag json with
  | "JSXNamespacedName" => do
    return .namespaced (span json) (← nameOf? "namespace" json) (← nameOf? "name" json)
  | _ => (text? "name" json).map (.simple (span json))

/-- Whether a statement is a directive, which is not part of the program. -/
def isDirective (json : Json) : Bool :=
  tag json = "ExpressionStatement" && (json.get? "directive").isSome

/-- The statements of a body without its directives. -/
def bodyItems (json : Json) : List Json :=
  (items "body" json).filter fun statement => !isDirective statement

/-- Whether an operation asks an object for a private name, which is not an
expression of its own. -/
def asksPrivateName (json : Json) : Bool :=
  (json.get? "left").map tag = some "PrivateIdentifier"

mutual

/-- Reads an expression. -/
def expression? : Nat → Json → Option Expression
  | 0, _ => none
  | fuel + 1, json =>
    let span := span json
    let operand (key : String) : Option Expression :=
      (json.get? key).bind (expression? fuel)
    match tag json with
    | "Identifier" => (text? "name" json).map (.identifier span)
    | "Literal" => some (literal json)
    | "TemplateLiteral" => do
      return .template span (← (items "quasis" json).mapM quasi?)
        (← (items "expressions" json).mapM (expression? fuel))
    | "ThisExpression" => some (.this span)
    | "ParenthesizedExpression" => (operand "expression").map (.parenthesized span)
    | "MemberExpression" => do
      let object ← operand "object"
      if flag "computed" json then
        return .computedMember span object (← operand "property") (flag "optional" json)
      else if (json.get? "property").map tag = some "Identifier" then
        return .staticMember span object (← nameOf? "property" json) (flag "optional" json)
      else return .unsupported span
    | "BinaryExpression" =>
      if asksPrivateName json then some (.unsupported span)
      else do
        return .binary span (← text? "operator" json) (← operand "left") (← operand "right")
    | "LogicalExpression" => do
      return .logical span (← text? "operator" json) (← operand "left") (← operand "right")
    | "UnaryExpression" => do
      return .unary span (← text? "operator" json) (← operand "argument")
    | "AssignmentExpression" => do
      return .assignment span (← text? "operator" json)
        (← (json.get? "left").bind (target? fuel)) (← operand "right")
    | "ConditionalExpression" => do
      return .conditional span (← operand "test") (← operand "consequent")
        (← operand "alternate")
    | "CallExpression" => do
      return .call span (← operand "callee")
        (← (items "arguments" json).mapM (argument? fuel)) (flag "optional" json)
    | "NewExpression" => do
      return .construction span (← operand "callee")
        (← (items "arguments" json).mapM (argument? fuel))
    | "FunctionExpression" | "TSEmptyBodyFunctionExpression" =>
      (function? fuel json).map .function
    | "ArrowFunctionExpression" => do
      let isExpression := flag "expression" json
      let body ← json.get? "body"
      let statements ←
        if isExpression then (expression? fuel body).map fun value =>
          [.expression (Reader.span body) value]
        else (bodyItems body).mapM (statement? fuel)
      return .arrow span isExpression (flag "async" json) (parameters json) (Reader.span body)
        statements
    | "ArrayExpression" => do
      let elements ← (items "elements" json).mapM fun item =>
        if item.isNull then some none else (argument? fuel item).map some
      return .array span elements
    | "ObjectExpression" =>
      ((items "properties" json).mapM (property? fuel)).map (.object span)
    | "JSXElement" => (element? fuel json).map .element
    | "JSXFragment" =>
      ((items "children" json).mapM (child? fuel)).map (.fragment span)
    | _ => some (.unsupported span)

/-- Reads what is assigned to. -/
def target? : Nat → Json → Option Target
  | 0, _ => none
  | fuel + 1, json =>
    match tag json with
    | "Identifier" => (text? "name" json).map (.identifier (span json))
    | "MemberExpression" => do
      let object ← (json.get? "object").bind (expression? fuel)
      if flag "computed" json then
        return .computedMember (span json) object
          (← (json.get? "property").bind (expression? fuel)) (flag "optional" json)
      else if (json.get? "property").map tag = some "Identifier" then
        return .staticMember (span json) object (← nameOf? "property" json)
          (flag "optional" json)
      else return .unsupported (span json)
    | _ => some (.unsupported (span json))

/-- Reads an argument of a call or an element of an array. -/
def argument? : Nat → Json → Option Argument
  | 0, _ => none
  | fuel + 1, json =>
    match tag json with
    | "SpreadElement" => do
      return .spread (span json) (← (json.get? "argument").bind (expression? fuel))
    | _ => (expression? fuel json).map .plain

/-- Reads the key of a member of an object. -/
def propertyKey? : Nat → Json → Option PropertyKey
  | 0, _ => none
  | fuel + 1, json =>
    match tag json with
    | "Identifier" => (text? "name" json).map (.name (span json))
    | "PrivateIdentifier" => some (.privateName (span json))
    | _ => (expression? fuel json).map .expression

/-- Reads a member of an object. -/
def property? : Nat → Json → Option Property
  | 0, _ => none
  | fuel + 1, json =>
    match tag json with
    | "SpreadElement" => do
      return .spread (span json) (← (json.get? "argument").bind (expression? fuel))
    | _ => do
      return .plain (span json) (← (json.get? "key").bind (propertyKey? fuel))
        (← (json.get? "value").bind (expression? fuel))
        (← (text? "kind" json).bind PropertyKind.ofName?)
        (flag "method" json) (flag "shorthand" json) (flag "computed" json)

/-- Reads a function. -/
def function? : Nat → Json → Option Function
  | 0, _ => none
  | fuel + 1, json => do
    let name ← match present? "id" json with
      | none => some none
      | some id => (text? "name" id).map some
    let body ← match present? "body" json with
      | none => some none
      | some body => ((bodyItems body).mapM (statement? fuel)).map some
    return .mk (span json) name (flag "generator" json) (flag "async" json) (parameters json)
      body

/-- Reads a statement. -/
def statement? : Nat → Json → Option Statement
  | 0, _ => none
  | fuel + 1, json =>
    let span := span json
    match tag json with
    | "ExpressionStatement" => do
      return .expression span (← (json.get? "expression").bind (expression? fuel))
    | "ReturnStatement" =>
      match present? "argument" json with
      | none => some (.returns span none)
      | some argument => (expression? fuel argument).map fun value => .returns span (some value)
    | "VariableDeclaration" => do
      return .variables span (← text? "kind" json)
        (← (items "declarations" json).mapM (declarator? fuel))
    | "FunctionDeclaration" | "TSDeclareFunction" => (function? fuel json).map .function
    | "BlockStatement" =>
      ((items "body" json).mapM (statement? fuel)).map (.block span)
    | "IfStatement" => do
      let alternate ← match present? "alternate" json with
        | none => some none
        | some alternate => (statement? fuel alternate).map some
      return .conditional span (← (json.get? "test").bind (expression? fuel))
        (← (json.get? "consequent").bind (statement? fuel)) alternate
    | "ImportDeclaration" => do
      return .imports span (← (items "specifiers" json).mapM importSpecifier?)
        (← moduleSource? json)
    | "ExportDefaultDeclaration" => do
      return .exportDefault span (← (json.get? "declaration").bind (defaultExport? fuel))
    | "ExportNamedDeclaration" => do
      let declaration ← match present? "declaration" json with
        | none => some none
        | some declaration => (declaration? fuel declaration).map some
      return .exportNamed span declaration (← (items "specifiers" json).mapM exportSpecifier?)
        (moduleSource? json)
    | _ => some (.unsupported span)

/-- Reads a variable. -/
def declarator? : Nat → Json → Option Declarator
  | 0, _ => none
  | fuel + 1, json => do
    let id ← json.get? "id"
    let value ← match present? "init" json with
      | none => some none
      | some value => (expression? fuel value).map some
    return .mk (span json) (binding id) value

/-- Reads what is exported by default. -/
def defaultExport? : Nat → Json → Option DefaultExport
  | 0, _ => none
  | fuel + 1, json =>
    match tag json with
    | "FunctionDeclaration" | "TSDeclareFunction" => (function? fuel json).map .function
    | "ClassDeclaration" | "TSInterfaceDeclaration" => some (.unsupported (span json))
    | _ => (expression? fuel json).map .expression

/-- Reads an exported declaration. -/
def declaration? : Nat → Json → Option Declaration
  | 0, _ => none
  | fuel + 1, json =>
    match tag json with
    | "VariableDeclaration" => do
      return .variables (span json) (← text? "kind" json)
        (← (items "declarations" json).mapM (declarator? fuel))
    | "FunctionDeclaration" | "TSDeclareFunction" => (function? fuel json).map .function
    | _ => some (.unsupported (span json))

/-- Reads an element. -/
def element? : Nat → Json → Option Element
  | 0, _ => none
  | fuel + 1, json => do
    let opening ← json.get? "openingElement"
    return .mk (span json) (← (opening.get? "name").bind (tagName? fuel))
      (← (items "attributes" opening).mapM (jsxAttribute? fuel))
      (← (items "children" json).mapM (child? fuel))
      (present? "closingElement" json).isSome

/-- Reads an entry of a tag. -/
def jsxAttribute? : Nat → Json → Option Attribute
  | 0, _ => none
  | fuel + 1, json =>
    match tag json with
    | "JSXSpreadAttribute" => do
      return .spread (span json) (← (json.get? "argument").bind (expression? fuel))
    | _ => do
      let value ← match present? "value" json with
        | none => some none
        | some value => (attributeValue? fuel value).map some
      return .plain (span json) (← (json.get? "name").bind attributeName?) value

/-- Reads the value of an attribute. -/
def attributeValue? : Nat → Json → Option AttributeValue
  | 0, _ => none
  | fuel + 1, json =>
    match tag json with
    | "JSXExpressionContainer" => do
      return .container (span json) (← (json.get? "expression").bind (contents? fuel))
    | "JSXElement" => (element? fuel json).map .element
    | "JSXFragment" =>
      ((items "children" json).mapM (child? fuel)).map (.fragment (span json))
    | _ => (text? "value" json).map (.string (span json))

/-- Reads what stands between two tags. -/
def child? : Nat → Json → Option Child
  | 0, _ => none
  | fuel + 1, json =>
    match tag json with
    | "JSXExpressionContainer" => do
      return .container (span json) (← (json.get? "expression").bind (contents? fuel))
    | "JSXSpreadChild" => do
      return .spread (span json) (← (json.get? "expression").bind (expression? fuel))
    | "JSXElement" => (element? fuel json).map .element
    | "JSXFragment" =>
      ((items "children" json).mapM (child? fuel)).map (.fragment (span json))
    | _ => (text? "value" json).map (.text (span json))

/-- Reads what stands in braces, if anything does. -/
def contents? : Nat → Json → Option (Option Expression)
  | 0, _ => none
  | fuel + 1, json =>
    match tag json with
    | "JSXEmptyExpression" => some none
    | _ => (expression? fuel json).map some

end

end Reader

/-- The source type of a document. -/
def Reader.sourceType (json : Json) : SourceType :=
  if text? "sourceType" json = some "script" then .script else .module

/-- Reads the program of a document, if it is one. -/
def ofJson? (json : Json) : Option Program :=
  match Reader.tag json with
  | "Program" =>
    ((Reader.bodyItems json).mapM (Reader.statement? (3 * json.depth))).map
      (Program.mk (Reader.sourceType json))
  | _ => none

end JsxFactory.Program
