/-
# Programs

The syntax of a program as a parser delivers it. Every construct carries its span
in the source. Constructs that lowering has no use for are there by their span
only; parentheses are kept, so that two ways of writing an expression are two
different programs.
-/

import JsxFactory.Diagnostic
import JsxFactory.Node

namespace JsxFactory

namespace Program

/-- A name that is bound, or a pattern that takes a value apart. -/
inductive Binding
  | identifier (span : Span) (name : String)
  | pattern (span : Span)
deriving DecidableEq, Repr, Inhabited

/-- The parameters of a function. A rest parameter is there by its span. -/
structure Parameters where
  items : List Binding
  rest : Option Span
deriving DecidableEq, Repr, Inhabited

/-- A piece of text in a template. The text that its escapes stand for is absent
when an escape is not valid. -/
structure Quasi where
  span : Span
  raw : String
  cooked : Option String
  tail : Bool
deriving DecidableEq, Repr, Inhabited

/-- A name that crosses the border of a module. -/
inductive ExportName
  | identifier (span : Span) (name : String)
  | string (span : Span) (value : String)
deriving DecidableEq, Repr, Inhabited

/-- One name of an import. -/
inductive ImportSpecifier
  | named (span : Span) (imported : ExportName) (binding : String)
  | default (span : Span) (binding : String)
  | all (span : Span) (binding : String)
deriving DecidableEq, Repr, Inhabited

/-- One name of an export. -/
structure ExportSpecifier where
  span : Span
  inner : ExportName
  exported : ExportName
deriving DecidableEq, Repr, Inhabited

/-- A markup name made of identifiers with dots between them. -/
inductive DottedName
  | simple (span : Span) (name : String)
  | member (span : Span) (object : DottedName) (property : String)
deriving DecidableEq, Repr, Inhabited

/-- The name of a tag. -/
inductive TagName
  | dotted (name : DottedName)
  | namespaced (span : Span) (space name : String)
deriving DecidableEq, Repr, Inhabited

/-- The name of an attribute. -/
inductive AttributeName
  | simple (span : Span) (name : String)
  | namespaced (span : Span) (space name : String)
deriving DecidableEq, Repr, Inhabited

mutual

/-- An expression. -/
inductive Expression
  | identifier (span : Span) (name : String)
  | string (span : Span) (value : String)
  | boolean (span : Span) (value : Bool)
  | null (span : Span)
  /-- A number; one that is not finite has no value. -/
  | number (span : Span) (value : Option Double)
  | template (span : Span) (quasis : List Quasi) (expressions : List Expression)
  | this (span : Span)
  | parenthesized (span : Span) (inner : Expression)
  | staticMember (span : Span) (object : Expression) (property : String) (optional : Bool)
  | computedMember (span : Span) (object property : Expression) (optional : Bool)
  | binary (span : Span) (operator : String) (left right : Expression)
  | logical (span : Span) (operator : String) (left right : Expression)
  | unary (span : Span) (operator : String) (argument : Expression)
  | assignment (span : Span) (operator : String) (target : Target) (value : Expression)
  | conditional (span : Span) (test consequent alternate : Expression)
  | call (span : Span) (callee : Expression) (arguments : List Argument) (optional : Bool)
  | construction (span : Span) (callee : Expression) (arguments : List Argument)
  | function (function : Function)
  /-- An arrow function. A body that is a mere expression is there as a statement, the
  first and only one that a parser delivers. -/
  | arrow (span : Span) (isExpression isAsync : Bool) (parameters : Parameters) (bodySpan : Span)
      (statements : List Statement)
  /-- An array; an element that is left out is `none`. -/
  | array (span : Span) (elements : List (Option Argument))
  | object (span : Span) (properties : List Property)
  | element (element : Element)
  | fragment (span : Span) (children : List Child)
  | unsupported (span : Span)

/-- What is assigned to. -/
inductive Target
  | identifier (span : Span) (name : String)
  | staticMember (span : Span) (object : Expression) (property : String) (optional : Bool)
  | computedMember (span : Span) (object property : Expression) (optional : Bool)
  | unsupported (span : Span)

/-- An argument of a call, or an element of an array. -/
inductive Argument
  | plain (value : Expression)
  | spread (span : Span) (value : Expression)

/-- The key of a member of an object. A private name is there by its span. -/
inductive PropertyKey
  | name (span : Span) (name : String)
  | privateName (span : Span)
  | expression (value : Expression)

/-- A member of an object. -/
inductive Property
  | plain (span : Span) (key : PropertyKey) (value : Expression) (kind : PropertyKind)
      (method shorthand computed : Bool)
  | spread (span : Span) (value : Expression)

/-- A function that has a `this` of its own. Its body is absent in a mere
declaration. -/
inductive Function
  | mk (span : Span) (name : Option String) (isGenerator isAsync : Bool)
      (parameters : Parameters) (body : Option (List Statement))

/-- A statement. -/
inductive Statement
  | expression (span : Span) (value : Expression)
  | returns (span : Span) (value : Option Expression)
  | variables (span : Span) (kind : String) (declarators : List Declarator)
  | function (function : Function)
  | block (span : Span) (body : List Statement)
  | conditional (span : Span) (test : Expression) (consequent : Statement)
      (alternate : Option Statement)
  | imports (span : Span) (specifiers : List ImportSpecifier) (source : String)
  | exportDefault (span : Span) (declaration : DefaultExport)
  | exportNamed (span : Span) (declaration : Option Declaration)
      (specifiers : List ExportSpecifier) (source : Option String)
  | unsupported (span : Span)

/-- One variable of a declaration. -/
inductive Declarator
  | mk (span : Span) (binding : Binding) (value : Option Expression)

/-- What a module exports by default. -/
inductive DefaultExport
  | function (function : Function)
  | expression (value : Expression)
  | unsupported (span : Span)

/-- A declaration that is exported. -/
inductive Declaration
  | variables (span : Span) (kind : String) (declarators : List Declarator)
  | function (function : Function)
  | unsupported (span : Span)

/-- A markup element. Without a closing tag it closes itself. -/
inductive Element
  | mk (span : Span) (name : TagName) (attributes : List Attribute) (children : List Child)
      (hasClosing : Bool)

/-- An entry of a tag. -/
inductive Attribute
  | plain (span : Span) (name : AttributeName) (value : Option AttributeValue)
  | spread (span : Span) (value : Expression)

/-- The value of an attribute. Braces may be empty. Character references in a
string are not decoded yet. -/
inductive AttributeValue
  | string (span : Span) (raw : String)
  | container (span : Span) (value : Option Expression)
  | element (element : Element)
  | fragment (span : Span) (children : List Child)

/-- What stands between two tags. Braces may be empty. Character references in
text are not decoded yet. -/
inductive Child
  | text (span : Span) (raw : String)
  | container (span : Span) (value : Option Expression)
  | spread (span : Span) (value : Expression)
  | element (element : Element)
  | fragment (span : Span) (children : List Child)

end

/-- Whether a program is a module or a script. -/
inductive SourceType
  | module
  | script
deriving DecidableEq, Repr, Inhabited

/-- The spelling of a source type. -/
def SourceType.name : SourceType → String
  | .module => "module"
  | .script => "script"

end Program

/-- A program. -/
structure Program where
  sourceType : Program.SourceType
  body : List Program.Statement

end JsxFactory
