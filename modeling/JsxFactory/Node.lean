/-
# Shapes of syntax nodes

A node shape says which children a node has, not where they are kept. The same
shapes serve for terms, whose children stand inside their parent, and for trees
in a store, whose children are ids. Kinds that the desugaring works with have
shapes of their own; any other node is generic and keeps all its fields.
-/

import JsxFactory.Json

namespace JsxFactory

/-- The value of a literal. -/
inductive Primitive
  | null
  | boolean (value : Bool)
  | number (value : Number)
  | string (value : String)
deriving DecidableEq, Repr, Inhabited

namespace Primitive

/-- A primitive as a JSON value. -/
def toJson : Primitive → Json
  | .null => .null
  | .boolean value => .bool value
  | .number value => .number value
  | .string value => .string value

/-- The primitive that a JSON value is, unless it is an array or an object. -/
def ofJson? : Json → Option Primitive
  | .null => some .null
  | .bool value => some (.boolean value)
  | .number value => some (.number value)
  | .string value => some (.string value)
  | .array _ | .object _ => none

/-- Whether two primitives are the same, numbers by value. -/
def same : Primitive → Primitive → Bool
  | .number x, .number y => x.sameValue y
  | x, y => x = y

end Primitive

/-- What an object property defines. -/
inductive PropertyKind
  | init
  | get
  | set
deriving DecidableEq, Repr, Inhabited

namespace PropertyKind

/-- The spelling of a property kind. -/
def name : PropertyKind → String
  | .init => "init"
  | .get => "get"
  | .set => "set"

/-- The property kind of a spelling. -/
def ofName? (s : String) : Option PropertyKind :=
  if s = "init" then some .init
  else if s = "get" then some .get
  else if s = "set" then some .set
  else none

theorem ofName?_name (kind : PropertyKind) : ofName? kind.name = some kind := by
  cases kind <;> rfl

end PropertyKind

/-- A field of a generic node. Children are of type `α`, sequences of children
of type `β`. -/
inductive Field (α β : Type)
  | node (child : α)
  | list (children : β)
  | value (json : Json)
deriving Repr

/-- A syntax node with children of type `α` and sequences of children of type
`β`. -/
inductive Node (α β : Type)
  /-- An absent node: an array hole or a vacated place. -/
  | hole
  | jsxElement (name : α) (attributes children : β) (selfClosing : Bool)
  | jsxIdentifier (name : String)
  | jsxMember (object property : α)
  /-- An attribute; without a value it stands for `true`. -/
  | jsxAttribute (name : α) (value : Option α)
  | jsxSpreadAttribute (argument : α)
  | jsxContainer (expression : α)
  | jsxText (value : String)
  | identifier (name : String)
  | literal (value : Primitive)
  | property (key value : α) (kind : PropertyKind) (method shorthand computed : Bool)
  | spread (argument : α)
  | object (properties : β)
  | array (elements : β)
  | call (callee : α) (arguments : β) (optional : Bool)
  | member (object property : α) (computed optional : Bool)
  /-- A node of any other kind, with its fields in order. -/
  | generic (kind : String) (fields : List (String × Field α β))
deriving Repr

/-- A child of a node, or a sequence of children. -/
inductive Edge (α β : Type)
  | node (child : α)
  | list (children : β)
deriving DecidableEq, Repr

/-- The child that a field holds, if it holds any. -/
def Field.edge? {α β : Type} : Field α β → Option (Edge α β)
  | .node child => some (.node child)
  | .list children => some (.list children)
  | .value _ => none

namespace Node

variable {α β : Type}

/-- The kind of a node, as spelled in its `type` field. -/
def kind : Node α β → String
  | .hole => "Hole"
  | .jsxElement .. => "JSXElement"
  | .jsxIdentifier _ => "JSXIdentifier"
  | .jsxMember .. => "JSXMemberExpression"
  | .jsxAttribute .. => "JSXAttribute"
  | .jsxSpreadAttribute _ => "JSXSpreadAttribute"
  | .jsxContainer _ => "JSXExpressionContainer"
  | .jsxText _ => "JSXText"
  | .identifier _ => "Identifier"
  | .literal _ => "Literal"
  | .property .. => "Property"
  | .spread _ => "SpreadElement"
  | .object _ => "ObjectExpression"
  | .array _ => "ArrayExpression"
  | .call .. => "CallExpression"
  | .member .. => "MemberExpression"
  | .generic kind _ => kind

/-- The children of a node, in the order in which they are walked. -/
def edges : Node α β → List (Edge α β)
  | .hole | .jsxIdentifier _ | .jsxText _ | .identifier _ | .literal _ => []
  | .jsxElement name attributes children _ => [.node name, .list attributes, .list children]
  | .jsxMember base name => [.node base, .node name]
  | .jsxAttribute name none => [.node name]
  | .jsxAttribute name (some value) => [.node name, .node value]
  | .jsxSpreadAttribute argument => [.node argument]
  | .jsxContainer expression => [.node expression]
  | .property key value _ _ _ _ => [.node key, .node value]
  | .spread argument => [.node argument]
  | .object properties => [.list properties]
  | .array elements => [.list elements]
  | .call callee arguments _ => [.node callee, .list arguments]
  | .member base name _ _ => [.node base, .node name]
  | .generic _ fields => fields.filterMap fun (_, field) => field.edge?

/-- A string literal. -/
def text (value : String) : Node α β :=
  .literal (.string value)

/-- A property that defines a plain `key: value`. -/
def plainProperty (key value : α) : Node α β :=
  .property key value .init false false false

/-- The node with its children replaced, in walking order, by the results of
`f` and `g`. -/
def mapM {m : Type → Type} [Monad m] {γ δ : Type} (f : α → m γ) (g : β → m δ) :
    Node α β → m (Node γ δ)
  | .hole => pure .hole
  | .jsxElement name attributes children selfClosing => do
    return .jsxElement (← f name) (← g attributes) (← g children) selfClosing
  | .jsxIdentifier name => pure (.jsxIdentifier name)
  | .jsxMember base name => do return .jsxMember (← f base) (← f name)
  | .jsxAttribute name none => do return .jsxAttribute (← f name) none
  | .jsxAttribute name (some value) => do return .jsxAttribute (← f name) (some (← f value))
  | .jsxSpreadAttribute argument => do return .jsxSpreadAttribute (← f argument)
  | .jsxContainer expression => do return .jsxContainer (← f expression)
  | .jsxText value => pure (.jsxText value)
  | .identifier name => pure (.identifier name)
  | .literal value => pure (.literal value)
  | .property key value kind method shorthand computed => do
    return .property (← f key) (← f value) kind method shorthand computed
  | .spread argument => do return .spread (← f argument)
  | .object properties => do return .object (← g properties)
  | .array elements => do return .array (← g elements)
  | .call callee arguments optional => do return .call (← f callee) (← g arguments) optional
  | .member base name computed optional => do
    return .member (← f base) (← f name) computed optional
  | .generic kind fields => do return .generic kind (← mapFields fields)
where
  /-- Maps the children in the fields of a generic node. -/
  mapFields : List (String × Field α β) → m (List (String × Field γ δ))
    | [] => pure []
    | (key, .node child) :: rest => do return (key, .node (← f child)) :: (← mapFields rest)
    | (key, .list children) :: rest => do
      return (key, .list (← g children)) :: (← mapFields rest)
    | (key, .value json) :: rest => do return (key, .value json) :: (← mapFields rest)

/-- The first field of a generic node that has the given name. -/
def field? (name : String) : Node α β → Option (Field α β)
  | .generic _ fields => fields.lookup name
  | _ => none

end Node

end JsxFactory
