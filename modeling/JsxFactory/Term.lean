/-
# Terms

A term is a syntax node with its children inside it. It has no identity and no
sharing: two terms with the same shape and the same children are the same.
-/

import JsxFactory.Node

namespace JsxFactory

/-- A syntax node whose children are terms. -/
inductive Term
  | mk (node : Node Term (List Term))
deriving Repr

namespace Term

/-- The outermost node of a term. -/
def node : Term → Node Term (List Term)
  | ⟨node⟩ => node

/-- The kind of the outermost node. -/
def kind (term : Term) : String :=
  term.node.kind

/-- The absent node. -/
def hole : Term := ⟨.hole⟩

instance : Inhabited Term := ⟨hole⟩

/-- An identifier. -/
def identifier (name : String) : Term := ⟨.identifier name⟩

/-- A string literal. -/
def text (value : String) : Term := ⟨.text value⟩

/-- A generic node. -/
def generic (kind : String) (fields : List (String × Field Term (List Term))) : Term :=
  ⟨.generic kind fields⟩

end Term

end JsxFactory
