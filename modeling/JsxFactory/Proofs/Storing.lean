/-
# Lowering into a store, one construct at a time

The code that lowers a program adds slots in the order in which it meets them. That code
is the fold of `stores`, the algebra that adds a node after its children, from left to
right, and that leaves a slot behind where a name is abandoned (`Program.store_eq`). So
what is proved of that algebra is proved of the code.
-/

import JsxFactory.Proofs.Folding
import JsxFactory.Tree.Lowering

namespace JsxFactory

open JsxFactory.Tree (place placeList)

namespace Program

/-- Adds a sequence. -/
def storeSequence (items : List (Lowerer NodeId)) : Lowerer ListId := do
  placeList (← items.mapM id)

/-- Nodes and sequences that are added to a store, children first and from left to right. -/
def stores : Algebra (Lowerer NodeId) where
  node node := do place (← node.mapM id storeSequence)
  array elements := do
    let elements ← placeList (← elements.mapM (·.getD (place .hole)))
    place (.array elements)
  unsupported := unsupported
  abandoning name rest := do
    let _ ← place (.identifier name)
    rest

/-- Adds what is in a field that may be absent. -/
def storeField : Option (Lowerer NodeId) → Lowerer (Field NodeId ListId)
  | some child => Field.node <$> child
  | none => pure (.value .null)

/-- Adds what is in the fields of a generic node. -/
abbrev storeFields : List (String × Field (Lowerer NodeId) (List (Lowerer NodeId))) →
    Lowerer (List (String × Field NodeId ListId)) :=
  Node.mapM.mapFields id storeSequence

section Fields

variable (key : String) (rest : List (String × Field (Lowerer NodeId) (List (Lowerer NodeId))))

@[simp] theorem storeFields_nil : storeFields [] = pure [] := rfl

@[simp] theorem storeFields_node (child : Lowerer NodeId) :
    storeFields ((key, .node child) :: rest) = do
      return (key, .node (← child)) :: (← storeFields rest) := rfl

@[simp] theorem storeFields_list (children : List (Lowerer NodeId)) :
    storeFields ((key, .list children) :: rest) = do
      return (key, .list (← storeSequence children)) :: (← storeFields rest) := rfl

@[simp] theorem storeFields_value (json : Json) :
    storeFields ((key, .value json) :: rest) = do
      return (key, .value json) :: (← storeFields rest) := rfl

@[simp] theorem storeFields_optional (child : Option (Lowerer NodeId)) :
    storeFields ((key, optional child) :: rest) = do
      return (key, ← storeField child) :: (← storeFields rest) := by
  cases child <;> simp [storeField, optional]

end Fields

@[simp] theorem stores_node (node : Node (Lowerer NodeId) (List (Lowerer NodeId))) :
    stores.node node = (do place (← node.mapM id storeSequence)) := rfl

@[simp] theorem stores_array (elements : List (Option (Lowerer NodeId))) :
    stores.array elements = (do
      let elements ← placeList (← elements.mapM (·.getD (place .hole)))
      place (.array elements)) := rfl

/-- A node is added after what its edges lead to. -/
theorem stores_node_eq (node : Node (Lowerer NodeId) (List (Lowerer NodeId))) :
    stores.node node =
      node.edges.mapM (Edge.mapM id storeSequence) >>= fun places => place (node.fill places) := by
  rw [stores_node, Node.mapM_eq_fill, bind_map_left]

/-- An array is a node whose missing elements are holes. -/
theorem stores_array_eq (elements : List (Option (Lowerer NodeId))) :
    stores.array elements = stores.node (.array (elements.map (·.getD (place .hole)))) := by
  simp [Node.mapM, storeSequence, List.mapM_map]

@[simp] theorem stores_abandoning (name : String) (rest : Lowerer NodeId) :
    stores.abandoning name rest = (do
      let _ ← place (.identifier name)
      rest) := rfl

@[simp] theorem stores_generic (kind : String)
    (fields : List (String × Field (Lowerer NodeId) (List (Lowerer NodeId)))) :
    stores.generic kind fields = (do place (.generic kind (← storeFields fields))) := by
  simp [Algebra.generic, Node.mapM, storeFields]

@[simp] theorem stores_identifier (name : String) :
    stores.identifier name = place (.identifier name) := rfl

@[simp] theorem stores_text (value : String) : stores.text value = place (.text value) := rfl

@[simp] theorem stores_markupName (name : String) :
    stores.markupName name = storeMarkupName name := rfl

@[simp] theorem stores_namespacedName (space name : String) :
    stores.namespacedName space name = storeNamespacedName space name := by
  simp [Algebra.namespacedName, storeNamespacedName]

@[simp] theorem stores_unsupported (what : String) (span : Span) :
    stores.unsupported what span = unsupported what span := rfl

@[simp] theorem stores_block (statements : List (Lowerer NodeId)) :
    stores.block statements = storeBlock (statements.mapM id) := by
  simp [Algebra.block, storeBlock, storeSequence]

@[simp] theorem stores_variableDeclaration (kind : String) (declarators : List (Lowerer NodeId)) :
    stores.variableDeclaration kind declarators = storeVariables kind (declarators.mapM id) := by
  simp [Algebra.variableDeclaration, storeVariables, storeSequence, textField]

@[simp] theorem stores_fragment (children : List (Lowerer NodeId)) :
    stores.fragment children = storeFragment (children.mapM id) := by
  simp [Algebra.fragment, storeFragment, storeSequence]

theorem mapM_store_eq {α : Type} {store fold : α → Lowerer NodeId} (same : ∀ a, store a = fold a)
    (items : List α) : items.mapM store = (items.map fold).mapM id := by
  rw [List.mapM_map, funext same]
  rfl

theorem storeNumber_eq (span : Span) (value : Option Double) :
    storeNumber span value = foldNumber stores span value := by
  cases value <;> rfl

theorem Binding.store_eq (binding : Binding) : binding.store = binding.fold stores := by
  cases binding <;> rfl

theorem ExportName.store_eq (name : ExportName) : name.store = name.fold stores := by
  cases name <;> rfl

theorem ImportSpecifier.store_eq (specifier : ImportSpecifier) :
    specifier.store = specifier.fold stores := by
  cases specifier <;> simp [ImportSpecifier.store, ImportSpecifier.fold, ExportName.store_eq]

theorem ExportSpecifier.store_eq (specifier : ExportSpecifier) :
    specifier.store = specifier.fold stores := by
  simp [ExportSpecifier.store, ExportSpecifier.fold, ExportName.store_eq]

theorem Quasi.store_eq (quasi : Quasi) : quasi.store = quasi.fold stores := by
  simp [Quasi.store, Quasi.fold, flag]

theorem DottedName.store_eq (name : DottedName) : name.store = name.fold stores := by
  induction name with
  | simple => rfl
  | member _ _ _ ih => simp [DottedName.store, DottedName.fold, ih, Node.mapM]

theorem TagName.store_eq (name : TagName) : name.store = name.fold stores := by
  cases name with
  | dotted name => exact name.store_eq
  | namespaced => simp [TagName.store, TagName.fold]

theorem AttributeName.store_eq (name : AttributeName) : name.store = name.fold stores := by
  cases name with
  | simple => rfl
  | namespaced => simp [AttributeName.store, AttributeName.fold]

-- One case for each construct. Once its parts are known to be added alike, both sides are the
-- same steps, but for the nesting of the binds.
mutual

theorem Expression.store_eq : ∀ expression : Expression,
    expression.store = expression.fold stores
  | .identifier .. | .string .. | .boolean .. | .null _ | .unsupported _ | .this _ => rfl
  | .number span value => storeNumber_eq span value
  | .template _ quasis expressions => by
    simp [Expression.store, Expression.fold, storeSequence, mapM_store_eq Quasi.store_eq,
      storeExpressions_eq expressions]
  | .parenthesized _ inner => inner.store_eq
  | .staticMember _ target _ _ => by
    simp [Expression.store, Expression.fold, storeStaticMember, Node.mapM, target.store_eq]
  | .computedMember _ target key _ => by
    simp [Expression.store, Expression.fold, storeComputedMember, Node.mapM, target.store_eq,
      key.store_eq]
  | .binary _ _ left right => by
    simp [Expression.store, Expression.fold, left.store_eq, right.store_eq, textField]
  | .logical _ _ left right => by
    simp [Expression.store, Expression.fold, left.store_eq, right.store_eq, textField]
  | .unary _ _ argument => by
    simp [Expression.store, Expression.fold, argument.store_eq, textField, flag]
  | .assignment _ _ target value => by
    simp [Expression.store, Expression.fold, target.store_eq, value.store_eq, textField]
  | .conditional _ test consequent alternate => by
    simp [Expression.store, Expression.fold, test.store_eq, consequent.store_eq,
      alternate.store_eq]
  | .call _ callee arguments _ => by
    simp [Expression.store, Expression.fold, callee.store_eq, storeArguments_eq arguments,
      storeSequence, Node.mapM]
  | .construction _ callee arguments => by
    simp [Expression.store, Expression.fold, callee.store_eq, storeArguments_eq arguments,
      storeSequence]
  | .function function => function.store_eq _
  -- Whether there is a rest parameter decides how far the code comes.
  | .arrow _ _ _ ⟨_, some _⟩ _ _ => by
    simp [Expression.store, Expression.fold, Parameters.store]
  | .arrow _ isExpression _ ⟨items, none⟩ span statements => by
    cases isExpression <;>
      simp [Expression.store, Expression.fold, Parameters.store, storeSequence, flag,
        mapM_store_eq Binding.store_eq, storeStatements_eq statements,
        storeExpressionBody_eq span statements]
  | .array _ elements => by
    simp [Expression.store, Expression.fold, storeElements_eq elements]
  | .object _ properties => by
    simp [Expression.store, Expression.fold, storeProperties_eq properties, storeSequence,
      Node.mapM]
  | .element element => element.store_eq
  | .fragment _ children => by
    simp [Expression.store, Expression.fold, storeChildren_eq children]
termination_by structural expression => expression

theorem storeExpressions_eq : ∀ expressions : List Expression,
    storeExpressions expressions = (foldExpressions stores expressions).mapM id
  | [] => rfl
  | expression :: rest => by
    simp [storeExpressions, foldExpressions, expression.store_eq, storeExpressions_eq rest]

theorem Target.store_eq : ∀ target : Target, target.store = target.fold stores
  | .identifier .. | .unsupported _ => rfl
  | .staticMember _ target _ _ => by
    simp [Target.store, Target.fold, storeStaticMember, Node.mapM, target.store_eq]
  | .computedMember _ target key _ => by
    simp [Target.store, Target.fold, storeComputedMember, Node.mapM, target.store_eq,
      key.store_eq]

theorem Argument.store_eq : ∀ argument : Argument, argument.store = argument.fold stores
  | .plain value => value.store_eq
  | .spread _ value => by simp [Argument.store, Argument.fold, value.store_eq, Node.mapM]

theorem storeArguments_eq : ∀ arguments : List Argument,
    storeArguments arguments = (foldArguments stores arguments).mapM id
  | [] => rfl
  | argument :: rest => by
    simp [storeArguments, foldArguments, argument.store_eq, storeArguments_eq rest]

theorem storeElements_eq : ∀ elements : List (Option Argument),
    storeElements elements = (foldElements stores elements).mapM (·.getD (place .hole))
  | [] => rfl
  | none :: rest => by simp [storeElements, foldElements, storeElements_eq rest]
  | some element :: rest => by
    simp [storeElements, foldElements, element.store_eq, storeElements_eq rest]

theorem PropertyKey.store_eq : ∀ key : PropertyKey, key.store = key.fold stores
  | .name .. | .privateName _ => rfl
  | .expression value => value.store_eq

theorem Property.store_eq : ∀ property : Property, property.store = property.fold stores
  | .plain _ key value _ _ _ _ => by
    simp [Property.store, Property.fold, key.store_eq, value.store_eq, Node.mapM]
  | .spread _ value => by simp [Property.store, Property.fold, value.store_eq, Node.mapM]

theorem storeProperties_eq : ∀ properties : List Property,
    storeProperties properties = (foldProperties stores properties).mapM id
  | [] => rfl
  | property :: rest => by
    simp [storeProperties, foldProperties, property.store_eq, storeProperties_eq rest]

theorem Function.store_eq (kind : String) : ∀ function : Function,
    function.store kind = function.fold stores kind
  | .mk _ none _ _ ⟨_, some _⟩ _ => by
    simp [Function.store, Function.fold, Parameters.store]
  | .mk _ (some _) _ _ ⟨_, some _⟩ _ => by
    simp [Function.store, Function.fold, Parameters.store]
  | .mk _ name _ _ ⟨items, none⟩ body => by
    cases name <;>
      simp [Function.store, Function.fold, Parameters.store, storeSequence, flag, storeField,
        mapM_store_eq Binding.store_eq, storeBody_eq body]

theorem storeBody_eq : ∀ body : Option (List Statement),
    storeBody body = storeField (foldBody stores body)
  | none => rfl
  | some statements => by
    simp [storeBody, foldBody, storeField, storeStatements_eq statements]

theorem storeExpressionBody_eq (span : Span) : ∀ statements : List Statement,
    storeExpressionBody span statements = foldExpressionBody stores span statements
  | .expression _ value :: _ => value.store_eq
  | [] => rfl
  | .returns .. :: _ | .variables .. :: _ | .function _ :: _ | .block .. :: _
  | .conditional .. :: _ | .imports .. :: _ | .exportDefault .. :: _ | .exportNamed .. :: _
  | .unsupported _ :: _ => rfl

theorem Statement.store_eq : ∀ statement : Statement, statement.store = statement.fold stores
  | .expression _ value => by simp [Statement.store, Statement.fold, value.store_eq]
  | .returns _ value => by simp [Statement.store, Statement.fold, storeOptional_eq value]
  | .variables _ _ declarators => by
    simp [Statement.store, Statement.fold, storeDeclarators_eq declarators]
  | .function function => function.store_eq _
  | .block _ body => by simp [Statement.store, Statement.fold, storeStatements_eq body]
  | .conditional _ test consequent alternate => by
    simp [Statement.store, Statement.fold, test.store_eq, consequent.store_eq,
      storeAlternate_eq alternate]
  | .imports .. => by
    simp [Statement.store, Statement.fold, storeSequence, mapM_store_eq ImportSpecifier.store_eq]
  | .exportDefault _ declaration => by
    simp [Statement.store, Statement.fold, declaration.store_eq]
  | .exportNamed _ declaration _ source => by
    cases source <;>
      simp [Statement.store, Statement.fold, storeSequence, storeField,
        mapM_store_eq ExportSpecifier.store_eq, storeDeclaration_eq declaration]
  | .unsupported _ => rfl

theorem storeStatements_eq : ∀ statements : List Statement,
    storeStatements statements = (foldStatements stores statements).mapM id
  | [] => rfl
  | statement :: rest => by
    simp [storeStatements, foldStatements, statement.store_eq, storeStatements_eq rest]

theorem storeOptional_eq : ∀ value : Option Expression,
    storeOptional value = storeField (foldOptional stores value)
  | none => rfl
  | some expression => by
    simp [storeOptional, foldOptional, storeField, expression.store_eq]

theorem storeAlternate_eq : ∀ alternate : Option Statement,
    storeAlternate alternate = storeField (foldAlternate stores alternate)
  | none => rfl
  | some statement => by
    simp [storeAlternate, foldAlternate, storeField, statement.store_eq]

theorem Declarator.store_eq : ∀ declarator : Declarator,
    declarator.store = declarator.fold stores
  | .mk _ binding value => by
    simp [Declarator.store, Declarator.fold, binding.store_eq, storeOptional_eq value]

theorem storeDeclarators_eq : ∀ declarators : List Declarator,
    storeDeclarators declarators = (foldDeclarators stores declarators).mapM id
  | [] => rfl
  | declarator :: rest => by
    simp [storeDeclarators, foldDeclarators, declarator.store_eq, storeDeclarators_eq rest]

theorem DefaultExport.store_eq : ∀ declaration : DefaultExport,
    declaration.store = declaration.fold stores
  | .function function => function.store_eq _
  | .expression value => value.store_eq
  | .unsupported _ => rfl

theorem storeDeclaration_eq : ∀ declaration : Option Declaration,
    storeDeclaration declaration = storeField (foldDeclaration stores declaration)
  | none => rfl
  | some declaration => by
    simp [storeDeclaration, foldDeclaration, storeField, declaration.store_eq]

theorem Declaration.store_eq : ∀ declaration : Declaration,
    declaration.store = declaration.fold stores
  | .variables _ _ declarators => by
    simp [Declaration.store, Declaration.fold, storeDeclarators_eq declarators]
  | .function function => function.store_eq _
  | .unsupported _ => rfl

theorem Element.store_eq : ∀ element : Element, element.store = element.fold stores
  | .mk _ name attributes children _ => by
    simp [Element.store, Element.fold, name.store_eq, storeAttributes_eq attributes,
      storeChildren_eq children, storeSequence, Node.mapM]

theorem Attribute.store_eq : ∀ entry : Attribute, entry.store = entry.fold stores
  | .plain _ name none => by
    simp [Attribute.store, Attribute.fold, name.store_eq, storeAttributeValue, foldAttributeValue,
      Node.mapM]
  | .plain _ name (some value) => by
    simp [Attribute.store, Attribute.fold, name.store_eq, storeAttributeValue, foldAttributeValue,
      value.store_eq, Node.mapM]
  | .spread _ value => by simp [Attribute.store, Attribute.fold, value.store_eq, Node.mapM]

theorem storeAttributes_eq : ∀ attributes : List Attribute,
    storeAttributes attributes = (foldAttributes stores attributes).mapM id
  | [] => rfl
  | entry :: rest => by
    simp [storeAttributes, foldAttributes, entry.store_eq, storeAttributes_eq rest]

theorem AttributeValue.store_eq : ∀ value : AttributeValue, value.store = value.fold stores
  | .string .. => rfl
  | .container _ value => storeContainer_eq value
  | .element element => element.store_eq
  | .fragment _ children => by
    simp [AttributeValue.store, AttributeValue.fold, storeChildren_eq children]

theorem Child.store_eq : ∀ child : Child, child.store = child.fold stores
  | .text .. => rfl
  | .container _ value => storeContainer_eq value
  | .spread _ value => by simp [Child.store, Child.fold, value.store_eq]
  | .element element => element.store_eq
  | .fragment _ children => by simp [Child.store, Child.fold, storeChildren_eq children]

theorem storeContainer_eq : ∀ value : Option Expression,
    storeContainer value = stores.container (foldOptional stores value)
  | none => rfl
  | some expression => by
    simp [storeContainer, foldOptional, Algebra.container, expression.store_eq, Node.mapM]

theorem storeChildren_eq : ∀ children : List Child,
    storeChildren children = (foldChildren stores children).mapM id
  | [] => rfl
  | child :: rest => by
    simp [storeChildren, foldChildren, child.store_eq, storeChildren_eq rest]

end

/-- The code that lowers a program is the fold that adds its constructs to a store. -/
theorem store_eq (program : Program) : program.store = program.fold stores := by
  simp [store, fold, storeStatements_eq, storeSequence, textField]

end Program

end JsxFactory
