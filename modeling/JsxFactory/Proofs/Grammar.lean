/-
# The grammar of documents

Which documents are read, and what is reported about the others. Each kind of
node makes demands on its fields, in a fixed order; a table lists them. A document
is grammatical if it is `null` or a node object that meets the demands of its
kind, the nodes in its fields being grammatical in turn. The first defect of any
other document is found by going through the demands in their order, and through
each array from first to last, up to the first thing that is not as demanded.

Neither notion mentions the reader. The main statement is that the reader accepts
just the grammatical documents and reports the first defect of every other.
-/

import JsxFactory.Proofs.Sources
import JsxFactory.Proofs.Reading

namespace JsxFactory

namespace Estree

/-! ## Demands -/

/-- What a field has to hold. -/
inductive Demand
  /-- Anything at all. -/
  | anything
  /-- An object. -/
  | object
  /-- A string. -/
  | text
  /-- A boolean, if it is there and not `null`. -/
  | flag
  /-- Neither an array nor an object. -/
  | primitive
  /-- The name of what a property defines. -/
  | propertyKind
  /-- A node. -/
  | node
  /-- A node, if it is there and not `null`. -/
  | optionalNode
  /-- An array of nodes. -/
  | nodes
deriving DecidableEq, Repr

namespace Demand

/-- Whether a field may be absent. -/
def isOptional : Demand → Bool
  | .anything | .flag | .optionalNode => true
  | _ => false

/-- What should have been there, if a value has the wrong form. -/
def mismatch? : Demand → Json → Option Expected
  | .object, .object _ => none
  | .object, _ => some .object
  | .text, .string _ => none
  | .text, _ => some .string
  | .flag, .null | .flag, .bool _ => none
  | .flag, _ => some .boolean
  | .primitive, .array _ | .primitive, .object _ => some .primitive
  | .propertyKind, .string name =>
    if name ∈ ["init", "get", "set"] then none else some .propertyKind
  | .propertyKind, _ => some .string
  | .nodes, .array _ => none
  | .nodes, _ => some .array
  | _, _ => none

/-- The values in a value that have to be nodes. -/
def nodesIn : Demand → Json → List Json
  | .node, value => [value]
  | .optionalNode, value => if value.isNull then [] else [value]
  | .nodes, .array items => items
  | _, _ => []

/-- What is demanded of a value in a generic node: what looks like a node or like
a sequence of nodes has to be one. -/
def ofValue (value : Json) : Demand :=
  if isNode value then .node
  else
    match value with
    | .array items => if isNodeList items then .nodes else .anything
    | _ => .anything

end Demand

/-- A demand on a field of a node of some kind, with what is found there. -/
structure Check where
  kind : String
  field : String
  found : Option Json
  demand : Demand

namespace Check

/-- What is wrong with the field itself, whatever the nodes in it are. -/
def fault? (check : Check) : Option ReadError :=
  match check.found with
  | none => if check.demand.isOptional then none else some (.missingField check.kind check.field)
  | some value => (check.demand.mismatch? value).map (.invalidField check.kind check.field)

/-- The values that have to be nodes. -/
def nodes (check : Check) : List Json :=
  (check.found.map check.demand.nodesIn).getD []

end Check

/-- The demands on the fields of an object. -/
def checksOf (kind : String) (members : List (String × Json)) (fields : List (String × Demand)) :
    List Check :=
  fields.map fun field => ⟨kind, field.1, members.lookup field.1, field.2⟩

/-- The fields of the kinds that have a shape of their own, in the order in which
they are looked at. Elements, whose fields are not all in one object, are absent. -/
def fieldsByKind : List (String × List (String × Demand)) :=
  [("JSXIdentifier", [("name", .text)]),
    ("JSXMemberExpression", [("object", .node), ("property", .node)]),
    ("JSXAttribute", [("name", .node), ("value", .optionalNode)]),
    ("JSXSpreadAttribute", [("argument", .node)]),
    ("JSXExpressionContainer", [("expression", .node)]),
    ("JSXText", [("value", .text)]),
    ("Identifier", [("name", .text)]),
    ("Literal", [("value", .primitive)]),
    ("Property", [("kind", .propertyKind), ("key", .node), ("value", .node), ("method", .flag),
      ("shorthand", .flag), ("computed", .flag)]),
    ("SpreadElement", [("argument", .node)]),
    ("ObjectExpression", [("properties", .nodes)]),
    ("ArrayExpression", [("elements", .nodes)]),
    ("CallExpression", [("callee", .node), ("arguments", .nodes), ("optional", .flag)]),
    ("MemberExpression", [("object", .node), ("property", .node), ("computed", .flag),
      ("optional", .flag)])]

/-- The demands on the opening tag of an element. Its own `type` is none of them. -/
def openingChecks : Option Json → List Check
  | some (.object opening) =>
    checksOf "JSXOpeningElement" opening
      [("name", .node), ("attributes", .nodes), ("selfClosing", .flag)]
  | _ => []

/-- The demands on an element: those on its opening tag, then its children. -/
def elementChecks (members : List (String × Json)) : List Check :=
  checksOf "JSXElement" members [("openingElement", .object)] ++
    (openingChecks (members.lookup "openingElement") ++
      checksOf "JSXElement" members [("children", .nodes)])

/-- The demands on a generic node: its fields in the order in which they stand. -/
def genericChecks (kind : String) (members : List (String × Json)) : List Check :=
  (members.filter fun member => member.1 ≠ "type").map fun member =>
    ⟨kind, member.1, some member.2, Demand.ofValue member.2⟩

instance (kind : String) (keys : List String) : Decidable (IsGeneric kind keys) :=
  inferInstanceAs (Decidable (_ ∨ _))

/-- The demands on a node object, in the order in which they are looked at. -/
def checks (kind : String) (members : List (String × Json)) : List Check :=
  if IsGeneric kind (members.map Prod.fst) then genericChecks kind members
  else if kind = "JSXElement" then elementChecks members
  else checksOf kind members ((fieldsByKind.lookup kind).getD [])

/-! ## Grammatical documents and first defects -/

/-- The documents of syntax trees: `null`, and node objects whose fields are as
their kind demands. -/
inductive Grammatical : Json → Prop
  | null : Grammatical .null
  | object {kind : String} {members : List (String × Json)} : tag? members = some kind →
    (∀ check ∈ checks kind members, check.fault? = none) →
    (∀ check ∈ checks kind members, ∀ inner ∈ check.nodes, Grammatical inner) →
    Grammatical (.object members)

/-- Whether a field is as demanded, the nodes in it included. -/
structure Check.Met (check : Check) : Prop where
  fault : check.fault? = none
  nodes : ∀ inner ∈ check.nodes, Grammatical inner

/-- The problem at the first place at which a document is not as demanded. -/
inductive FirstDefect : Json → ReadError → Prop
  /-- Neither `null` nor an object. -/
  | form {value : Json} : value.form ≠ .null → value.form ≠ .object →
    FirstDefect value (.notANode value.form)
  /-- An object that is not a node object. -/
  | untyped {members : List (String × Json)} : tag? members = none →
    FirstDefect (.object members) .missingType
  /-- A field that is missing or of the wrong form, after fields as demanded. -/
  | field {kind : String} {members : List (String × Json)} {met rest : List Check}
    {check : Check} {problem : ReadError} : tag? members = some kind →
    checks kind members = met ++ check :: rest → (∀ earlier ∈ met, earlier.Met) →
    check.fault? = some problem → FirstDefect (.object members) problem
  /-- A defect in a field, after fields as demanded and after grammatical nodes in
  the same field. -/
  | inside {kind : String} {members : List (String × Json)} {met rest : List Check}
    {check : Check} {before after : List Json} {inner : Json} {problem : ReadError} :
    tag? members = some kind → checks kind members = met ++ check :: rest →
    (∀ earlier ∈ met, earlier.Met) → check.fault? = none →
    check.nodes = before ++ inner :: after → (∀ earlier ∈ before, Grammatical earlier) →
    FirstDefect inner problem → FirstDefect (.object members) problem

/-! ## Reading goes through the demands -/

/-- What is reported about a reading, without the result. -/
def outcome {α : Type} (reading : Except ReadError α) : Except ReadError Unit :=
  reading.map fun _ => ()

theorem outcome_eq_ok_iff {α : Type} {reading : Except ReadError α} :
    outcome reading = pure () ↔ ∃ result, reading = .ok result := by
  cases reading with
  | error problem => exact iff_of_false (by rintro ⟨⟩) (by rintro ⟨_, ⟨⟩⟩)
  | ok result => exact iff_of_true rfl ⟨result, rfl⟩

theorem outcome_eq_error_iff {α : Type} {reading : Except ReadError α} {problem : ReadError} :
    outcome reading = .error problem ↔ reading = .error problem := by
  cases reading with
  | error other => simp [outcome, Except.map]
  | ok result => exact iff_of_false (by rintro ⟨⟩) (by rintro ⟨⟩)

@[simp] theorem outcome_map {α β : Type} (f : α → β) (reading : Except ReadError α) :
    outcome (reading.map f) = outcome reading := by
  cases reading <;> rfl

theorem forM_singleton {α : Type} (item : α) (check : α → Except ReadError Unit) :
    [item].forM check = check item := by
  rw [List.forM_eq_forM, List.forM_cons, List.forM_nil]
  cases check item <;> rfl

theorem outcome_readList (items : List Json) :
    outcome (readList items) = items.forM fun item => outcome (read item) := by
  induction items with
  | nil => rfl
  | cons first rest ih =>
    rw [List.forM_eq_forM, List.forM_cons, ← List.forM_eq_forM, ← ih, readList]
    cases read first with
    | error problem => rfl
    | ok child => cases readList rest <;> rfl

/-- Looks at a field and at the nodes in it. -/
def Check.perform (check : Check) : Except ReadError Unit :=
  match check.fault? with
  | some problem => .error problem
  | none => check.nodes.forM fun inner => outcome (read inner)

theorem perform_node (kind field : String) (value : Json) :
    Check.perform ⟨kind, field, some value, .node⟩ = outcome (read value) :=
  forM_singleton value fun inner => outcome (read inner)

/-- Whether a reading succeeds and fails as going through some checks does. -/
def Follows {α : Type} (reading : Except ReadError α) (checks : List Check) : Prop :=
  outcome reading = checks.forM Check.perform

section Following

variable {α β : Type} {kind field : String} {members : List (String × Json)}

theorem Follows.ok (result : α) : Follows (.ok result) [] :=
  rfl

theorem Follows.bind {first : Except ReadError α} {next : α → Except ReadError β}
    {done rest : List Check} (before : Follows first done) (after : ∀ a, Follows (next a) rest) :
    Follows (first >>= next) (done ++ rest) := by
  unfold Follows at before after ⊢
  rw [List.forM_eq_forM, List.forM_append, ← List.forM_eq_forM, ← before]
  cases first with
  | error problem => rfl
  | ok result => exact after result

theorem Follows.map {reading : Except ReadError α} {checks : List Check} (f : α → β)
    (follows : Follows reading checks) : Follows (reading.map f) checks :=
  (outcome_map f reading).trans follows

/-- A reading that looks at one field. -/
theorem follows_checksOf {reading : Except ReadError α} {demand : Demand}
    (performs : outcome reading = Check.perform ⟨kind, field, members.lookup field, demand⟩) :
    Follows reading (checksOf kind members [(field, demand)]) := by
  unfold Follows
  rw [performs, checksOf, List.map_singleton, forM_singleton]

/-- A reading that ends at its first check. -/
theorem follows_of_fault {check : Check} {rest : List Check} {problem : ReadError}
    (fault : check.fault? = some problem) :
    Follows (.error problem : Except ReadError α) (check :: rest) := by
  have ends : check.perform = .error problem := by rw [Check.perform, fault]
  unfold Follows
  rw [List.forM_eq_forM, List.forM_cons, ends]
  rfl

/-! ### One lemma for each reader of a field -/

/-- A reader that takes the first member with some name and passes over the others
looks the name up. -/
theorem eq_lookup {reading : List (String × Json) → Except ReadError α}
    {absent : Except ReadError α} {found : Json → Except ReadError α} (nil : reading [] = absent)
    (here : ∀ value rest, reading ((field, value) :: rest) = found value)
    (there : ∀ key value rest, key ≠ field → reading ((key, value) :: rest) = reading rest)
    (members : List (String × Json)) :
    reading members = (members.lookup field).elim absent found := by
  induction members with
  | nil => exact nil
  | cons first rest ih =>
    obtain ⟨key, value⟩ := first
    by_cases same : key = field
    · rw [same, here, List.lookup_cons_self]
      rfl
    · have differs : (field == key) = false := by simpa using Ne.symm same
      rw [there key value rest same, ih, List.lookup_cons, differs]

theorem readChild_eq_lookup :
    readChild kind field members =
      (members.lookup field).elim (.error (.missingField kind field)) read := by
  apply eq_lookup rfl
  · simp [readChild]
  · intro key value rest differs
    rw [readChild, if_neg differs]

theorem readOptional_eq_lookup :
    readOptional field members = (members.lookup field).elim (.ok none) fun value =>
      if value.isNull then .ok none else (read value).map some := by
  apply eq_lookup rfl
  · simp [readOptional]
  · intro key value rest differs
    rw [readOptional, if_neg differs]

theorem readItems_eq_lookup :
    readItems kind field members =
      (members.lookup field).elim (.error (.missingField kind field)) fun value =>
        match value with
        | .array items => readList items
        | _ => .error (.invalidField kind field .array) := by
  apply eq_lookup rfl
  · intro value rest
    cases value <;> simp [readItems]
  · intro key value rest differs
    exact readItems_of_ne differs value rest

theorem readOpening_eq_lookup :
    readOpening members =
      (members.lookup "openingElement").elim
        (.error (.missingField "JSXElement" "openingElement")) fun value =>
        match value with
        | .object opening => do
          let name ← readChild "JSXOpeningElement" "name" opening
          let attributes ← readItems "JSXOpeningElement" "attributes" opening
          let selfClosing ← flagField "JSXOpeningElement" "selfClosing" opening
          return (name, attributes, selfClosing)
        | _ => .error (.invalidField "JSXElement" "openingElement" .object) := by
  apply eq_lookup rfl
  · intro value rest
    cases value <;> simp [readOpening]
  · intro key value rest differs
    exact readOpening_of_ne differs value rest

variable (kind field members)

theorem follows_readChild :
    Follows (readChild kind field members) (checksOf kind members [(field, .node)]) := by
  apply follows_checksOf
  rw [readChild_eq_lookup]
  cases members.lookup field with
  | none => rfl
  | some value => exact (perform_node kind field value).symm

theorem follows_readOptional :
    Follows (readOptional field members) (checksOf kind members [(field, .optionalNode)]) := by
  apply follows_checksOf
  rw [readOptional_eq_lookup]
  cases members.lookup field with
  | none => rfl
  | some value =>
    change outcome (if value.isNull then _ else _) =
      (if value.isNull then [] else [value]).forM fun inner => outcome (read inner)
    cases value.isNull with
    | true => rfl
    | false => exact (outcome_map _ _).trans (perform_node kind field value).symm

theorem follows_readItems :
    Follows (readItems kind field members) (checksOf kind members [(field, .nodes)]) := by
  apply follows_checksOf
  rw [readItems_eq_lookup]
  cases members.lookup field with
  | none => rfl
  | some value =>
    cases value with
    | array items => exact outcome_readList items
    | _ => rfl

theorem follows_stringField :
    Follows (stringField kind field members) (checksOf kind members [(field, .text)]) := by
  apply follows_checksOf
  rw [stringField]
  cases members.lookup field with
  | none => rfl
  | some value => cases value <;> rfl

theorem follows_flagField :
    Follows (flagField kind field members) (checksOf kind members [(field, .flag)]) := by
  apply follows_checksOf
  rw [flagField]
  cases members.lookup field with
  | none => rfl
  | some value => cases value <;> rfl

theorem follows_literalField :
    Follows (literalField members) (checksOf "Literal" members [("value", .primitive)]) := by
  apply follows_checksOf
  rw [literalField]
  cases members.lookup "value" with
  | none => rfl
  | some value => cases value <;> rfl

theorem follows_propertyKindField :
    Follows (propertyKindField members)
      (checksOf "Property" members [("kind", .propertyKind)]) := by
  apply follows_checksOf
  rw [propertyKindField, stringField]
  cases members.lookup "kind" with
  | none => rfl
  | some value =>
    cases value with
    | string name =>
      by_cases known : name ∈ ["init", "get", "set"]
      · simp only [List.mem_cons, List.not_mem_nil, or_false] at known
        rcases known with rfl | rfl | rfl <;> rfl
      · have unknown : PropertyKind.ofName? name = none := by
          simp only [List.mem_cons, List.not_mem_nil, or_false, not_or] at known
          simp [PropertyKind.ofName?, known]
        simp only [Check.perform, Check.fault?, Demand.mismatch?, if_neg known, bind, Except.bind,
          unknown]
        rfl
    | _ => rfl

theorem follows_readOpening :
    Follows (readOpening members)
      (checksOf "JSXElement" members [("openingElement", .object)] ++
        openingChecks (members.lookup "openingElement")) := by
  rw [checksOf, List.map_singleton, List.singleton_append, readOpening_eq_lookup]
  cases members.lookup "openingElement" with
  | none => exact follows_of_fault rfl
  | some value =>
    cases value with
    | object opening =>
      have body : Follows (do
          let name ← readChild "JSXOpeningElement" "name" opening
          let attributes ← readItems "JSXOpeningElement" "attributes" opening
          let selfClosing ← flagField "JSXOpeningElement" "selfClosing" opening
          return (name, attributes, selfClosing)) (openingChecks (some (.object opening))) :=
        (follows_readChild _ _ _).bind fun _ => (follows_readItems _ _ _).bind fun _ =>
          (follows_flagField _ _ _).bind fun _ => .ok _
      exact body
    | _ => exact follows_of_fault rfl

variable {kind field members}

/-- A value in a generic node is looked at for what is demanded of it. -/
theorem outcome_readField (value : Json) :
    outcome (readField value) = Check.perform ⟨kind, field, some value, Demand.ofValue value⟩ := by
  unfold readField Demand.ofValue
  by_cases node : isNode value = true
  · rw [if_pos node, if_pos node, outcome_map, perform_node]
  · rw [if_neg node, if_neg node]
    cases value with
    | array items =>
      dsimp only
      by_cases sequence : isNodeList items = true
      · rw [if_pos sequence, if_pos sequence, outcome_map]
        exact outcome_readList items
      · rw [if_neg sequence, if_neg sequence]
        rfl
    | _ => rfl

theorem follows_readFields : Follows (readFields members) (genericChecks kind members) := by
  induction members with
  | nil => rfl
  | cons first rest ih =>
    obtain ⟨key, value⟩ := first
    by_cases same : key = "type"
    · rw [same, readFields_type]
      simpa [genericChecks] using ih
    · rw [readFields_cons same]
      have checks : genericChecks kind ((key, value) :: rest) =
          [⟨kind, key, some value, Demand.ofValue value⟩] ++ genericChecks kind rest := by
        simp [genericChecks, same]
      rw [checks]
      refine Follows.bind ?_ fun _ => ih.map _
      exact (outcome_readField value).trans (forM_singleton _ _).symm

end Following

theorem of_literal_of_ne_generic {members : List (String × Json)}
    (other : Kind.of "Literal" members ≠ .generic) : Kind.of "Literal" members = .literal := by
  have literal : Kind.named.lookup "Literal" = some .literal := rfl
  unfold Kind.of at other ⊢
  rw [literal] at other ⊢
  exact if_neg fun more => other (if_pos more)

/-- A node object is read by going through the demands of its kind. -/
theorem follows_read {kind : String} {members : List (String × Json)}
    (tagged : tag? members = some kind) :
    Follows (read (.object members)) (checks kind members) := by
  unfold checks
  by_cases generic : IsGeneric kind (members.map Prod.fst)
  · rw [if_pos generic, read_of_isGeneric tagged generic]
    exact follows_readFields.map _
  · rw [if_neg generic]
    have dedicated : kind ∈ dedicatedKinds := by
      by_contra other
      exact generic (.inl other)
    simp only [dedicatedKinds, List.mem_cons, List.not_mem_nil, or_false] at dedicated
    unfold read
    rw [tagged]
    rcases dedicated with rfl | rfl | rfl | rfl | rfl | rfl | rfl | rfl | rfl | rfl | rfl | rfl |
      rfl | rfl | rfl
    · rw [if_pos rfl, elementChecks, ← List.append_assoc]
      exact (follows_readOpening members).bind fun _ => (follows_readItems _ _ _).bind fun _ =>
        .ok _
    · exact (follows_stringField _ _ _).bind fun _ => .ok _
    · exact (follows_readChild _ _ _).bind fun _ => (follows_readChild _ _ _).bind fun _ => .ok _
    · exact (follows_readChild _ _ _).bind fun _ => (follows_readOptional _ _ _).bind fun _ => .ok _
    · exact (follows_readChild _ _ _).bind fun _ => .ok _
    · exact (follows_readChild _ _ _).bind fun _ => .ok _
    · exact (follows_stringField _ _ _).bind fun _ => .ok _
    · exact (follows_stringField _ _ _).bind fun _ => .ok _
    · rw [← of_eq_generic_iff] at generic
      dsimp only
      rw [of_literal_of_ne_generic generic]
      exact (follows_literalField _).bind fun _ => .ok _
    · exact (follows_propertyKindField _).bind fun _ => (follows_readChild _ _ _).bind fun _ =>
        (follows_readChild _ _ _).bind fun _ => (follows_flagField _ _ _).bind fun _ =>
        (follows_flagField _ _ _).bind fun _ => (follows_flagField _ _ _).bind fun _ => .ok _
    · exact (follows_readChild _ _ _).bind fun _ => .ok _
    · exact (follows_readItems _ _ _).bind fun _ => .ok _
    · exact (follows_readItems _ _ _).bind fun _ => .ok _
    · exact (follows_readChild _ _ _).bind fun _ => (follows_readItems _ _ _).bind fun _ =>
        (follows_flagField _ _ _).bind fun _ => .ok _
    · exact (follows_readChild _ _ _).bind fun _ => (follows_readChild _ _ _).bind fun _ =>
        (follows_flagField _ _ _).bind fun _ => (follows_flagField _ _ _).bind fun _ => .ok _

/-! ## Success and first failure -/

/-- Going through some checks fails with the problem of the first that fails. -/
theorem forM_fails_iff {ε α : Type} {items : List α} {check : α → Except ε Unit} {problem : ε} :
    items.forM check = .error problem ↔ ∃ before item after, items = before ++ item :: after ∧
      (∀ earlier ∈ before, check earlier = pure ()) ∧ check item = .error problem := by
  induction items with
  | nil =>
    refine iff_of_false (by rintro ⟨⟩) ?_
    rintro ⟨before, item, after, split, _⟩
    exact absurd split.symm (List.append_ne_nil_of_right_ne_nil _ (List.cons_ne_nil _ _))
  | cons first rest ih =>
    rw [List.forM_eq_forM, List.forM_cons, ← List.forM_eq_forM]
    constructor
    · intro fails
      cases checked : check first with
      | error other =>
        rw [checked] at fails
        cases fails
        exact ⟨[], first, rest, rfl, by simp, checked⟩
      | ok =>
        rw [checked] at fails
        obtain ⟨before, item, after, rfl, passed, failed⟩ := ih.mp fails
        exact ⟨first :: before, item, after, rfl,
          List.forall_mem_cons.mpr ⟨checked, passed⟩, failed⟩
    · rintro ⟨before, item, after, split, passed, failed⟩
      cases before with
      | nil =>
        cases split
        rw [failed]
        rfl
      | cons =>
        cases split
        rw [List.forall_mem_cons] at passed
        rw [passed.1]
        exact ih.mpr ⟨_, item, after, rfl, passed.2, failed⟩

section Agreement

variable {kind : String} {members : List (String × Json)} {check : Check} {inner : Json}

theorem sizeOf_lt_of_mem_parts {part outer : Json} (mem : part ∈ outer.parts) :
    sizeOf part < sizeOf outer := by
  cases outer with
  | array items =>
    have smaller : sizeOf part < sizeOf items := List.sizeOf_lt_of_mem mem
    rw [Json.array.sizeOf_spec]
    omega
  | object members =>
    obtain ⟨⟨key, value⟩, memMembers, rfl⟩ := List.mem_map.mp mem
    have smaller := List.sizeOf_lt_of_mem memMembers
    rw [Prod.mk.sizeOf_spec] at smaller
    rw [Json.object.sizeOf_spec]
    change sizeOf value < _
    omega
  | _ => cases mem

theorem sizeOf_lt_of_lookup {key : String} {value : Json}
    (found : members.lookup key = some value) :
    sizeOf value < sizeOf (Json.object members) := by
  obtain ⟨before, after, rfl, _⟩ := List.lookup_eq_some_iff.mp found
  apply sizeOf_lt_of_mem_parts
  simp [Json.parts]

theorem sizeOf_le_of_mem_nodesIn {demand : Demand} {value : Json}
    (mem : inner ∈ demand.nodesIn value) : sizeOf inner ≤ sizeOf value := by
  cases demand with
  | node => exact (List.mem_singleton.mp mem ▸ le_rfl)
  | optionalNode =>
    rw [Demand.nodesIn] at mem
    split at mem
    · cases mem
    · exact (List.mem_singleton.mp mem ▸ le_rfl)
  | nodes =>
    cases value with
    | array items => exact (sizeOf_lt_of_mem_parts mem).le
    | _ => cases mem
  | _ => cases mem

theorem exists_of_mem_nodes (mem : inner ∈ check.nodes) :
    ∃ value, check.found = some value ∧ inner ∈ check.demand.nodesIn value := by
  unfold Check.nodes at mem
  cases found : check.found with
  | none =>
    rw [found] at mem
    cases mem
  | some value =>
    rw [found] at mem
    exact ⟨value, rfl, mem⟩

theorem lookup_of_mem_checksOf {fields : List (String × Demand)} {value : Json}
    (mem : check ∈ checksOf kind members fields) (found : check.found = some value) :
    members.lookup check.field = some value := by
  obtain ⟨field, _, rfl⟩ := List.mem_map.mp mem
  exact found

/-- What is found in a node object is smaller than the object. -/
theorem sizeOf_lt_of_found {value : Json} (mem : check ∈ checks kind members)
    (found : check.found = some value) : sizeOf value < sizeOf (Json.object members) := by
  unfold checks at mem
  split_ifs at mem with generic element
  · obtain ⟨member, memMembers, rfl⟩ := List.mem_map.mp mem
    cases found
    exact sizeOf_lt_of_mem_parts (List.mem_map_of_mem (List.mem_of_mem_filter memMembers))
  · unfold elementChecks at mem
    rw [List.mem_append, List.mem_append] at mem
    rcases mem with own | opening | own
    · exact sizeOf_lt_of_lookup (lookup_of_mem_checksOf own found)
    · unfold openingChecks at opening
      split at opening
      next tag openingFound =>
        exact (sizeOf_lt_of_lookup (lookup_of_mem_checksOf opening found)).trans
          (sizeOf_lt_of_lookup openingFound)
      next => cases opening
    · exact sizeOf_lt_of_lookup (lookup_of_mem_checksOf own found)
  · exact sizeOf_lt_of_lookup (lookup_of_mem_checksOf mem found)

theorem sizeOf_lt_of_mem_nodes (memChecks : check ∈ checks kind members)
    (mem : inner ∈ check.nodes) : sizeOf inner < sizeOf (Json.object members) := by
  obtain ⟨value, found, memValue⟩ := exists_of_mem_nodes mem
  exact (sizeOf_le_of_mem_nodesIn memValue).trans_lt (sizeOf_lt_of_found memChecks found)

/-- Whether the reader does with a document as the grammar says. -/
structure Agrees (document : Json) : Prop where
  accepts : outcome (read document) = pure () ↔ Grammatical document
  reports : ∀ problem, outcome (read document) = .error problem ↔ FirstDefect document problem

theorem perform_succeeds_iff (agree : ∀ inner ∈ check.nodes, Agrees inner) :
    check.perform = pure () ↔ check.Met := by
  unfold Check.perform
  cases fault : check.fault? with
  | some problem =>
    refine iff_of_false (by rintro ⟨⟩) fun met => ?_
    rw [met.fault] at fault
    cases fault
  | none =>
    rw [Term.forM_succeeds_iff]
    constructor
    · intro accepted
      exact ⟨fault, fun inner mem => (agree inner mem).accepts.mp (accepted inner mem)⟩
    · intro met inner mem
      exact (agree inner mem).accepts.mpr (met.nodes inner mem)

theorem perform_fails_iff {problem : ReadError} (agree : ∀ inner ∈ check.nodes, Agrees inner) :
    check.perform = .error problem ↔ check.fault? = some problem ∨
      check.fault? = none ∧ ∃ before inner after, check.nodes = before ++ inner :: after ∧
        (∀ earlier ∈ before, Grammatical earlier) ∧ FirstDefect inner problem := by
  unfold Check.perform
  cases fault : check.fault? with
  | some other => simp
  | none =>
    simp only [reduceCtorEq, true_and, false_or]
    rw [forM_fails_iff]
    refine exists_congr fun before => exists_congr fun inner => exists_congr fun after =>
      and_congr_right fun split => and_congr ?_ ?_
    · exact forall₂_congr fun earlier mem => (agree earlier (by simp [split, mem])).accepts
    · exact (agree inner (by simp [split])).reports problem

theorem grammatical_object_iff (tagged : tag? members = some kind) :
    Grammatical (.object members) ↔ ∀ check ∈ checks kind members, check.Met := by
  constructor
  · intro grammatical check mem
    cases grammatical with
    | object tagged' faults nodes =>
      cases tagged.symm.trans tagged'
      exact ⟨faults check mem, nodes check mem⟩
  · intro met
    exact .object tagged (fun check mem => (met check mem).fault)
      fun check mem => (met check mem).nodes

theorem firstDefect_object_iff {problem : ReadError} (tagged : tag? members = some kind) :
    FirstDefect (.object members) problem ↔ ∃ met check rest,
      checks kind members = met ++ check :: rest ∧ (∀ earlier ∈ met, earlier.Met) ∧
      (check.fault? = some problem ∨
        check.fault? = none ∧ ∃ before inner after, check.nodes = before ++ inner :: after ∧
          (∀ earlier ∈ before, Grammatical earlier) ∧ FirstDefect inner problem) := by
  constructor
  · intro defect
    cases defect with
    | form _ notObject => exact absurd rfl notObject
    | untyped untagged => cases tagged.symm.trans untagged
    | field tagged' split met fault =>
      cases tagged.symm.trans tagged'
      exact ⟨_, _, _, split, met, .inl fault⟩
    | inside tagged' split met fine nodes earlier defect =>
      cases tagged.symm.trans tagged'
      exact ⟨_, _, _, split, met, .inr ⟨fine, _, _, _, nodes, earlier, defect⟩⟩
  · rintro ⟨met, check, rest, split, allMet,
      fault | ⟨fine, before, inner, after, nodes, earlier, defect⟩⟩
    · exact .field tagged split allMet fault
    · exact .inside tagged split allMet fine nodes earlier defect

/-- If the reader does with the nodes in a node object as the grammar says, then
so it does with the object. -/
theorem agrees_object (tagged : tag? members = some kind)
    (agree : ∀ check ∈ checks kind members, ∀ inner ∈ check.nodes, Agrees inner) :
    Agrees (.object members) := by
  have follows : outcome (read (.object members)) = _ := follows_read tagged
  constructor
  · rw [follows, Term.forM_succeeds_iff, grammatical_object_iff tagged]
    exact forall₂_congr fun check mem => perform_succeeds_iff (agree check mem)
  · intro problem
    rw [follows, forM_fails_iff, firstDefect_object_iff tagged]
    refine exists_congr fun met => exists_congr fun check => exists_congr fun rest =>
      and_congr_right fun split => and_congr ?_ ?_
    · exact forall₂_congr fun earlier mem =>
        perform_succeeds_iff (agree earlier (by simp [split, mem]))
    · exact perform_fails_iff (agree check (by simp [split]))

theorem agrees_of_form (notNull : inner.form ≠ .null) (notObject : inner.form ≠ .object) :
    Agrees inner := by
  have rejects : outcome (read inner) = .error (.notANode inner.form) := by
    cases inner with
    | null => exact absurd rfl notNull
    | object => exact absurd rfl notObject
    | _ => rfl
  constructor
  · rw [rejects]
    refine iff_of_false (by rintro ⟨⟩) fun grammatical => ?_
    cases grammatical with
    | null => exact notNull rfl
    | object => exact notObject rfl
  · intro problem
    rw [rejects]
    constructor
    · rintro ⟨⟩
      exact .form notNull notObject
    · intro defect
      cases defect with
      | form => rfl
      | _ => exact absurd rfl notObject

theorem agrees_of_untagged (untagged : tag? members = none) : Agrees (.object members) := by
  have rejects : outcome (read (.object members)) = .error .missingType := by
    rw [read, untagged]
    rfl
  constructor
  · rw [rejects]
    refine iff_of_false (by rintro ⟨⟩) fun grammatical => ?_
    cases grammatical with
    | object tagged => cases untagged.symm.trans tagged
  · intro problem
    rw [rejects]
    constructor
    · rintro ⟨⟩
      exact .untyped untagged
    · intro defect
      cases defect with
      | form _ notObject => exact absurd rfl notObject
      | untyped => rfl
      | field tagged => cases untagged.symm.trans tagged
      | inside tagged => cases untagged.symm.trans tagged

theorem agrees_null : Agrees .null := by
  constructor
  · exact iff_of_true rfl .null
  · intro problem
    refine iff_of_false (by rintro ⟨⟩) fun defect => ?_
    cases defect with
    | form notNull => exact notNull rfl

theorem agrees (document : Json) : Agrees document := by
  induction size : sizeOf document using Nat.strong_induction_on generalizing document with
  | _ size ih =>
    subst size
    cases document with
    | null => exact agrees_null
    | object members =>
      cases tagged : tag? members with
      | none => exact agrees_of_untagged tagged
      | some kind =>
        refine agrees_object tagged fun check memChecks inner mem => ?_
        exact ih _ (sizeOf_lt_of_mem_nodes memChecks mem) inner rfl
    | _ => exact agrees_of_form (by rintro ⟨⟩) (by rintro ⟨⟩)

end Agreement

end Estree

namespace Tree

open Estree

/-- A document becomes a tree just if it is grammatical, and what is reported about
any other is its first defect. -/
theorem ofEstree_accepts_and_reports (document : Json) :
    ((∃ t, ofEstree document = .ok t) ↔ Grammatical document) ∧
    ∀ problem, ofEstree document = .error problem ↔ FirstDefect document problem := by
  have same : outcome (ofEstree document) = outcome (read document) := by
    rw [ofEstree_eq]
    exact outcome_map _ _
  constructor
  · rw [← outcome_eq_ok_iff, same]
    exact (agrees document).accepts
  · intro problem
    rw [← outcome_eq_error_iff, same]
    exact (agrees document).reports problem

end Tree

end JsxFactory
