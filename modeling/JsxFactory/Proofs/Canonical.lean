/-
# Canonical documents

A document is canonical if it has the form in which nodes are written: a kind with a
shape of its own has exactly the fields of the shape, in their order, and a generic
node has its `type` first and otherwise any fields, of which those that hold nodes
hold canonical ones. To read and to write back is to bring a document into this form,
and what is in it already comes back as it was.
-/

import JsxFactory.Proofs.Rereading
import JsxFactory.Proofs.Walking

namespace JsxFactory

namespace Estree

/-! ## The form of canonical documents -/

/-- A document in the form in which it would be written. -/
inductive Canonical : Json → Prop
  | null : Canonical .null
  | jsxElement {name : Json} {attributes children : List Json} (selfClosing : Bool) :
    Canonical name → (∀ entry ∈ attributes, Canonical entry) →
    (∀ child ∈ children, Canonical child) →
    Canonical (.object [("type", .string "JSXElement"),
      ("openingElement", .object [("type", .string "JSXOpeningElement"), ("name", name),
        ("attributes", .array attributes), ("selfClosing", .bool selfClosing)]),
      ("closingElement", if selfClosing then .null
        else .object [("type", .string "JSXClosingElement"), ("name", name)]),
      ("children", .array children)])
  | jsxIdentifier (name : String) :
    Canonical (.object [("type", .string "JSXIdentifier"), ("name", .string name)])
  | jsxMember {object property : Json} : Canonical object → Canonical property →
    Canonical (.object [("type", .string "JSXMemberExpression"), ("object", object),
      ("property", property)])
  | jsxAttribute {name value : Json} : Canonical name → Canonical value →
    Canonical (.object [("type", .string "JSXAttribute"), ("name", name), ("value", value)])
  | jsxSpreadAttribute {argument : Json} : Canonical argument →
    Canonical (.object [("type", .string "JSXSpreadAttribute"), ("argument", argument)])
  | jsxContainer {expression : Json} : Canonical expression →
    Canonical (.object [("type", .string "JSXExpressionContainer"), ("expression", expression)])
  | jsxText (value : String) :
    Canonical (.object [("type", .string "JSXText"), ("value", .string value),
      ("raw", .string value)])
  | identifier (name : String) :
    Canonical (.object [("type", .string "Identifier"), ("name", .string name)])
  | literal {value : Json} :
    (∀ items, value ≠ .array items) → (∀ members, value ≠ .object members) →
    Canonical (.object [("type", .string "Literal"), ("value", value)])
  | property {key value : Json} {kind : String} (method shorthand computed : Bool) :
    Canonical key → Canonical value → kind ∈ ["init", "get", "set"] →
    Canonical (.object [("type", .string "Property"), ("method", .bool method),
      ("shorthand", .bool shorthand), ("computed", .bool computed), ("key", key),
      ("value", value), ("kind", .string kind)])
  | spread {argument : Json} : Canonical argument →
    Canonical (.object [("type", .string "SpreadElement"), ("argument", argument)])
  | object {properties : List Json} : (∀ property ∈ properties, Canonical property) →
    Canonical (.object [("type", .string "ObjectExpression"), ("properties", .array properties)])
  | array {elements : List Json} : (∀ element ∈ elements, Canonical element) →
    Canonical (.object [("type", .string "ArrayExpression"), ("elements", .array elements)])
  | call {callee : Json} {arguments : List Json} (optional : Bool) : Canonical callee →
    (∀ argument ∈ arguments, Canonical argument) →
    Canonical (.object [("type", .string "CallExpression"), ("callee", callee),
      ("arguments", .array arguments), ("optional", .bool optional)])
  | member {object property : Json} (computed optional : Bool) : Canonical object →
    Canonical property →
    Canonical (.object [("type", .string "MemberExpression"), ("object", object),
      ("property", property), ("computed", .bool computed), ("optional", .bool optional)])
  | generic {kind : String} {fields : List (String × Json)} :
    IsGeneric kind (fields.map Prod.fst) → (("type" :: fields.map Prod.fst).Nodup) →
    (∀ field ∈ fields, isNode field.2 = true → Canonical field.2) →
    (∀ field ∈ fields, ∀ items, field.2 = .array items → isNodeList items = true →
      ∀ item ∈ items, Canonical item) →
    Canonical (.object (("type", .string kind) :: fields))

open Term

/-! ## What is written is canonical -/

theorem canonical_listToEstree {terms : List Term}
    (each : ∀ term ∈ terms, Canonical term.toEstree) :
    ∀ item ∈ listToEstree terms, Canonical item := by
  rw [listToEstree_eq_map]
  exact List.forall_mem_map.mpr each

theorem toEstree_ne_array (term : Term) (items : List Json) : term.toEstree ≠ .array items := by
  obtain ⟨node⟩ := term
  cases node with
  | jsxAttribute _ value => cases value <;> exact Json.noConfusion
  | _ => exact Json.noConfusion

theorem canonical_generic {kind : String} {fields : List (String × Field Term (List Term))}
    {keyed : Prop} (legible : LegibleFields keyed kind fields)
    (each : ∀ field ∈ fields, ∀ inner ∈ field.2.children, Canonical inner.toEstree) :
    Canonical (toEstree ⟨.generic kind fields⟩) := by
  obtain ⟨collected, written, collects⟩ := exists_toEstree_generic legible.untyped
  have keys : ∀ key, key ∈ collected.map Prod.fst ↔ key ∈ fields.map Prod.fst := by
    intro key
    rw [collects.keys, map_fst_fieldsToEstree]
  have source : ∀ member ∈ collected,
      ∃ field ∈ fields, member = (field.1, fieldToEstree field.2) := by
    intro member mem
    have given := collects.source member mem
    rw [fieldsToEstree_eq_map] at given
    obtain ⟨field, memFields, rfl⟩ := List.mem_map.mp given
    exact ⟨field, memFields, rfl⟩
  rw [written]
  refine .generic ?_ (List.nodup_cons.mpr ⟨?_, collects.nodup⟩) ?_ ?_
  · simpa only [IsGeneric, keys] using legible.generic
  · rw [keys]
    exact legible.untyped
  · -- A node object is written for a child: data is none, nor is a sequence.
    intro member mem node
    obtain ⟨⟨key, field⟩, memFields, rfl⟩ := source member mem
    cases field with
    | node child => exact each _ memFields child List.mem_cons_self
    | list children => cases node
    | value json =>
      have data : IsData json := legible.data _ memFields
      cases data.notNode.symm.trans node
  · intro member mem items written sequence
    obtain ⟨⟨key, field⟩, memFields, rfl⟩ := source member mem
    cases field with
    | node child => exact absurd written (toEstree_ne_array child items)
    | list children =>
      cases written
      exact canonical_listToEstree (each _ memFields)
    | value json =>
      have data : IsData json := legible.data _ memFields
      cases (data.notSequence items written).symm.trans sequence

/-- What a legible term is written as is canonical. -/
theorem canonical_toEstree {keyed : Prop} {term : Term}
    (legible : term.Everywhere (Legible keyed)) : Canonical term.toEstree := by
  induction term using Term.induction with
  | mk node ih =>
    obtain ⟨here, inside⟩ := everywhere_mk.mp legible
    have each : ∀ inner ∈ node.children, Canonical inner.toEstree :=
      fun inner mem => ih inner mem (inside inner mem)
    have single : ∀ child, .node child ∈ node.edges → Canonical child.toEstree :=
      fun child mem => each child (List.mem_flatMap.mpr ⟨_, mem, List.mem_cons_self⟩)
    have sequence : ∀ children, .list children ∈ node.edges →
        ∀ item ∈ listToEstree children, Canonical item :=
      fun children mem => canonical_listToEstree fun child memList =>
        each child (List.mem_flatMap.mpr ⟨_, mem, memList⟩)
    cases node with
    | generic kind fields =>
      refine canonical_generic here fun field mem inner memField => ?_
      exact each inner (Node.mem_children_generic.mpr ⟨field, mem, memField⟩)
    | hole => exact .null
    | jsxElement name attributes children selfClosing =>
      exact .jsxElement selfClosing (single name (by simp [Node.edges]))
        (sequence attributes (by simp [Node.edges])) (sequence children (by simp [Node.edges]))
    | jsxIdentifier name => exact .jsxIdentifier name
    | jsxMember base name =>
      exact .jsxMember (single base (by simp [Node.edges])) (single name (by simp [Node.edges]))
    | jsxAttribute name value =>
      cases value with
      | none => exact .jsxAttribute (single name (by simp [Node.edges])) .null
      | some value =>
        exact .jsxAttribute (single name (by simp [Node.edges]))
          (single value (by simp [Node.edges]))
    | jsxSpreadAttribute argument =>
      exact .jsxSpreadAttribute (single argument (by simp [Node.edges]))
    | jsxContainer expression =>
      exact .jsxContainer (single expression (by simp [Node.edges]))
    | jsxText value => exact .jsxText value
    | identifier name => exact .identifier name
    | literal value => cases value <;> exact .literal (by rintro _ ⟨⟩) (by rintro _ ⟨⟩)
    | property key value kind method shorthand computed =>
      refine .property method shorthand computed (single key (by simp [Node.edges]))
        (single value (by simp [Node.edges])) ?_
      cases kind <;> simp [PropertyKind.name]
    | spread argument => exact .spread (single argument (by simp [Node.edges]))
    | object properties => exact .object (sequence properties (by simp [Node.edges]))
    | array elements => exact .array (sequence elements (by simp [Node.edges]))
    | call callee arguments optional =>
      exact .call optional (single callee (by simp [Node.edges]))
        (sequence arguments (by simp [Node.edges]))
    | member base name computed optional =>
      exact .member computed optional (single base (by simp [Node.edges]))
        (single name (by simp [Node.edges]))

/-! ## What is canonical is written -/

/-- Whether a document is what a legible term is written as. -/
def IsWritten (document : Json) : Prop :=
  ∃ term : Term, term.Everywhere (Legible True) ∧ term.toEstree = document

theorem exists_listToEstree {items : List Json} (each : ∀ item ∈ items, IsWritten item) :
    ∃ terms : List Term, (∀ term ∈ terms, term.Everywhere (Legible True)) ∧
      listToEstree terms = items := by
  induction items with
  | nil => exact ⟨[], by simp, rfl⟩
  | cons item rest ih =>
    rw [List.forall_mem_cons] at each
    obtain ⟨term, legible, rfl⟩ := each.1
    obtain ⟨terms, legibleRest, rfl⟩ := ih each.2
    exact ⟨term :: terms, List.forall_mem_cons.mpr ⟨legible, legibleRest⟩, rfl⟩

theorem exists_toJson {value : Json} (notArray : ∀ items, value ≠ .array items)
    (notObject : ∀ members, value ≠ .object members) :
    ∃ primitive, Primitive.toJson primitive = value := by
  cases value with
  | null => exact ⟨.null, rfl⟩
  | bool value => exact ⟨.boolean value, rfl⟩
  | number value => exact ⟨.number value, rfl⟩
  | string value => exact ⟨.string value, rfl⟩
  | array items => exact absurd rfl (notArray items)
  | object members => exact absurd rfl (notObject members)

theorem exists_name {name : String} (known : name ∈ ["init", "get", "set"]) :
    ∃ kind, PropertyKind.name kind = name := by
  simp only [List.mem_cons, List.not_mem_nil, or_false] at known
  obtain rfl | rfl | rfl := known
  · exact ⟨.init, rfl⟩
  · exact ⟨.get, rfl⟩
  · exact ⟨.set, rfl⟩

/-- A value whose nodes are written for terms is written for a field. -/
theorem exists_fieldToEstree {value : Json} (single : isNode value = true → IsWritten value)
    (sequence : ∀ items, value = .array items → isNodeList items = true →
      ∀ item ∈ items, IsWritten item) :
    ∃ field, fieldToEstree field = value ∧ IsDataField field ∧
      ∀ inner ∈ field.children, inner.Everywhere (Legible True) := by
  by_cases node : isNode value = true
  · obtain ⟨child, legible, same⟩ := single node
    exact ⟨.node child, same, trivial, List.forall_mem_singleton.mpr legible⟩
  · by_cases list : ∃ items, value = .array items ∧ isNodeList items = true
    · obtain ⟨items, rfl, nodes⟩ := list
      obtain ⟨children, legible, same⟩ := exists_listToEstree (sequence items rfl nodes)
      exact ⟨.list children, congrArg Json.array same, trivial, legible⟩
    · have data : IsData value := by
        refine ⟨Bool.eq_false_iff.mpr node, fun items same => Bool.eq_false_iff.mpr fun nodes => ?_⟩
        exact list ⟨items, same, nodes⟩
      exact ⟨.value value, rfl, data, by simp [Field.children]⟩

theorem exists_fieldsToEstree {members : List (String × Json)}
    (single : ∀ member ∈ members, isNode member.2 = true → IsWritten member.2)
    (sequence : ∀ member ∈ members, ∀ items, member.2 = .array items → isNodeList items = true →
      ∀ item ∈ items, IsWritten item) :
    ∃ fields, fieldsToEstree fields = members ∧
      (∀ field ∈ fields, IsDataField field.2) ∧
      ∀ field ∈ fields, ∀ inner ∈ field.2.children, inner.Everywhere (Legible True) := by
  induction members with
  | nil => exact ⟨[], rfl, by simp, by simp⟩
  | cons member rest ih =>
    obtain ⟨key, value⟩ := member
    rw [List.forall_mem_cons] at single sequence
    obtain ⟨field, same, data, legible⟩ := exists_fieldToEstree single.1 sequence.1
    obtain ⟨fields, sameRest, dataRest, legibleRest⟩ := ih single.2 sequence.2
    refine ⟨(key, field) :: fields, ?_, List.forall_mem_cons.mpr ⟨data, dataRest⟩,
      List.forall_mem_cons.mpr ⟨legible, legibleRest⟩⟩
    rw [fieldsToEstree_eq_map, List.map_cons, ← fieldsToEstree_eq_map, sameRest, same]

/-- A canonical document is what some legible term is written as. -/
theorem Canonical.isWritten {document : Json} (canonical : Canonical document) :
    IsWritten document := by
  induction canonical with
  | null => exact ⟨hole, everywhere_mk.mpr ⟨trivial, by simp [Node.children, Node.edges]⟩, rfl⟩
  | jsxElement selfClosing _ _ _ writtenName writtenAttributes writtenChildren =>
    obtain ⟨name, legibleName, rfl⟩ := writtenName
    obtain ⟨attributes, legibleAttributes, rfl⟩ := exists_listToEstree writtenAttributes
    obtain ⟨children, legibleChildren, rfl⟩ := exists_listToEstree writtenChildren
    refine ⟨⟨.jsxElement name attributes children selfClosing⟩,
      everywhere_mk.mpr ⟨trivial, ?_⟩, rfl⟩
    simp only [Node.children, Node.edges, List.flatMap_cons, List.flatMap_nil, Edge.items_node,
      Edge.items_list, List.append_nil, List.forall_mem_append, List.forall_mem_singleton]
    exact ⟨legibleName, legibleAttributes, legibleChildren⟩
  | jsxIdentifier name =>
    refine ⟨⟨.jsxIdentifier name⟩, everywhere_mk.mpr ⟨trivial, ?_⟩, rfl⟩
    simp [Node.children, Node.edges]
  | jsxMember _ _ writtenBase writtenName =>
    obtain ⟨base, legibleBase, rfl⟩ := writtenBase
    obtain ⟨name, legibleName, rfl⟩ := writtenName
    refine ⟨⟨.jsxMember base name⟩, everywhere_mk.mpr ⟨trivial, ?_⟩, rfl⟩
    simpa [Node.children, Node.edges] using ⟨legibleBase, legibleName⟩
  | jsxAttribute _ _ writtenName writtenValue =>
    obtain ⟨name, legibleName, rfl⟩ := writtenName
    obtain ⟨value, legibleValue, rfl⟩ := writtenValue
    cases absent : value.isHole with
    | true =>
      refine ⟨⟨.jsxAttribute name none⟩, everywhere_mk.mpr ⟨trivial, ?_⟩, ?_⟩
      · simpa [Node.children, Node.edges] using legibleName
      · rw [eq_hole_of_isHole absent]
        rfl
    | false =>
      refine ⟨⟨.jsxAttribute name (some value)⟩, everywhere_mk.mpr ⟨absent, ?_⟩, rfl⟩
      simpa [Node.children, Node.edges] using ⟨legibleName, legibleValue⟩
  | literal notArray notObject =>
    obtain ⟨value, rfl⟩ := exists_toJson notArray notObject
    exact ⟨⟨.literal value⟩, everywhere_mk.mpr ⟨trivial, by simp [Node.children, Node.edges]⟩, rfl⟩
  | property method shorthand computed _ _ known writtenKey writtenValue =>
    obtain ⟨key, legibleKey, rfl⟩ := writtenKey
    obtain ⟨value, legibleValue, rfl⟩ := writtenValue
    obtain ⟨kind, rfl⟩ := exists_name known
    refine ⟨⟨.property key value kind method shorthand computed⟩,
      everywhere_mk.mpr ⟨trivial, ?_⟩, rfl⟩
    simpa [Node.children, Node.edges] using ⟨legibleKey, legibleValue⟩
  | object _ writtenProperties =>
    obtain ⟨properties, legibleProperties, rfl⟩ := exists_listToEstree writtenProperties
    refine ⟨⟨.object properties⟩, everywhere_mk.mpr ⟨trivial, ?_⟩, rfl⟩
    simpa [Node.children, Node.edges] using legibleProperties
  | array _ writtenElements =>
    obtain ⟨elements, legibleElements, rfl⟩ := exists_listToEstree writtenElements
    refine ⟨⟨.array elements⟩, everywhere_mk.mpr ⟨trivial, ?_⟩, rfl⟩
    simpa [Node.children, Node.edges] using legibleElements
  | call optional _ _ writtenCallee writtenArguments =>
    obtain ⟨callee, legibleCallee, rfl⟩ := writtenCallee
    obtain ⟨arguments, legibleArguments, rfl⟩ := exists_listToEstree writtenArguments
    refine ⟨⟨.call callee arguments optional⟩, everywhere_mk.mpr ⟨trivial, ?_⟩, rfl⟩
    simpa [Node.children, Node.edges] using ⟨legibleCallee, legibleArguments⟩
  | member computed optional _ _ writtenBase writtenName =>
    obtain ⟨base, legibleBase, rfl⟩ := writtenBase
    obtain ⟨name, legibleName, rfl⟩ := writtenName
    refine ⟨⟨.member base name computed optional⟩, everywhere_mk.mpr ⟨trivial, ?_⟩, rfl⟩
    simpa [Node.children, Node.edges] using ⟨legibleBase, legibleName⟩
  | jsxSpreadAttribute _ written =>
    obtain ⟨argument, legible, rfl⟩ := written
    refine ⟨⟨.jsxSpreadAttribute argument⟩, everywhere_mk.mpr ⟨trivial, ?_⟩, rfl⟩
    simpa [Node.children, Node.edges] using legible
  | jsxContainer _ written =>
    obtain ⟨expression, legible, rfl⟩ := written
    refine ⟨⟨.jsxContainer expression⟩, everywhere_mk.mpr ⟨trivial, ?_⟩, rfl⟩
    simpa [Node.children, Node.edges] using legible
  | spread _ written =>
    obtain ⟨argument, legible, rfl⟩ := written
    refine ⟨⟨.spread argument⟩, everywhere_mk.mpr ⟨trivial, ?_⟩, rfl⟩
    simpa [Node.children, Node.edges] using legible
  | jsxText value =>
    exact ⟨⟨.jsxText value⟩, everywhere_mk.mpr ⟨trivial, by simp [Node.children, Node.edges]⟩, rfl⟩
  | identifier name =>
    refine ⟨⟨.identifier name⟩, everywhere_mk.mpr ⟨trivial, ?_⟩, rfl⟩
    simp [Node.children, Node.edges]
  | @generic kind _ generic distinct _ _ singles sequences =>
    obtain ⟨fields, rfl, data, legible⟩ := exists_fieldsToEstree singles sequences
    rw [map_fst_fieldsToEstree] at generic
    have keys : (("type", Json.string kind) :: fieldsToEstree fields).map Prod.fst =
        "type" :: fields.map Prod.fst := by
      rw [List.map_cons, map_fst_fieldsToEstree]
    rw [map_fst_fieldsToEstree] at distinct
    obtain ⟨untyped, nodup⟩ := List.nodup_cons.mp distinct
    refine ⟨⟨.generic kind fields⟩,
      everywhere_mk.mpr ⟨⟨generic, untyped, fun _ => nodup, data⟩, ?_⟩, ?_⟩
    · intro inner mem
      obtain ⟨field, memFields, memField⟩ := Node.mem_children_generic.mp mem
      exact legible field memFields inner memField
    · rw [toEstree, Json.ofMembers_of_nodup (by rw [keys]; exact distinct)]

end Estree

/-! ## Reading and writing back -/

namespace Tree

open Estree (Canonical IsData IsGeneric isNode isNodeList tag?)

/-- A tree that owns a term at its root is written as the term is. -/
theorem Owns.toEstree? {t : Tree} {term : Term} {footprint : List Place}
    (owns : t.Owns [.node t.root] [.node term] footprint) :
    t.toEstree? = some term.toEstree :=
  congrArg (Option.map Term.toEstree) owns.toTerm?

theorem toEstree?_ofTerm (term : Term) : (ofTerm term).toEstree? = some term.toEstree := by
  obtain ⟨_, owns⟩ := owns_ofTerm term
  exact owns.toEstree?

/-- A document is accepted, and the tree that is read from it is written as the
other. -/
def ComesBackAs (document written : Json) : Prop :=
  ∃ t, ofEstree document = .ok t ∧ t.toEstree? = some written

theorem comesBackAs_iff {document written : Json} :
    ComesBackAs document written ↔
      ∃ term, Estree.read document = .ok term ∧ term.toEstree = written := by
  constructor
  · rintro ⟨t, accepted, writes⟩
    obtain ⟨term, reads, rfl⟩ := ofEstree_ok_iff.mp accepted
    rw [toEstree?_ofTerm] at writes
    exact ⟨term, reads, Option.some.inj writes⟩
  · rintro ⟨term, reads, rfl⟩
    exact ⟨ofTerm term, ofEstree_ok_iff.mpr ⟨term, reads, rfl⟩, toEstree?_ofTerm term⟩

theorem ComesBackAs.canonical {document written : Json} (comesBack : ComesBackAs document written) :
    Canonical written := by
  obtain ⟨term, reads, rfl⟩ := comesBackAs_iff.mp comesBack
  exact Estree.canonical_toEstree (Estree.everywhere_legible_of_read False.elim reads)

/-- A canonical document comes back as it was. -/
theorem comesBackAs_self {document : Json} (canonical : Canonical document) :
    ComesBackAs document document := by
  obtain ⟨term, legible, rfl⟩ := canonical.isWritten
  exact comesBackAs_iff.mpr ⟨term.reread, Estree.read_toEstree legible, term.toEstree_reread⟩

/-- What becomes of a value in a generic node: nodes and sequences of nodes come
back, and plain data stays as it is. -/
inductive Kept : Json → Json → Prop
  | node {value written : Json} : isNode value = true → ComesBackAs value written →
    Kept value written
  | sequence {items written : List Json} : isNodeList items = true →
    List.Forall₂ ComesBackAs items written → Kept (.array items) (.array written)
  | data {value : Json} : IsData value → Kept value value

theorem comesBackAs_of_readList {items : List Json} {terms : List Term}
    (accepted : Estree.readList items = .ok terms) :
    List.Forall₂ ComesBackAs items (Term.listToEstree terms) := by
  induction items generalizing terms with
  | nil =>
    cases accepted
    exact .nil
  | cons item rest ih =>
    obtain ⟨first, readFirst, readRest⟩ := Term.ok_of_bind accepted
    obtain ⟨others, readOthers, same⟩ := Term.ok_of_bind readRest
    cases same
    exact .cons (comesBackAs_iff.mpr ⟨first, readFirst, rfl⟩) (ih readOthers)

theorem kept_of_readField {value : Json} {field : Field Term (List Term)}
    (accepted : Estree.readField value = .ok field) : Kept value (Term.fieldToEstree field) := by
  obtain ⟨child, rfl, node, readChild⟩ | ⟨items, children, rfl, rfl, sequence, readItems⟩ |
    ⟨rfl, data⟩ := Estree.readField_cases accepted
  · exact .node node (comesBackAs_iff.mpr ⟨child, readChild, rfl⟩)
  · exact .sequence sequence (comesBackAs_of_readList readItems)
  · exact .data data

theorem kept_of_readFields {members : List (String × Json)}
    {fields : List (String × Field Term (List Term))}
    (accepted : Estree.readFields members = .ok fields) :
    List.Forall₂ (fun member written => written.1 = member.1 ∧ Kept member.2 written.2)
      (members.filter fun member => member.1 ≠ "type") (Term.fieldsToEstree fields) := by
  rw [Term.fieldsToEstree_eq_map]
  induction members generalizing fields with
  | nil =>
    cases accepted
    exact .nil
  | cons member rest ih =>
    obtain ⟨key, value⟩ := member
    by_cases tag : key = "type"
    · rw [tag, Estree.readFields_type] at accepted
      rw [List.filter_cons_of_neg (by simpa using tag)]
      exact ih accepted
    · rw [Estree.readFields_cons tag] at accepted
      obtain ⟨field, readValue, readRest⟩ := Term.ok_of_bind accepted
      obtain ⟨others, readOthers, same⟩ := Term.ok_of_bind readRest
      cases same
      rw [List.filter_cons_of_pos (by simpa using tag), List.map_cons]
      exact .cons ⟨rfl, kept_of_readField readValue⟩ (ih readOthers)

/-- A generic node comes back with its kind first and then all of its fields. -/
theorem exists_kept {kind : String} {members : List (String × Json)} {written : Json}
    (tagged : tag? members = some kind) (generic : IsGeneric kind (members.map Prod.fst))
    (distinct : (members.map Prod.fst).Nodup) (comesBack : ComesBackAs (.object members) written) :
    ∃ fields, written = .object (("type", .string kind) :: fields) ∧
      List.Forall₂ (fun member field => field.1 = member.1 ∧ Kept member.2 field.2)
        (members.filter fun member => member.1 ≠ "type") fields := by
  obtain ⟨term, reads, rfl⟩ := comesBackAs_iff.mp comesBack
  rw [Estree.read_of_isGeneric tagged generic] at reads
  obtain ⟨fields, readFields, rfl⟩ := Estree.ok_of_map reads
  refine ⟨Term.fieldsToEstree fields, ?_, kept_of_readFields readFields⟩
  have keys : (("type", Json.string kind) :: Term.fieldsToEstree fields).map Prod.fst =
      "type" :: (members.map Prod.fst).filter (· ≠ "type") := by
    rw [List.map_cons, Term.map_fst_fieldsToEstree, Estree.map_fst_of_readFields readFields]
  rw [Term.toEstree, Json.ofMembers_of_nodup]
  rw [keys]
  exact List.nodup_cons.mpr ⟨by simp, distinct.filter _⟩

/-- Reading and writing back brings every document that is accepted into canonical
form; the documents that come back as they were are the canonical ones, so that doing
it twice is doing it once; and a generic node comes back with all of its fields in
their order, whatever they hold. -/
theorem comesBackAs_canonical :
    (∀ document t, ofEstree document = .ok t →
      ∃ written, t.toEstree? = some written ∧ Canonical written) ∧
    (∀ document, Canonical document ↔ ComesBackAs document document) ∧
    (∀ document written, ComesBackAs document written → ComesBackAs written written) ∧
    ∀ kind members written, tag? members = some kind → IsGeneric kind (members.map Prod.fst) →
      (members.map Prod.fst).Nodup → ComesBackAs (.object members) written →
      ∃ fields, written = .object (("type", .string kind) :: fields) ∧
        List.Forall₂ (fun member field => field.1 = member.1 ∧ Kept member.2 field.2)
          (members.filter fun member => member.1 ≠ "type") fields := by
  refine ⟨fun document t accepted => ?_, fun document => ⟨comesBackAs_self, (·.canonical)⟩,
    fun document written comesBack => comesBackAs_self comesBack.canonical,
    fun kind members written => exists_kept⟩
  obtain ⟨term, reads, rfl⟩ := ofEstree_ok_iff.mp accepted
  have writes := toEstree?_ofTerm term
  exact ⟨_, writes, ComesBackAs.canonical ⟨_, accepted, writes⟩⟩

/-- A statement with its fields in no order, text that was spelled otherwise and
more data than a reader knows of. -/
def looseStatement : List (String × Json) :=
  [("start", .number (.integer 0)), ("type", .string "ExpressionStatement"),
    ("expression", .object [("value", .string "&"), ("raw", .string "&amp;"),
      ("type", .string "JSXText"), ("end", .number (.integer 5))]),
    ("notes", .array [.null, .object [("type", .null)]])]

theorem exists_ofEstree_looseStatement : ∃ t, ofEstree (.object looseStatement) = .ok t := by
  obtain ⟨term, reads⟩ : ∃ term, Estree.read (.object looseStatement) = .ok term := ⟨_, rfl⟩
  exact ⟨ofTerm term, ofEstree_ok_iff.mpr ⟨term, reads, rfl⟩⟩

theorem comesBackAs_canonical_looseStatement :
    ∃ t written, ofEstree (.object looseStatement) = .ok t ∧ t.toEstree? = some written ∧
      Canonical written ∧ ComesBackAs written written ∧
      tag? looseStatement = some "ExpressionStatement" ∧
      IsGeneric "ExpressionStatement" (looseStatement.map Prod.fst) ∧
      (looseStatement.map Prod.fst).Nodup ∧
      ∃ fields, written = .object (("type", .string "ExpressionStatement") :: fields) ∧
        List.Forall₂ (fun member field => field.1 = member.1 ∧ Kept member.2 field.2)
          (looseStatement.filter fun member => member.1 ≠ "type") fields := by
  obtain ⟨form, fixed, _, fields⟩ := comesBackAs_canonical
  have generic : IsGeneric "ExpressionStatement" (looseStatement.map Prod.fst) :=
    .inl (by decide)
  have distinct : (looseStatement.map Prod.fst).Nodup := by decide
  obtain ⟨t, accepted⟩ := exists_ofEstree_looseStatement
  obtain ⟨written, writes, canonical⟩ := form _ t accepted
  exact ⟨t, written, accepted, writes, canonical, (fixed written).mp canonical, rfl, generic,
    distinct, fields _ _ written rfl generic distinct ⟨t, accepted, writes⟩⟩

end Tree

end JsxFactory
