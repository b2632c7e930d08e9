/-
# What is read from documents

Not every term comes from a document. One that does is legible: a generic node in
it is of a kind, or has fields, that no other shape takes, it has no field `type`,
its values are neither nodes nor sequences of nodes, and an attribute with a value
has a value that is there. If the objects of the document list each key once, then
so do the generic nodes that are read from them.
-/

import Mathlib.Data.List.Nodup
import JsxFactory.Estree.Reader
import JsxFactory.Proofs.Desugaring

namespace JsxFactory

/-! ## Members of objects -/

namespace Json

variable {key : String} {value : Json} {members given collected : List (String × Json)}

theorem insert_of_notMem (new : key ∉ members.map Prod.fst) :
    insert key value members = members ++ [(key, value)] := by
  induction members with
  | nil => rfl
  | cons first rest ih =>
    obtain ⟨other, old⟩ := first
    rw [List.map_cons, List.mem_cons, not_or] at new
    obtain ⟨differs, new⟩ := new
    rw [insert, if_neg (Ne.symm differs), ih new]
    rfl

theorem map_fst_insert_of_mem (old : key ∈ members.map Prod.fst) :
    (insert key value members).map Prod.fst = members.map Prod.fst := by
  induction members with
  | nil => cases old
  | cons first rest ih =>
    obtain ⟨other, _⟩ := first
    by_cases same : other = key
    · rw [insert, if_pos same]
      simp [same]
    · rw [insert, if_neg same]
      have later : key ∈ rest.map Prod.fst := by
        simpa [Ne.symm same] using old
      rw [List.map_cons, ih later, List.map_cons]

theorem mem_of_mem_insert {member : String × Json} (mem : member ∈ insert key value members) :
    member = (key, value) ∨ member ∈ members := by
  induction members with
  | nil => exact .inl (List.mem_singleton.mp mem)
  | cons first rest ih =>
    obtain ⟨other, old⟩ := first
    by_cases same : other = key
    · rw [insert, if_pos same, List.mem_cons] at mem
      exact mem.imp_right (List.mem_cons_of_mem _)
    · rw [insert, if_neg same, List.mem_cons] at mem
      obtain rfl | mem := mem
      · exact .inr List.mem_cons_self
      · exact (ih mem).imp_right (List.mem_cons_of_mem _)

theorem nodup_insert (distinct : (members.map Prod.fst).Nodup) :
    ((insert key value members).map Prod.fst).Nodup := by
  by_cases old : key ∈ members.map Prod.fst
  · rw [map_fst_insert_of_mem old]
    exact distinct
  · rw [insert_of_notMem old, List.map_append, List.map_singleton]
    exact distinct.append (List.nodup_singleton _) (by simpa using old)

/-- The members of an object that some members are put together to: the same
keys, each once and with one of the values given for it. -/
structure Collects (given collected : List (String × Json)) : Prop where
  nodup : (collected.map Prod.fst).Nodup
  source : ∀ member ∈ collected, member ∈ given
  keys : ∀ key, key ∈ collected.map Prod.fst ↔ key ∈ given.map Prod.fst

theorem Collects.insert (collects : Collects given collected) (key : String) (value : Json) :
    Collects (given ++ [(key, value)]) (insert key value collected) where
  nodup := nodup_insert collects.nodup
  source := by
    intro member mem
    obtain rfl | mem := mem_of_mem_insert mem
    · exact List.mem_append_right _ List.mem_cons_self
    · exact List.mem_append_left _ (collects.source member mem)
  keys := by
    intro other
    rw [List.map_append, List.mem_append, ← collects.keys]
    by_cases old : key ∈ collected.map Prod.fst
    · rw [map_fst_insert_of_mem old]
      constructor
      · exact .inl
      · rintro (mem | mem)
        · exact mem
        · obtain rfl := List.mem_singleton.mp mem
          exact old
    · rw [insert_of_notMem old, List.map_append, List.mem_append]

/-- An object put together from members whose first key does not come again
starts with that member. -/
theorem exists_ofMembers_cons {first : String × Json} (absent : first.1 ∉ members.map Prod.fst) :
    ∃ collected, ofMembers (first :: members) = .object (first :: collected) ∧
      Collects members collected := by
  suffices ∀ given collected, Collects given collected → ∃ more,
      members.foldl (fun done next => insert next.1 next.2 done) (first :: collected) =
        first :: more ∧ Collects (given ++ members) more by
    obtain ⟨more, folds, collects⟩ := this [] [] ⟨List.nodup_nil, by simp, by simp⟩
    exact ⟨more, congrArg Json.object folds, collects⟩
  induction members with
  | nil =>
    intro given collected collects
    exact ⟨collected, rfl, by simpa using collects⟩
  | cons next rest ih =>
    intro given collected collects
    obtain ⟨key, value⟩ := next
    rw [List.map_cons, List.mem_cons, not_or] at absent
    obtain ⟨more, folds, collects'⟩ :=
      ih absent.2 (given ++ [(key, value)]) _ (collects.insert key value)
    refine ⟨more, ?_, by simpa using collects'⟩
    have kept : insert key value (first :: collected) = first :: insert key value collected := by
      obtain ⟨firstKey, firstValue⟩ := first
      rw [insert, if_neg absent.1]
    simp only [List.foldl_cons, kept, folds]

/-- Members with different keys are put together to the object that lists them. -/
theorem ofMembers_of_nodup (distinct : (members.map Prod.fst).Nodup) :
    ofMembers members = .object members := by
  suffices ∀ done : List (String × Json), ((done ++ members).map Prod.fst).Nodup →
      members.foldl (fun done next => insert next.1 next.2 done) done = done ++ members by
    exact congrArg Json.object (this [] distinct)
  clear distinct
  induction members with
  | nil => simp
  | cons first rest ih =>
    intro done distinct
    obtain ⟨key, value⟩ := first
    have new : key ∉ done.map Prod.fst := by
      intro old
      rw [List.map_append, List.map_cons] at distinct
      exact (List.nodup_append'.mp distinct).2.2 old List.mem_cons_self
    have next := ih (done ++ [(key, value)]) (by simpa using distinct)
    simp only [List.foldl_cons, insert_of_notMem new, next, List.append_assoc,
      List.singleton_append]

theorem isSome_lookup_iff {β : Type} {members : List (String × β)} :
    (members.lookup key).isSome = true ↔ key ∈ members.map Prod.fst := by
  induction members with
  | nil => simp
  | cons first rest ih =>
    obtain ⟨other, value⟩ := first
    by_cases same : key = other
    · simp [same]
    · have : (key == other) = false := by simpa using same
      simp [List.lookup_cons, this, ih, same]

/-- Objects list each key once, at any depth. -/
inductive Keyed : Json → Prop
  | null : Keyed .null
  | bool (value : Bool) : Keyed (.bool value)
  | number (value : Number) : Keyed (.number value)
  | string (value : String) : Keyed (.string value)
  | array {items : List Json} : (∀ item ∈ items, Keyed item) → Keyed (.array items)
  | object {members : List (String × Json)} : (members.map Prod.fst).Nodup →
    (∀ member ∈ members, Keyed member.2) → Keyed (.object members)

theorem Keyed.nodup (keyed : Keyed (.object members)) : (members.map Prod.fst).Nodup := by
  cases keyed with
  | object distinct _ => exact distinct

/-- The values that stand directly in a value. -/
def parts : Json → List Json
  | .array items => items
  | .object members => members.map Prod.snd
  | _ => []

/-- A value is inside itself and inside every value that a part of which it is
inside of. -/
inductive Inside (inner : Json) : Json → Prop
  | here : Inside inner inner
  | part {middle outer : Json} : middle ∈ outer.parts → Inside inner middle → Inside inner outer

theorem Inside.member (mem : (key, value) ∈ members) : Inside value (.object members) :=
  .part (List.mem_map_of_mem mem) .here

theorem Inside.item {items : List Json} (mem : value ∈ items) : Inside value (.array items) :=
  .part mem .here

theorem Inside.trans {inner middle outer : Json} (first : Inside inner middle)
    (second : Inside middle outer) : Inside inner outer := by
  induction second with
  | here => exact first
  | part mem _ ih => exact .part mem ih

theorem Keyed.of_inside {inner outer : Json} (keyed : Keyed outer) (inside : Inside inner outer) :
    Keyed inner := by
  induction inside with
  | here => exact keyed
  | part mem _ ih =>
    refine ih ?_
    cases keyed with
    | array items => exact items _ mem
    | object _ values =>
      obtain ⟨member, memMembers, rfl⟩ := List.mem_map.mp mem
      exact values member memMembers
    | _ => cases mem

end Json

/-! ## Generic nodes -/

/-- The children in a field. -/
def Field.children {α : Type} : Field α (List α) → List α
  | .node child => [child]
  | .list children => children
  | .value _ => []

/-- The children of a generic node are those in its fields. -/
theorem Node.mem_children_generic {α : Type} {kind : String}
    {fields : List (String × Field α (List α))} {inner : α} :
    inner ∈ (Node.generic kind fields).children ↔ ∃ field ∈ fields, inner ∈ field.2.children := by
  induction fields with
  | nil => simp [Node.children]
  | cons first rest ih =>
    rw [List.exists_mem_cons_iff, ← ih]
    obtain ⟨key, _ | _ | _⟩ := first <;> simp [Node.children, Field.children]

namespace Estree

/-- The kinds of nodes that have a shape of their own. -/
def dedicatedKinds : List String :=
  ["JSXElement", "JSXIdentifier", "JSXMemberExpression", "JSXAttribute", "JSXSpreadAttribute",
    "JSXExpressionContainer", "JSXText", "Identifier", "Literal", "Property", "SpreadElement",
    "ObjectExpression", "ArrayExpression", "CallExpression", "MemberExpression"]

/-- Whether a node of a kind with fields of the given names is generic. -/
def IsGeneric (kind : String) (keys : List String) : Prop :=
  kind ∉ dedicatedKinds ∨ kind = "Literal" ∧ ("regex" ∈ keys ∨ "bigint" ∈ keys)

@[simp] theorem isGeneric_cons_type {kind : String} {keys : List String} :
    IsGeneric kind ("type" :: keys) ↔ IsGeneric kind keys := by
  simp [IsGeneric]

theorem of_literal_eq_generic_iff {members : List (String × Json)} :
    Kind.of "Literal" members = .generic ↔
      "regex" ∈ members.map Prod.fst ∨ "bigint" ∈ members.map Prod.fst := by
  rw [← Json.isSome_lookup_iff, ← Json.isSome_lookup_iff, ← Bool.or_eq_true]
  have literal : Kind.named.lookup "Literal" = some .literal := rfl
  rw [Kind.of, literal]
  cases (members.lookup "regex").isSome || (members.lookup "bigint").isSome <;> simp

/-- The kind that is read is generic just if the node is. -/
theorem of_eq_generic_iff {kind : String} {members : List (String × Json)} :
    Kind.of kind members = .generic ↔ IsGeneric kind (members.map Prod.fst) := by
  by_cases dedicated : kind ∈ dedicatedKinds
  · rw [IsGeneric, or_iff_right (not_not_intro dedicated)]
    by_cases literal : kind = "Literal"
    · rw [literal, of_literal_eq_generic_iff, and_iff_right rfl]
    · refine iff_of_false ?_ fun generic => literal generic.1
      simp only [dedicatedKinds, List.mem_cons, List.not_mem_nil, or_false] at dedicated
      rcases dedicated with rfl | rfl | rfl | rfl | rfl | rfl | rfl | rfl | rfl | rfl | rfl | rfl |
        rfl | rfl | rfl
      all_goals first | exact absurd rfl literal | simp [Kind.of, Kind.named, List.lookup_cons]
  · have none : Kind.named.lookup kind = none := by
      rw [← Option.not_isSome_iff_eq_none, Json.isSome_lookup_iff]
      exact dedicated
    rw [Kind.of, none]
    exact iff_of_true rfl (.inl dedicated)

/-- Whether a value in a generic node is plain data: neither a node nor a
sequence of nodes. -/
structure IsData (value : Json) : Prop where
  notNode : isNode value = false
  notSequence : ∀ items, value = .array items → isNodeList items = false

/-- Whether a field of a generic node is a child, a sequence or plain data. -/
def IsDataField : Field Term (List Term) → Prop
  | .value json => IsData json
  | _ => True

theorem readFields_type (value : Json) (rest : List (String × Json)) :
    readFields (("type", value) :: rest) = readFields rest := by
  cases value <;> exact if_pos rfl

/-- A generic node object is read as a generic node with the fields besides its
`type`. -/
theorem read_of_isGeneric {kind : String} {members : List (String × Json)}
    (tagged : tag? members = some kind) (generic : IsGeneric kind (members.map Prod.fst)) :
    read (.object members) = (readFields members).map fun fields => ⟨.generic kind fields⟩ := by
  have kindOf : Kind.of kind members = .generic := of_eq_generic_iff.mpr generic
  rw [read]
  simp only [tagged, kindOf]
  cases readFields members <;> rfl

/-- The field that a value in a generic node is read as. -/
def readField (value : Json) : Except ReadError (Field Term (List Term)) :=
  if isNode value then (read value).map Field.node
  else
    match value with
    | .array items =>
      if isNodeList items then (readList items).map Field.list else .ok (.value value)
    | _ => .ok (.value value)

theorem readFields_cons {key : String} (differs : key ≠ "type") (value : Json)
    (rest : List (String × Json)) :
    readFields ((key, value) :: rest) = do
      return (key, ← readField value) :: (← readFields rest) := by
  -- The next field is read after this one in each of the branches that choose how.
  cases value with
  | array items =>
    cases sequence : isNodeList items <;>
      simp [readFields, readField, differs, sequence, isNode]
  | object members =>
    cases node : isNode (.object members) <;> simp [readFields, readField, differs, node]
  | _ => exact if_neg differs

theorem ok_of_map {ε α β : Type} {f : α → β} {first : Except ε α} {result : β}
    (succeeds : first.map f = .ok result) : ∃ middle, first = .ok middle ∧ result = f middle := by
  cases first with
  | error problem => cases succeeds
  | ok middle =>
    cases succeeds
    exact ⟨middle, rfl, rfl⟩

/-- A value is read as a child, as a sequence or as it is. -/
theorem readField_cases {value : Json} {field : Field Term (List Term)}
    (accepted : readField value = .ok field) :
    (∃ child, field = .node child ∧ isNode value = true ∧ read value = .ok child) ∨
    (∃ items children, field = .list children ∧ value = .array items ∧
      isNodeList items = true ∧ readList items = .ok children) ∨
    field = .value value ∧ IsData value := by
  unfold readField at accepted
  cases node : isNode value with
  | true =>
    rw [if_pos node] at accepted
    obtain ⟨child, result, rfl⟩ := ok_of_map accepted
    exact .inl ⟨child, rfl, rfl, result⟩
  | false =>
    rw [if_neg (by simp [node])] at accepted
    cases value with
    | array items =>
      cases sequence : isNodeList items with
      | true =>
        simp only [sequence, if_true] at accepted
        obtain ⟨children, result, rfl⟩ := ok_of_map accepted
        exact .inr (.inl ⟨items, children, rfl, rfl, sequence, result⟩)
      | false =>
        simp only [sequence] at accepted
        cases accepted
        refine .inr (.inr ⟨rfl, node, ?_⟩)
        rintro _ ⟨⟩
        exact sequence
    | _ =>
      cases accepted
      refine .inr (.inr ⟨rfl, node, ?_⟩)
      rintro _ ⟨⟩

end Estree

/-! ## Legible terms -/

namespace Term

/-- Whether a term is the absent node. -/
def isHole : Term → Bool
  | ⟨.hole⟩ => true
  | _ => false

/-- Whether a generic node of the kind may be read with the fields. If `keyed`,
then each key comes once. -/
structure LegibleFields (keyed : Prop) (kind : String)
    (fields : List (String × Field Term (List Term))) : Prop where
  generic : Estree.IsGeneric kind (fields.map Prod.fst)
  untyped : "type" ∉ fields.map Prod.fst
  distinct : keyed → (fields.map Prod.fst).Nodup
  data : ∀ field ∈ fields, Estree.IsDataField field.2

/-- Whether the outermost node of a term may be read from a document, or, if
`keyed`, from a document whose objects list each key once. -/
def Legible (keyed : Prop) : Term → Prop
  | ⟨.jsxAttribute _ (some value)⟩ => value.isHole = false
  | ⟨.generic kind fields⟩ => LegibleFields keyed kind fields
  | _ => True

end Term

namespace Estree

open Term (Legible LegibleFields ok_of_bind everywhere_mk)

theorem readItems_of_ne {kind field key : String} (differs : key ≠ field) (value : Json)
    (rest : List (String × Json)) :
    readItems kind field ((key, value) :: rest) = readItems kind field rest := by
  cases value <;> exact if_neg differs

theorem readOpening_of_ne {key : String} (differs : key ≠ "openingElement") (value : Json)
    (rest : List (String × Json)) : readOpening ((key, value) :: rest) = readOpening rest := by
  cases value <;> exact if_neg differs

theorem map_fst_of_readFields {members : List (String × Json)}
    {fields : List (String × Field Term (List Term))} (accepted : readFields members = .ok fields) :
    fields.map Prod.fst = (members.map Prod.fst).filter (· ≠ "type") := by
  induction members generalizing fields with
  | nil =>
    cases accepted
    rfl
  | cons first rest ih =>
    obtain ⟨key, value⟩ := first
    by_cases tag : key = "type"
    · rw [tag, readFields_type] at accepted
      rw [List.map_cons, tag, List.filter_cons_of_neg (by simp), ih accepted]
    · rw [readFields_cons tag] at accepted
      obtain ⟨field, _, readRest⟩ := ok_of_bind accepted
      obtain ⟨others, readOthers, same⟩ := ok_of_bind readRest
      cases same
      rw [List.map_cons, List.map_cons, List.filter_cons_of_pos (by simpa using tag),
        ih readOthers]

theorem mem_of_readFields {members : List (String × Json)}
    {fields : List (String × Field Term (List Term))} (accepted : readFields members = .ok fields)
    {key : String} {field : Field Term (List Term)} (mem : (key, field) ∈ fields) :
    ∃ value, (key, value) ∈ members ∧ readField value = .ok field := by
  induction members generalizing fields with
  | nil =>
    cases accepted
    cases mem
  | cons first rest ih =>
    obtain ⟨other, value⟩ := first
    by_cases tag : other = "type"
    · rw [tag, readFields_type] at accepted
      obtain ⟨found, memRest, readFound⟩ := ih accepted mem
      exact ⟨found, List.mem_cons_of_mem _ memRest, readFound⟩
    · rw [readFields_cons tag] at accepted
      obtain ⟨first, readFirst, readRest⟩ := ok_of_bind accepted
      obtain ⟨others, readOthers, same⟩ := ok_of_bind readRest
      cases same
      obtain here | later := List.mem_cons.mp mem
      · cases here
        exact ⟨value, List.mem_cons_self, readFirst⟩
      · obtain ⟨found, memRest, readFound⟩ := ih readOthers later
        exact ⟨found, List.mem_cons_of_mem _ memRest, readFound⟩

variable {keyed : Prop}

theorem legibleFields_of_readFields {tag : String} {members : List (String × Json)}
    {fields : List (String × Field Term (List Term))} (kind : Kind.of tag members = .generic)
    (distinct : keyed → (Json.object members).Keyed) (accepted : readFields members = .ok fields) :
    LegibleFields keyed tag fields where
  generic := by
    have generic := of_eq_generic_iff.mp kind
    rw [IsGeneric, map_fst_of_readFields accepted]
    simpa [IsGeneric] using generic
  untyped := by
    rw [map_fst_of_readFields accepted]
    simp
  distinct := by
    intro known
    rw [map_fst_of_readFields accepted]
    exact (distinct known).nodup.filter _
  data := by
    rintro ⟨key, field⟩ mem
    obtain ⟨value, _, readValue⟩ := mem_of_readFields accepted mem
    obtain ⟨_, rfl, _⟩ | ⟨_, _, rfl, _⟩ | ⟨rfl, data⟩ := readField_cases readValue
    · trivial
    · trivial
    · exact data

theorem mem_of_readChild {kind field : String} {members : List (String × Json)} {term : Term}
    (accepted : readChild kind field members = .ok term) :
    ∃ value, (field, value) ∈ members ∧ read value = .ok term := by
  induction members with
  | nil => cases accepted
  | cons first rest ih =>
    obtain ⟨key, value⟩ := first
    by_cases found : key = field
    · rw [readChild, if_pos found] at accepted
      exact ⟨value, found ▸ List.mem_cons_self, accepted⟩
    · rw [readChild, if_neg found] at accepted
      obtain ⟨value, mem, accepted⟩ := ih accepted
      exact ⟨value, List.mem_cons_of_mem _ mem, accepted⟩

theorem mem_of_readOptional {field : String} {members : List (String × Json)} {term : Term}
    (accepted : readOptional field members = .ok (some term)) :
    ∃ value, (field, value) ∈ members ∧ value.isNull = false ∧ read value = .ok term := by
  induction members with
  | nil => cases accepted
  | cons first rest ih =>
    obtain ⟨key, value⟩ := first
    by_cases found : key = field
    · rw [readOptional, if_pos found] at accepted
      cases null : value.isNull with
      | true =>
        rw [if_pos null] at accepted
        cases accepted
      | false =>
        rw [if_neg (by simp [null])] at accepted
        obtain ⟨_, result, ⟨⟩⟩ := ok_of_map accepted
        exact ⟨value, found ▸ List.mem_cons_self, null, result⟩
    · rw [readOptional, if_neg found] at accepted
      obtain ⟨value, mem, rest⟩ := ih accepted
      exact ⟨value, List.mem_cons_of_mem _ mem, rest⟩

theorem mem_of_readItems {kind field : String} {members : List (String × Json)}
    {terms : List Term} (accepted : readItems kind field members = .ok terms) :
    ∃ items, (field, .array items) ∈ members ∧ readList items = .ok terms := by
  induction members with
  | nil => cases accepted
  | cons first rest ih =>
    obtain ⟨key, value⟩ := first
    by_cases found : key = field
    · cases value with
      | array items =>
        rw [readItems, if_pos found] at accepted
        exact ⟨items, found ▸ List.mem_cons_self, accepted⟩
      | _ => simp [readItems, found] at accepted
    · rw [readItems_of_ne found] at accepted
      obtain ⟨items, mem, accepted⟩ := ih accepted
      exact ⟨items, List.mem_cons_of_mem _ mem, accepted⟩

theorem mem_of_readList {items : List Json} {terms : List Term}
    (accepted : readList items = .ok terms) {term : Term} (mem : term ∈ terms) :
    ∃ item ∈ items, read item = .ok term := by
  induction items generalizing terms with
  | nil =>
    cases accepted
    cases mem
  | cons item rest ih =>
    obtain ⟨first, readFirst, readRest⟩ := ok_of_bind accepted
    obtain ⟨others, readOthers, same⟩ := ok_of_bind readRest
    cases same
    obtain rfl | later := List.mem_cons.mp mem
    · exact ⟨item, List.mem_cons_self, readFirst⟩
    · obtain ⟨found, mem, accepted⟩ := ih readOthers later
      exact ⟨found, List.mem_cons_of_mem _ mem, accepted⟩

theorem mem_of_readOpening {members : List (String × Json)} {name : Term} {attributes : List Term}
    {selfClosing : Bool} (accepted : readOpening members = .ok (name, attributes, selfClosing)) :
    ∃ opening, ("openingElement", .object opening) ∈ members ∧
      readChild "JSXOpeningElement" "name" opening = .ok name ∧
      readItems "JSXOpeningElement" "attributes" opening = .ok attributes := by
  induction members with
  | nil => cases accepted
  | cons first rest ih =>
    obtain ⟨key, value⟩ := first
    by_cases found : key = "openingElement"
    · cases value with
      | object opening =>
        rw [readOpening, if_pos found] at accepted
        obtain ⟨name, readName, rest⟩ := ok_of_bind accepted
        obtain ⟨attributes, readAttributes, rest⟩ := ok_of_bind rest
        obtain ⟨_, _, same⟩ := ok_of_bind rest
        cases same
        exact ⟨opening, found ▸ List.mem_cons_self, readName, readAttributes⟩
      | _ => simp [readOpening, found] at accepted
    · rw [readOpening_of_ne found] at accepted
      obtain ⟨opening, mem, accepted⟩ := ih accepted
      exact ⟨opening, List.mem_cons_of_mem _ mem, accepted⟩

/-- Whether a term is read from a document inside of another. -/
def ReadInside (document : Json) (term : Term) : Prop :=
  ∃ part : Json, part.Inside document ∧ read part = .ok term

theorem ReadInside.of_inside {inner outer : Json} {term : Term} (read : ReadInside inner term)
    (inside : inner.Inside outer) : ReadInside outer term := by
  obtain ⟨part, within, accepted⟩ := read
  exact ⟨part, within.trans inside, accepted⟩

theorem readInside_of_readChild {kind field : String} {members : List (String × Json)}
    {term : Term} (accepted : readChild kind field members = .ok term) :
    ReadInside (.object members) term := by
  obtain ⟨value, mem, accepted⟩ := mem_of_readChild accepted
  exact ⟨value, .member mem, accepted⟩

theorem readInside_of_readList {items : List Json} {terms : List Term}
    (accepted : readList items = .ok terms) : ∀ term ∈ terms, ReadInside (.array items) term := by
  intro term mem
  obtain ⟨item, memItems, accepted⟩ := mem_of_readList accepted mem
  exact ⟨item, .item memItems, accepted⟩

theorem readInside_of_readItems {kind field : String} {members : List (String × Json)}
    {terms : List Term} (accepted : readItems kind field members = .ok terms) :
    ∀ term ∈ terms, ReadInside (.object members) term := by
  intro term mem
  obtain ⟨items, memMembers, accepted⟩ := mem_of_readItems accepted
  exact (readInside_of_readList accepted term mem).of_inside (.member memMembers)

theorem readInside_of_readField {value : Json} {field : Field Term (List Term)}
    (accepted : readField value = .ok field) :
    ∀ inner ∈ field.children, ReadInside value inner := by
  obtain ⟨child, rfl, _, readChild⟩ | ⟨items, children, rfl, rfl, _, readItems⟩ | ⟨rfl, _⟩ :=
    readField_cases accepted
  · intro inner mem
    obtain rfl := List.mem_singleton.mp mem
    exact ⟨value, .here, readChild⟩
  · exact readInside_of_readList readItems
  · intro inner mem
    cases mem

theorem readInside_of_readFields {kind : String} {members : List (String × Json)}
    {fields : List (String × Field Term (List Term))} (accepted : readFields members = .ok fields) :
    ∀ inner ∈ (Node.generic kind fields).children, ReadInside (.object members) inner := by
  intro inner mem
  obtain ⟨⟨key, field⟩, memFields, memField⟩ := Node.mem_children_generic.mp mem
  obtain ⟨value, memMembers, readValue⟩ := mem_of_readFields accepted memFields
  exact (readInside_of_readField readValue inner memField).of_inside (.member memMembers)

theorem isHole_of_read {document : Json} {term : Term} (accepted : read document = .ok term) :
    term.isHole = document.isNull := by
  cases document with
  | null =>
    cases accepted
    rfl
  | object members =>
    rw [read] at accepted
    cases tagged : tag? members with
    | none =>
      rw [tagged] at accepted
      cases accepted
    | some tag =>
      simp only [tagged] at accepted
      -- Whatever the kind, a node is put together last from the fields that were read.
      cases kind : Kind.of tag members <;> simp only [kind] at accepted
      all_goals
        repeat obtain ⟨_, _, accepted⟩ := ok_of_bind accepted
        cases accepted
        rfl
  | _ => cases accepted

/-- The outermost node of a term that is read is legible, and its children are
read from inside of the document. -/
theorem legible_of_read {document : Json} {node : Node Term (List Term)}
    (distinct : keyed → document.Keyed) (accepted : read document = .ok ⟨node⟩) :
    Legible keyed ⟨node⟩ ∧ ∀ inner ∈ node.children, ReadInside document inner := by
  cases document with
  | null =>
    cases accepted
    exact ⟨trivial, by simp [Node.children, Node.edges]⟩
  | object members =>
    rw [read] at accepted
    cases tagged : tag? members with
    | none =>
      rw [tagged] at accepted
      cases accepted
    | some tag =>
      simp only [tagged] at accepted
      cases kind : Kind.of tag members <;> simp only [kind] at accepted
      case jsxElement =>
        obtain ⟨⟨name, attributes, selfClosing⟩, readTag, rest⟩ := ok_of_bind accepted
        obtain ⟨children, readChildren, same⟩ := ok_of_bind rest
        cases same
        obtain ⟨opening, mem, readName, readAttributes⟩ := mem_of_readOpening readTag
        refine ⟨trivial, ?_⟩
        simp only [Node.children, Node.edges, List.flatMap_cons, Edge.items_node, Edge.items_list,
          List.flatMap_nil, List.append_nil, List.forall_mem_append, List.forall_mem_singleton]
        exact ⟨(readInside_of_readChild readName).of_inside (.member mem),
          fun inner within =>
            (readInside_of_readItems readAttributes inner within).of_inside (.member mem),
          readInside_of_readItems readChildren⟩
      case generic =>
        obtain ⟨fields, readMembers, same⟩ := ok_of_bind accepted
        cases same
        exact ⟨legibleFields_of_readFields kind distinct readMembers,
          readInside_of_readFields readMembers⟩
      case jsxAttribute =>
        obtain ⟨name, readName, rest⟩ := ok_of_bind accepted
        obtain ⟨value, readValue, same⟩ := ok_of_bind rest
        cases same
        cases value with
        | none =>
          refine ⟨trivial, ?_⟩
          simpa [Node.children, Node.edges] using readInside_of_readChild readName
        | some value =>
          obtain ⟨written, mem, null, readValue⟩ := mem_of_readOptional readValue
          refine ⟨(isHole_of_read readValue).trans null, ?_⟩
          simpa [Node.children, Node.edges] using
            ⟨readInside_of_readChild readName, written, .member mem, readValue⟩
      case jsxMember =>
        obtain ⟨base, readBase, rest⟩ := ok_of_bind accepted
        obtain ⟨name, readName, same⟩ := ok_of_bind rest
        cases same
        refine ⟨trivial, ?_⟩
        simpa [Node.children, Node.edges] using
          ⟨readInside_of_readChild readBase, readInside_of_readChild readName⟩
      case member =>
        obtain ⟨base, readBase, rest⟩ := ok_of_bind accepted
        obtain ⟨name, readName, rest⟩ := ok_of_bind rest
        obtain ⟨_, _, rest⟩ := ok_of_bind rest
        obtain ⟨_, _, same⟩ := ok_of_bind rest
        cases same
        refine ⟨trivial, ?_⟩
        simpa [Node.children, Node.edges] using
          ⟨readInside_of_readChild readBase, readInside_of_readChild readName⟩
      case property =>
        obtain ⟨_, _, rest⟩ := ok_of_bind accepted
        obtain ⟨key, readKey, rest⟩ := ok_of_bind rest
        obtain ⟨value, readValue, rest⟩ := ok_of_bind rest
        obtain ⟨_, _, rest⟩ := ok_of_bind rest
        obtain ⟨_, _, rest⟩ := ok_of_bind rest
        obtain ⟨_, _, same⟩ := ok_of_bind rest
        cases same
        refine ⟨trivial, ?_⟩
        simpa [Node.children, Node.edges] using
          ⟨readInside_of_readChild readKey, readInside_of_readChild readValue⟩
      case call =>
        obtain ⟨callee, readCallee, rest⟩ := ok_of_bind accepted
        obtain ⟨arguments, readArguments, rest⟩ := ok_of_bind rest
        obtain ⟨_, _, same⟩ := ok_of_bind rest
        cases same
        refine ⟨trivial, ?_⟩
        simpa [Node.children, Node.edges] using
          ⟨readInside_of_readChild readCallee, readInside_of_readItems readArguments⟩
      case jsxSpreadAttribute | jsxContainer | spread =>
        obtain ⟨argument, readArgument, same⟩ := ok_of_bind accepted
        cases same
        refine ⟨trivial, ?_⟩
        simpa [Node.children, Node.edges] using readInside_of_readChild readArgument
      case object | array =>
        obtain ⟨items, readItems, same⟩ := ok_of_bind accepted
        cases same
        refine ⟨trivial, ?_⟩
        simpa [Node.children, Node.edges] using readInside_of_readItems readItems
      case jsxIdentifier | jsxText | identifier | literal =>
        obtain ⟨_, _, same⟩ := ok_of_bind accepted
        cases same
        exact ⟨trivial, by simp [Node.children, Node.edges]⟩
  | _ => cases accepted

/-- A term that is read from a document is legible all through. -/
theorem everywhere_legible_of_read {document : Json} {term : Term}
    (distinct : keyed → document.Keyed) (accepted : read document = .ok term) :
    term.Everywhere (Legible keyed) := by
  induction term using Term.induction generalizing document with
  | mk node ih =>
    obtain ⟨here, children⟩ := legible_of_read distinct accepted
    refine everywhere_mk.mpr ⟨here, fun inner mem => ?_⟩
    obtain ⟨part, inside, accepted⟩ := children inner mem
    exact ih inner mem (fun known => (distinct known).of_inside inside) accepted

end Estree

end JsxFactory
