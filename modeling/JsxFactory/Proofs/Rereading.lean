/-
# Reading what was written

A legible term is written to a document that can be read again. What is read is the
term itself but for the fields of generic nodes in which nothing is to be seen: an
absent node comes back as the value `null`, and a sequence of absent nodes as an
array of nulls. Both are written alike, so that reading and writing once more changes
nothing.
-/

import JsxFactory.Estree.Writer
import JsxFactory.Proofs.Reading

namespace JsxFactory

namespace Term

/-! ## What is read again -/

mutual

/-- The term that is read again when it has been written. -/
def reread : Term → Term
  | ⟨.hole⟩ => hole
  | ⟨.jsxElement name attributes children selfClosing⟩ =>
    ⟨.jsxElement (reread name) (rereadItems attributes) (rereadItems children) selfClosing⟩
  | ⟨.jsxIdentifier name⟩ => ⟨.jsxIdentifier name⟩
  | ⟨.jsxMember base name⟩ => ⟨.jsxMember (reread base) (reread name)⟩
  | ⟨.jsxAttribute name none⟩ => ⟨.jsxAttribute (reread name) none⟩
  | ⟨.jsxAttribute name (some value)⟩ => ⟨.jsxAttribute (reread name) (some (reread value))⟩
  | ⟨.jsxSpreadAttribute argument⟩ => ⟨.jsxSpreadAttribute (reread argument)⟩
  | ⟨.jsxContainer expression⟩ => ⟨.jsxContainer (reread expression)⟩
  | ⟨.jsxText value⟩ => ⟨.jsxText value⟩
  | ⟨.identifier name⟩ => ⟨.identifier name⟩
  | ⟨.literal value⟩ => ⟨.literal value⟩
  | ⟨.property key value kind method shorthand computed⟩ =>
    ⟨.property (reread key) (reread value) kind method shorthand computed⟩
  | ⟨.spread argument⟩ => ⟨.spread (reread argument)⟩
  | ⟨.object properties⟩ => ⟨.object (rereadItems properties)⟩
  | ⟨.array elements⟩ => ⟨.array (rereadItems elements)⟩
  | ⟨.call callee arguments optional⟩ =>
    ⟨.call (reread callee) (rereadItems arguments) optional⟩
  | ⟨.member base name computed optional⟩ =>
    ⟨.member (reread base) (reread name) computed optional⟩
  | ⟨.generic kind fields⟩ => ⟨.generic kind (rereadFields fields)⟩
termination_by structural term => term

/-- The items of a sequence that are read again. -/
def rereadItems : List Term → List Term
  | [] => []
  | item :: rest => reread item :: rereadItems rest

/-- The fields of a generic node that are read again. What is only absent nodes is
plain data. -/
def rereadFields : List (String × Field Term (List Term)) →
    List (String × Field Term (List Term))
  | [] => []
  | (key, .node child) :: rest =>
    (key, if child.isHole then .value .null else .node (reread child)) :: rereadFields rest
  | (key, .list children) :: rest =>
    (key, if children.all isHole then .value (.array (listToEstree children))
      else .list (rereadItems children)) :: rereadFields rest
  | (key, .value json) :: rest => (key, .value json) :: rereadFields rest

end

theorem listToEstree_eq_map (items : List Term) : listToEstree items = items.map toEstree := by
  induction items with
  | nil => rfl
  | cons item rest ih => rw [listToEstree, ih, List.map_cons]

/-- The value that a field of a generic node is written as. -/
def fieldToEstree : Field Term (List Term) → Json
  | .node child => child.toEstree
  | .list children => .array (listToEstree children)
  | .value json => json

theorem fieldsToEstree_eq_map (fields : List (String × Field Term (List Term))) :
    fieldsToEstree fields = fields.map fun field => (field.1, fieldToEstree field.2) := by
  induction fields with
  | nil => rfl
  | cons first rest ih =>
    obtain ⟨key, _ | _ | _⟩ := first <;> rw [fieldsToEstree, ih, List.map_cons] <;> rfl

/-- The field of a generic node that is read again. -/
def rereadField : Field Term (List Term) → Field Term (List Term)
  | .node child => if child.isHole then .value .null else .node child.reread
  | .list children =>
    if children.all isHole then .value (.array (listToEstree children))
    else .list (rereadItems children)
  | .value json => .value json

theorem rereadFields_eq_map (fields : List (String × Field Term (List Term))) :
    rereadFields fields = fields.map fun field => (field.1, rereadField field.2) := by
  induction fields with
  | nil => rfl
  | cons first rest ih =>
    obtain ⟨key, _ | _ | _⟩ := first <;> rw [rereadFields, ih, List.map_cons] <;> rfl

theorem map_fst_fieldsToEstree (fields : List (String × Field Term (List Term))) :
    (fieldsToEstree fields).map Prod.fst = fields.map Prod.fst := by
  rw [fieldsToEstree_eq_map, List.map_map]
  rfl

@[simp] theorem isHole_mk_hole : isHole ⟨.hole⟩ = true := rfl

theorem eq_hole_of_isHole {term : Term} (absent : term.isHole = true) : term = hole := by
  obtain ⟨node⟩ := term
  cases node with
  | hole => rfl
  | _ => cases absent

/-! ## Writing what is read again -/

mutual

/-- What is read again is written as before. -/
theorem toEstree_reread : ∀ term : Term, term.reread.toEstree = term.toEstree
  | ⟨.hole⟩ | ⟨.jsxIdentifier _⟩ | ⟨.jsxText _⟩ | ⟨.identifier _⟩ | ⟨.literal _⟩ => rfl
  | ⟨.jsxElement name attributes children _⟩ => by
    rw [reread, toEstree, toEstree, toEstree_reread name, listToEstree_rereadItems attributes,
      listToEstree_rereadItems children]
  | ⟨.jsxAttribute name none⟩ => by
    rw [reread, toEstree, toEstree, toEstree_reread name]
  | ⟨.jsxAttribute name (some value)⟩ => by
    rw [reread, toEstree, toEstree, toEstree_reread name, toEstree_reread value]
  | ⟨.jsxSpreadAttribute inner⟩ | ⟨.jsxContainer inner⟩ | ⟨.spread inner⟩ => by
    rw [reread, toEstree, toEstree, toEstree_reread inner]
  | ⟨.jsxMember first second⟩ | ⟨.property first second _ _ _ _⟩ | ⟨.member first second _ _⟩ => by
    rw [reread, toEstree, toEstree, toEstree_reread first, toEstree_reread second]
  | ⟨.object items⟩ | ⟨.array items⟩ => by
    rw [reread, toEstree, toEstree, listToEstree_rereadItems items]
  | ⟨.call callee arguments _⟩ => by
    rw [reread, toEstree, toEstree, toEstree_reread callee, listToEstree_rereadItems arguments]
  | ⟨.generic _ fields⟩ => by
    rw [reread, toEstree, toEstree, fieldsToEstree_rereadFields fields]
termination_by structural term => term

theorem listToEstree_rereadItems : ∀ items : List Term,
    listToEstree (rereadItems items) = listToEstree items
  | [] => rfl
  | item :: rest => by
    rw [rereadItems, listToEstree, listToEstree, toEstree_reread item,
      listToEstree_rereadItems rest]

theorem fieldsToEstree_rereadFields : ∀ fields : List (String × Field Term (List Term)),
    fieldsToEstree (rereadFields fields) = fieldsToEstree fields
  | [] => rfl
  | (key, .node child) :: rest => by
    have here := toEstree_reread child
    have later := fieldsToEstree_rereadFields rest
    rw [rereadFields]
    cases absent : child.isHole with
    | true =>
      rw [if_pos rfl, fieldsToEstree, fieldsToEstree, later, eq_hole_of_isHole absent]
      rfl
    | false => rw [if_neg Bool.false_ne_true, fieldsToEstree, fieldsToEstree, later, here]
  | (key, .list children) :: rest => by
    have here := listToEstree_rereadItems children
    have later := fieldsToEstree_rereadFields rest
    rw [rereadFields]
    by_cases absent : children.all isHole
    · rw [if_pos absent, fieldsToEstree, fieldsToEstree, later]
    · rw [if_neg absent, fieldsToEstree, fieldsToEstree, later, here]
  | (key, .value json) :: rest => by
    rw [rereadFields, fieldsToEstree, fieldsToEstree, fieldsToEstree_rereadFields rest]

end

/-! ## Reading what is written -/

theorem isNull_toEstree (term : Term) : term.toEstree.isNull = term.isHole := by
  obtain ⟨node⟩ := term
  cases node with
  | jsxAttribute _ value => cases value <;> rfl
  | _ => rfl

/-- A generic node is written as an object that starts with its kind. -/
theorem exists_toEstree_generic {kind : String} {fields : List (String × Field Term (List Term))}
    (untyped : "type" ∉ fields.map Prod.fst) :
    ∃ collected, toEstree ⟨.generic kind fields⟩ = .object (("type", .string kind) :: collected) ∧
      Json.Collects (fieldsToEstree fields) collected := by
  have absent : ("type", Json.string kind).1 ∉ (fieldsToEstree fields).map Prod.fst := by
    rw [map_fst_fieldsToEstree]
    exact untyped
  exact Json.exists_ofMembers_cons absent

/-- A legible term is written as a node object, unless it is absent. -/
theorem isNode_toEstree {keyed : Prop} {term : Term} (legible : Legible keyed term) :
    Estree.isNode term.toEstree = !term.isHole := by
  obtain ⟨node⟩ := term
  cases node with
  | jsxAttribute _ value => cases value <;> rfl
  | generic kind fields =>
    obtain ⟨_, written, _⟩ := exists_toEstree_generic legible.untyped
    rw [written]
    rfl
  | _ => rfl

/-- The documents of legible terms are a sequence of nodes, unless all of the terms
are absent. -/
theorem isNodeList_listToEstree {keyed : Prop} {terms : List Term}
    (legible : ∀ term ∈ terms, Legible keyed term) :
    Estree.isNodeList (listToEstree terms) = !terms.all isHole := by
  have nodes : (listToEstree terms).any Estree.isNode = !terms.all isHole := by
    induction terms with
    | nil => rfl
    | cons term rest ih =>
      rw [List.forall_mem_cons] at legible
      rw [listToEstree, List.any_cons, ih legible.2, isNode_toEstree legible.1, List.all_cons,
        Bool.not_and]
  have each : (listToEstree terms).all (fun item => item.isNull || Estree.isNode item) = true := by
    rw [listToEstree_eq_map, List.all_map, List.all_eq_true]
    intro term mem
    simp [isNode_toEstree (legible term mem), isNull_toEstree]
  rw [Estree.isNodeList, nodes, each, Bool.and_true]

end Term

namespace Estree

open Term

theorem readList_listToEstree {terms : List Term}
    (each : ∀ term ∈ terms, read term.toEstree = .ok term.reread) :
    readList (listToEstree terms) = .ok (rereadItems terms) := by
  induction terms with
  | nil => rfl
  | cons term rest ih =>
    rw [List.forall_mem_cons] at each
    rw [listToEstree, readList, each.1, ih each.2, rereadItems]
    rfl

theorem readField_of_isData {value : Json} (data : IsData value) :
    readField value = .ok (.value value) := by
  cases value with
  | array items =>
    change (if isNodeList items then _ else _) = _
    rw [data.notSequence items rfl]
    rfl
  | object members => exact if_neg (by simp [data.notNode])
  | _ => rfl

/-- A field of a legible generic node is read again from what it is written as. -/
theorem readField_fieldToEstree {field : Field Term (List Term)}
    (data : IsDataField field)
    (legible : ∀ inner ∈ field.children, Legible True inner)
    (reads : ∀ inner ∈ field.children, read inner.toEstree = .ok inner.reread) :
    readField (fieldToEstree field) = .ok (rereadField field) := by
  cases field with
  | node child =>
    have node := isNode_toEstree (legible child List.mem_cons_self)
    rw [fieldToEstree, rereadField]
    cases absent : child.isHole with
    | true =>
      rw [eq_hole_of_isHole absent]
      rfl
    | false =>
      rw [absent, Bool.not_false] at node
      unfold readField
      rw [if_pos node, reads child List.mem_cons_self]
      rfl
  | list children =>
    have sequence := isNodeList_listToEstree legible
    change (if isNodeList (listToEstree children) then _ else _) = _
    rw [Field.children] at sequence reads
    rw [rereadField, sequence, readList_listToEstree reads]
    cases children.all isHole <;> rfl
  | value json => exact readField_of_isData data

/-- The fields of a legible generic node are read again from what they are written
as. -/
theorem readFields_fieldsToEstree {fields : List (String × Field Term (List Term))}
    (untyped : "type" ∉ fields.map Prod.fst)
    (data : ∀ field ∈ fields, IsDataField field.2)
    (legible : ∀ field ∈ fields, ∀ inner ∈ field.2.children, Legible True inner)
    (reads : ∀ field ∈ fields, ∀ inner ∈ field.2.children,
      read inner.toEstree = .ok inner.reread) :
    readFields (fieldsToEstree fields) = .ok (rereadFields fields) := by
  rw [fieldsToEstree_eq_map, rereadFields_eq_map]
  induction fields with
  | nil => rfl
  | cons first rest ih =>
    obtain ⟨key, field⟩ := first
    rw [List.forall_mem_cons] at data legible reads
    rw [List.map_cons, List.mem_cons, not_or] at untyped
    obtain ⟨differs, untyped⟩ := untyped
    rw [List.map_cons, readFields_cons (Ne.symm differs),
      readField_fieldToEstree data.1 legible.1 reads.1, ih untyped data.2 legible.2 reads.2]
    rfl

/-- A legible term is read again from what it is written as. -/
theorem read_toEstree {term : Term} (legible : term.Everywhere (Legible True)) :
    read term.toEstree = .ok term.reread := by
  induction term using Term.induction with
  | mk node ih =>
    obtain ⟨here, inside⟩ := everywhere_mk.mp legible
    have each : ∀ inner ∈ node.children, read inner.toEstree = .ok inner.reread :=
      fun inner mem => ih inner mem (inside inner mem)
    cases node with
    | generic kind fields =>
      -- With different keys, the members are written one after another.
      have distinct :
          ((("type", Json.string kind) :: fieldsToEstree fields).map Prod.fst).Nodup := by
        rw [List.map_cons, map_fst_fieldsToEstree]
        exact List.nodup_cons.mpr ⟨here.untyped, here.distinct trivial⟩
      have generic : IsGeneric kind
          ((("type", Json.string kind) :: fieldsToEstree fields).map Prod.fst) := by
        rw [List.map_cons, map_fst_fieldsToEstree, isGeneric_cons_type]
        exact here.generic
      have readsFields : readFields (fieldsToEstree fields) = .ok (rereadFields fields) := by
        refine readFields_fieldsToEstree here.untyped here.data ?_ ?_
        · intro field mem inner memField
          exact inside inner (Node.mem_children_generic.mpr ⟨field, mem, memField⟩) inner .here
        · intro field mem inner memField
          exact each inner (Node.mem_children_generic.mpr ⟨field, mem, memField⟩)
      rw [toEstree, Json.ofMembers_of_nodup distinct, read_of_isGeneric rfl generic,
        readFields_type, readsFields]
      rfl
    -- A node of another kind is read by reading its children one after another.
    | jsxElement name attributes children selfClosing =>
      have readName := each name (by simp [Node.children, Node.edges])
      have readAttributes : readList (listToEstree attributes) = _ :=
        readList_listToEstree fun item mem => each item (by simp [Node.children, Node.edges, mem])
      have readChildren : readList (listToEstree children) = _ :=
        readList_listToEstree fun item mem => each item (by simp [Node.children, Node.edges, mem])
      change ((read name.toEstree >>= fun _ =>
        readList (listToEstree attributes) >>= fun _ => _) >>= fun _ =>
          readList (listToEstree children) >>= _) = _
      rw [readName, readAttributes, readChildren]
      rfl
    | jsxAttribute name value =>
      cases value with
      | none =>
        have readName := each name (by simp [Node.children, Node.edges])
        change read name.toEstree >>= _ = _
        rw [readName]
        rfl
      | some value =>
        have readName := each name (by simp [Node.children, Node.edges])
        have readValue : readOptional "value" [("value", value.toEstree)] =
            .ok (some value.reread) := by
          have present : value.toEstree.isNull = false := (isNull_toEstree value).trans here
          rw [readOptional, if_pos rfl, present,
            each value (by simp [Node.children, Node.edges])]
          rfl
        change (read name.toEstree >>= fun _ =>
          readOptional "value" [("value", value.toEstree)] >>= _) = _
        rw [readName, readValue]
        rfl
    | jsxMember first second | member first second _ _ =>
      have readFirst := each first (by simp [Node.children, Node.edges])
      have readSecond := each second (by simp [Node.children, Node.edges])
      change (read first.toEstree >>= fun _ => read second.toEstree >>= _) = _
      rw [readFirst, readSecond]
      rfl
    | property key value kind method shorthand computed =>
      have readKey := each key (by simp [Node.children, Node.edges])
      have readValue := each value (by simp [Node.children, Node.edges])
      have readKind : propertyKindField [("kind", .string kind.name)] = .ok kind := by
        cases kind <;> rfl
      change (propertyKindField [("kind", .string kind.name)] >>= fun _ =>
        read key.toEstree >>= fun _ => read value.toEstree >>= _) = _
      rw [readKind, readKey, readValue]
      rfl
    | call callee arguments optional =>
      have readCallee := each callee (by simp [Node.children, Node.edges])
      have readArguments : readList (listToEstree arguments) = _ :=
        readList_listToEstree fun item mem => each item (by simp [Node.children, Node.edges, mem])
      change (read callee.toEstree >>= fun _ => readList (listToEstree arguments) >>= _) = _
      rw [readCallee, readArguments]
      rfl
    | object items | array items =>
      have readItems : readList (listToEstree items) = _ :=
        readList_listToEstree fun item mem => each item (by simpa [Node.children, Node.edges])
      change readList (listToEstree items) >>= _ = _
      rw [readItems]
      rfl
    | jsxSpreadAttribute argument | jsxContainer argument | spread argument =>
      have readArgument := each argument (by simp [Node.children, Node.edges])
      change read argument.toEstree >>= _ = _
      rw [readArgument]
      rfl
    | literal value => cases value <;> rfl
    | hole | jsxIdentifier | jsxText | identifier => rfl

end Estree

end JsxFactory
