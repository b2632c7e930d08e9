/-
# Running again on the code

The code that a run writes for a document is itself a document, and a run on it
writes the same code, character for character, whatever the options are. The
second run starts from a tree of another form than the one the code was written
for: what is absent there may be left out here, and a sequence without nodes is
plain data. But the two are written alike, and there is no markup left in either.

What has to be carried along is that a term can be written faithfully: its generic
nodes keep to the rules by which they are read, and its numbers are whole. A term
is sound if that is so throughout. Soundness comes from the document, and neither
desugaring nor writing spoils it.
-/

import JsxFactory.CommandLine.Prepared
import JsxFactory.Proofs.Plain
import JsxFactory.Proofs.Printing
import JsxFactory.Proofs.Routes

namespace JsxFactory

open Edge (Alike)
open Estree (IsData IsGeneric)

/-! ## Sound nodes -/

section Fields

variable {α β γ δ : Type} {kind : String} {fields : List (String × Field α β)}

/-- The fields of a generic node that can be written and read again. -/
structure SoundFields (kind : String) (fields : List (String × Field α β)) : Prop where
  generic : IsGeneric kind (fields.map Prod.fst)
  distinct : ("type" :: fields.map Prod.fst).Nodup
  data : ∀ key value, (key, Field.value value) ∈ fields → IsData value ∧ value.Faithful

theorem map_fst_fillFields {others : List (Edge γ δ)}
    (alike : Alike (Node.fieldEdges fields) others) :
    (Node.fillFields fields others).map Prod.fst = fields.map Prod.fst := by
  induction fields generalizing others with
  | nil => rfl
  | cons head rest ih =>
    obtain ⟨key, _ | _ | _⟩ := head
    · rcases alike with _ | alike | _
      exact congrArg (key :: ·) (ih alike)
    · rcases alike with _ | _ | alike
      exact congrArg (key :: ·) (ih alike)
    · simpa only [Node.fillFields, List.map_cons] using congrArg (key :: ·) (ih alike)

theorem value_mem_fillFields {others : List (Edge γ δ)} {key : String} {value : Json}
    (alike : Alike (Node.fieldEdges fields) others) :
    (key, Field.value value) ∈ Node.fillFields fields others ↔
      (key, Field.value value) ∈ fields := by
  induction fields generalizing others with
  | nil => simp [Node.fillFields]
  | cons head rest ih =>
    obtain ⟨other, _ | _ | _⟩ := head
    · rcases alike with _ | alike | _
      simpa [Node.fillFields] using ih alike
    · rcases alike with _ | _ | alike
      simpa [Node.fillFields] using ih alike
    · simp [Node.fillFields, ih alike]

end Fields

namespace Node

variable {α β γ δ : Type} {node : Node α β}

/-- Whether what a node holds besides its children can be written and read again. -/
def Sound (node : Node α β) : Prop :=
  match node.shape with
  | .literal value => value.toJson.Faithful
  | .generic kind fields => SoundFields kind fields
  | _ => True

theorem sound_fill {others : List (Edge γ δ)} (alike : Alike node.edges others) :
    (node.fill others).Sound ↔ node.Sound := by
  rw [Sound, shape_fill alike]
  rfl

theorem children_jsxElement (name : α) (attributes children : List α) (selfClosing : Bool) :
    (jsxElement name attributes children selfClosing).children =
      name :: (attributes ++ children) := by
  simp [Node.children, edges]

theorem children_call (callee : α) (arguments : List α) (optional : Bool) :
    (call callee arguments optional).children = callee :: arguments := by
  simp [Node.children, edges]

theorem sound_jsxAttribute (name : α) (value : Option α) :
    (jsxAttribute name value : Node α β).Sound := by
  cases value <;> trivial

theorem sound_generic_iff {kind : String} {fields : List (String × Field α β)} :
    (generic kind fields).Sound ↔ SoundFields kind fields := by
  have alike := Edge.alike_map_shape (fieldEdges fields)
  have keys := map_fst_fillFields alike
  constructor
  · intro sound
    refine ⟨keys ▸ sound.generic, keys ▸ sound.distinct, fun key value mem => ?_⟩
    exact sound.data key value ((value_mem_fillFields alike).mpr mem)
  · intro sound
    refine ⟨keys ▸ sound.generic, keys ▸ sound.distinct, fun key value mem => ?_⟩
    exact sound.data key value ((value_mem_fillFields alike).mp mem)

end Node

namespace Term

variable {options : Options} {term result : Term} {node entered : Node Term (List Term)}

/-- Whether each node in a term is sound. -/
def Sound (term : Term) : Prop :=
  term.Everywhere fun inner => inner.node.Sound

theorem sound_mk :
    Sound ⟨node⟩ ↔ node.Sound ∧ ∀ inner ∈ node.children, Sound inner :=
  everywhere_mk

/-! ## Sound terms are written faithfully -/

theorem legibleFields_of_sound {kind : String} {fields : List (String × Field Term (List Term))}
    (sound : SoundFields kind fields) : LegibleFields True kind fields := by
  obtain ⟨untyped, nodup⟩ := List.nodup_cons.mp sound.distinct
  refine ⟨sound.generic, untyped, fun _ => nodup, ?_⟩
  rintro ⟨key, field⟩ mem
  cases field with
  | value value => exact (sound.data key value mem).1
  | _ => trivial

theorem faithful_generic {kind : String} {fields : List (String × Field Term (List Term))}
    (sound : SoundFields kind fields)
    (each : ∀ inner ∈ (Node.generic kind fields).children, inner.toEstree.Faithful) :
    (toEstree ⟨.generic kind fields⟩).Faithful := by
  have distinct : ((("type", Json.string kind) :: fieldsToEstree fields).map Prod.fst).Nodup := by
    rw [List.map_cons, map_fst_fieldsToEstree]
    exact sound.distinct
  rw [toEstree, Json.ofMembers_of_nodup distinct]
  refine .object distinct (List.forall_mem_cons.mpr ⟨.string kind, ?_⟩)
  rw [fieldsToEstree_eq_map, List.forall_mem_map]
  rintro ⟨key, field⟩ mem
  have inside : ∀ inner ∈ field.children, inner.toEstree.Faithful := fun inner memField =>
    each inner (Node.mem_children_generic.mpr ⟨(key, field), mem, memField⟩)
  cases field with
  | node child => exact inside child List.mem_cons_self
  | list children =>
    apply Json.Faithful.array
    rw [listToEstree_eq_map]
    exact List.forall_mem_map.mpr inside
  | value value => exact (sound.data key value mem).2

/-- What a sound term is written as is given back by its text. -/
theorem Sound.faithful_toEstree (sound : term.Sound) : term.toEstree.Faithful := by
  induction term using Term.induction with
  | mk node ih =>
    obtain ⟨here, inside⟩ := sound_mk.mp sound
    have each : ∀ inner ∈ node.children, inner.toEstree.Faithful :=
      fun inner mem => ih inner mem (inside inner mem)
    cases node with
    | generic kind fields => exact faithful_generic (Node.sound_generic_iff.mp here) each
    | hole => exact .null
    | jsxElement name attributes children selfClosing =>
      rw [Node.children_jsxElement, List.forall_mem_cons, List.forall_mem_append] at each
      obtain ⟨writesName, writesAttributes, writesChildren⟩ := each
      cases selfClosing <;>
        simpa [toEstree, nodeObject, openingObject, closingObject, listToEstree_eq_map, writesName]
          using ⟨writesAttributes, writesChildren⟩
    | literal value =>
      have written : value.toJson.Faithful := here
      simpa [toEstree, nodeObject] using written
    | jsxAttribute name value =>
      cases value <;> simpa [toEstree, nodeObject, Node.children, Node.edges] using each
    | jsxIdentifier | jsxText | identifier => simp [toEstree, nodeObject]
    | _ =>
      simpa [toEstree, nodeObject, listToEstree_eq_map, Node.children, Node.edges] using each

end Term

/-! ## Sound terms come from faithful documents -/

namespace Estree

open Term (ok_of_bind)

theorem faithful_of_literalField {members : List (String × Json)} {value : Primitive}
    (faithful : (Json.object members).Faithful) (accepted : literalField members = .ok value) :
    value.toJson.Faithful := by
  unfold literalField at accepted
  split at accepted
  next => cases accepted
  next json found =>
    obtain ⟨before, after, rfl, _⟩ := List.lookup_eq_some_iff.mp found
    have inside : json.Faithful :=
      (Json.faithful_object_iff.mp faithful).2 ("value", json) (by simp)
    cases json with
    | array | object => cases accepted
    | _ =>
      cases accepted
      exact inside

/-- A node that is read from a faithful document is sound. -/
theorem sound_of_read {document : Json} {node : Node Term (List Term)}
    (faithful : document.Faithful) (accepted : read document = .ok ⟨node⟩) : node.Sound := by
  cases document with
  | null =>
    cases accepted
    trivial
  | object members =>
    rw [read] at accepted
    cases tagged : tag? members with
    | none =>
      rw [tagged] at accepted
      cases accepted
    | some tag =>
      simp only [tagged] at accepted
      cases kind : Kind.of tag members <;> simp only [kind] at accepted
      case generic =>
        obtain ⟨fields, readMembers, same⟩ := ok_of_bind accepted
        cases same
        have legible : Term.LegibleFields True tag fields :=
          legibleFields_of_readFields kind (fun _ => faithful.keyed) readMembers
        refine Node.sound_generic_iff.mpr ⟨legible.generic,
          List.nodup_cons.mpr ⟨legible.untyped, legible.distinct trivial⟩, fun key value mem => ?_⟩
        obtain ⟨source, memMembers, readValue⟩ := mem_of_readFields readMembers mem
        rcases readField_cases readValue with ⟨_, ⟨⟩, _⟩ | ⟨_, _, ⟨⟩, _⟩ | ⟨⟨⟩, data⟩
        exact ⟨data, (Json.faithful_object_iff.mp faithful).2 (key, value) memMembers⟩
      case literal =>
        obtain ⟨value, readValue, same⟩ := ok_of_bind accepted
        cases same
        exact faithful_of_literalField faithful readValue
      case jsxAttribute =>
        obtain ⟨_, _, accepted⟩ := ok_of_bind accepted
        obtain ⟨_, _, same⟩ := ok_of_bind accepted
        cases same
        exact Node.sound_jsxAttribute _ _
      case jsxElement =>
        obtain ⟨⟨_, _, _⟩, _, accepted⟩ := ok_of_bind accepted
        obtain ⟨_, _, same⟩ := ok_of_bind accepted
        cases same
        trivial
      -- The others hold nothing but their children, names and flags.
      all_goals
        repeat obtain ⟨_, _, accepted⟩ := ok_of_bind accepted
        cases accepted
        trivial
  | _ => cases accepted

theorem everywhere_sound_of_read {document : Json} {term : Term} (faithful : document.Faithful)
    (accepted : read document = .ok term) : term.Sound := by
  induction term using Term.induction generalizing document with
  | mk node ih =>
    refine Term.sound_mk.mpr ⟨sound_of_read faithful accepted, fun inner mem => ?_⟩
    obtain ⟨_, children⟩ := legible_of_read (fun _ : True => faithful.keyed) accepted
    obtain ⟨part, inside, accepted⟩ := children inner mem
    exact ih inner mem (faithful.of_inside inside) accepted

end Estree

/-! ## Desugaring keeps terms sound -/

namespace Term

variable {options : Options} {term result : Term} {node entered : Node Term (List Term)}

theorem sound_leaf (sound : node.Sound) (childless : node.edges = []) : Sound ⟨node⟩ := by
  rw [sound_mk, Node.children, childless]
  exact ⟨sound, by simp⟩

theorem sound_spelled (quoted : Bool) (name : String) : (spelled quoted name).Sound := by
  cases quoted with
  | true => exact sound_leaf (Json.Faithful.string name) rfl
  | false => exact sound_leaf trivial rfl

theorem Sound.tagArgument {name : Term} (sound : name.Sound) :
    (tagArgument options name name).Sound := by
  obtain ⟨node⟩ := name
  cases node with
  | jsxIdentifier | identifier => exact sound_spelled _ _
  | _ => exact sound

theorem Sound.propertyKey {key : Term} (sound : key.Sound) : (propertyKey options key).Sound := by
  obtain ⟨node⟩ := key
  cases node with
  | jsxIdentifier => exact sound_spelled _ _
  | _ => exact sound

theorem Sound.entryProperty {entry : Term} (sound : entry.Sound) :
    (entryProperty options entry).Sound := by
  obtain ⟨node⟩ := entry
  cases node with
  | jsxAttribute key value =>
    obtain ⟨_, inside⟩ := sound_mk.mp sound
    have soundKey : (Term.propertyKey options key).Sound :=
      (inside key (by cases value <;> simp [Node.children, Node.edges])).propertyKey
    have soundValue : (value.getD trueValue).Sound := by
      cases value with
      | none => exact sound_leaf (Json.Faithful.bool true) rfl
      | some value => exact inside value (by simp [Node.children, Node.edges])
    refine sound_mk.mpr ⟨trivial, ?_⟩
    simpa [Node.children, Node.edges, Node.plainProperty] using ⟨soundKey, soundValue⟩
  | jsxSpreadAttribute argument => exact sound_mk.mpr ⟨trivial, (sound_mk.mp sound).2⟩
  | _ => exact sound

theorem sound_attributesArgument {properties : List Term}
    (sound : ∀ property ∈ properties, property.Sound) : (attributesArgument properties).Sound := by
  cases properties with
  | nil => exact sound_leaf Json.Faithful.null rfl
  | cons first rest =>
    refine sound_mk.mpr ⟨trivial, ?_⟩
    simpa [Node.children, Node.edges] using sound

theorem sound_childrenArgument {children : List Term} (sound : ∀ child ∈ children, child.Sound) :
    ∀ argument ∈ childrenArgument children children, argument.Sound := by
  cases children with
  | nil => simp [childrenArgument]
  | cons first rest =>
    have array : Sound ⟨.array (first :: rest)⟩ := by
      refine sound_mk.mpr ⟨trivial, ?_⟩
      simpa [Node.children, Node.edges] using sound
    exact List.forall_mem_singleton.mpr array

/-- What stands in place of a sound term after entering it is sound. -/
theorem Sound.enter (sound : term.Sound) (enters : enter options term = pure entered) :
    Sound ⟨entered⟩ := by
  obtain ⟨node⟩ := term
  obtain ⟨here, inside⟩ := sound_mk.mp sound
  cases node with
  | jsxElement name attributes children selfClosing =>
    obtain ⟨_, _, rest⟩ := ok_of_bind enters
    obtain ⟨_, _, call⟩ := ok_of_bind rest
    cases call
    rw [Node.children_jsxElement, List.forall_mem_cons, List.forall_mem_append] at inside
    obtain ⟨soundName, soundAttributes, soundChildren⟩ := inside
    have callee : (identifier options.factory).Sound := sound_leaf trivial rfl
    have properties : ∀ property ∈ attributes.map (Term.entryProperty options), property.Sound :=
      List.forall_mem_map.mpr fun entry mem => (soundAttributes entry mem).entryProperty
    refine sound_mk.mpr ⟨trivial, ?_⟩
    rw [factoryCall, Node.children_call, List.forall_mem_cons, List.forall_mem_cons,
      List.forall_mem_cons]
    exact ⟨callee, soundName.tagArgument, sound_attributesArgument properties,
      sound_childrenArgument soundChildren⟩
  | jsxContainer expression =>
    obtain ⟨inner⟩ := expression
    rw [Term.enter] at enters
    split_ifs at enters
    · cases enters
      exact inside ⟨inner⟩ (by simp [Node.children, Node.edges])
    · cases enters
  | jsxText value =>
    cases enters
    split_ifs
    · exact sound_leaf trivial rfl
    · exact sound_leaf (Json.Faithful.string _) rfl
  | generic kind fields =>
    rw [Term.enter] at enters
    split_ifs at enters
    · cases enters
    · cases enters
      exact sound
  | jsxIdentifier | jsxMember =>
    cases enters
    exact sound_mk.mpr ⟨trivial, inside⟩
  | _ =>
    cases enters
    exact sound

/-- A sound term is desugared to a sound one. -/
theorem Sound.desugar (sound : term.Sound) (succeeds : term.desugar options = pure result) :
    result.Sound := by
  induction term using induction_enter options generalizing result with
  | step term ih =>
    obtain ⟨entered, parts, enters, alike, rfl, come⟩ := desugar_ok succeeds
    obtain ⟨here, inside⟩ := sound_mk.mp (sound.enter enters)
    refine sound_mk.mpr ⟨(Node.sound_fill alike).mpr here, ?_⟩
    -- As for plain nodes, a child of the result comes from a child of the entered node.
    intro inner mem
    obtain ⟨item, memItems, desugars⟩ := come.origin inner mem
    exact ih entered enters item memItems (inside item memItems) desugars

/-! ## What is plain and sound is read again -/

/-- Children and sequences that are written alike, one by one. -/
inductive WrittenAlike : List Part → List Part → Prop
  | nil : WrittenAlike [] []
  | node {child other : Term} {parts others : List Part} : child.toEstree = other.toEstree →
    WrittenAlike parts others → WrittenAlike (.node child :: parts) (.node other :: others)
  | list {children other : List Term} {parts others : List Part} :
    listToEstree children = listToEstree other → WrittenAlike parts others →
    WrittenAlike (.list children :: parts) (.list other :: others)

theorem WrittenAlike.alike {parts others : List Part} (written : WrittenAlike parts others) :
    Alike parts others := by
  induction written with
  | nil => exact .nil
  | node _ _ ih => exact .node ih
  | list _ _ ih => exact .list ih

theorem fieldsToEstree_fillFields {fields : List (String × Field Term (List Term))}
    {others : List Part} (written : WrittenAlike (Node.fieldEdges fields) others) :
    fieldsToEstree (Node.fillFields fields others) = fieldsToEstree fields := by
  induction fields generalizing others with
  | nil => rfl
  | cons head rest ih =>
    obtain ⟨key, _ | _ | _⟩ := head
    · rcases written with _ | ⟨same, written⟩ | _
      rw [Node.fillFields, fieldsToEstree, fieldsToEstree, ih written, same]
    · rcases written with _ | _ | ⟨same, written⟩
      rw [Node.fillFields, fieldsToEstree, fieldsToEstree, ih written, same]
    · simp only [Node.fillFields, fieldsToEstree]
      rw [ih written]

/-- How a node is written depends on how its children are written. -/
theorem toEstree_fill {others : List Part} (written : WrittenAlike node.edges others) :
    toEstree ⟨node.fill others⟩ = toEstree ⟨node⟩ := by
  cases node with
  | generic kind fields =>
    rw [Node.fill, toEstree, toEstree, fieldsToEstree_fillFields written]
  | jsxAttribute name value =>
    cases value <;> simp only [Node.edges] at written <;> (repeat cases ‹WrittenAlike _ _›) <;>
      simp only [Node.fill, toEstree, *]
  | _ =>
    simp only [Node.edges] at written
    repeat cases ‹WrittenAlike _ _›
    simp only [Node.fill, toEstree, *]

section Alternatives

variable {Good : Term → Prop}

theorem exists_items {items : List Term}
    (each : ∀ item ∈ items, ∃ other, other.toEstree = item.toEstree ∧ Good other) :
    ∃ others, listToEstree items = listToEstree others ∧ ∀ other ∈ others, Good other := by
  induction items with
  | nil => exact ⟨[], rfl, by simp⟩
  | cons item rest ih =>
    rw [List.forall_mem_cons] at each
    obtain ⟨other, same, good⟩ := each.1
    obtain ⟨others, sameRest, goodRest⟩ := ih each.2
    refine ⟨other :: others, ?_, List.forall_mem_cons.mpr ⟨good, goodRest⟩⟩
    rw [listToEstree, listToEstree, same, sameRest]

theorem exists_parts {parts : List Part}
    (each : ∀ inner ∈ parts.flatMap Edge.items,
      ∃ other, other.toEstree = inner.toEstree ∧ Good other) :
    ∃ others, WrittenAlike parts others ∧ ∀ inner ∈ others.flatMap Edge.items, Good inner := by
  induction parts with
  | nil => exact ⟨[], .nil, by simp⟩
  | cons part rest ih =>
    rw [List.flatMap_cons, List.forall_mem_append] at each
    obtain ⟨others, written, good⟩ := ih each.2
    cases part with
    | node child =>
      obtain ⟨other, same, goodOther⟩ := each.1 child List.mem_cons_self
      refine ⟨.node other :: others, .node same.symm written, ?_⟩
      rw [List.flatMap_cons, List.forall_mem_append]
      exact ⟨List.forall_mem_singleton.mpr goodOther, good⟩
    | list children =>
      obtain ⟨other, same, goodOther⟩ := exists_items each.1
      refine ⟨.list other :: others, .list same written, ?_⟩
      rw [List.flatMap_cons, List.forall_mem_append]
      exact ⟨goodOther, good⟩

end Alternatives

/-- Only an attribute with an absent value is sound without being legible. -/
theorem legible_or_absent (sound : node.Sound) :
    Legible True ⟨node⟩ ∨ ∃ name, node = .jsxAttribute name (some hole) := by
  cases node with
  | generic kind fields => exact .inl (legibleFields_of_sound (Node.sound_generic_iff.mp sound))
  | jsxAttribute name value =>
    cases value with
    | none => exact .inl trivial
    | some value =>
      cases absent : value.isHole with
      | true => exact .inr ⟨name, by rw [eq_hole_of_isHole absent]⟩
      | false => exact .inl absent
  | _ => exact .inl trivial

/-- A term that is sound and plain is written like one that is legible and plain.
They differ in attributes whose value is absent: the value is left out. -/
theorem Sound.exists_legible (sound : term.Sound)
    (plain : term.Everywhere fun inner => inner.node.Plain) :
    ∃ other : Term, other.toEstree = term.toEstree ∧ other.Everywhere (Legible True) ∧
      other.Everywhere fun inner => inner.node.Plain := by
  induction term using Term.induction with
  | mk node ih =>
    obtain ⟨here, inside⟩ := sound_mk.mp sound
    obtain ⟨plainHere, plainInside⟩ := everywhere_mk.mp plain
    obtain ⟨others, written, good⟩ := exists_parts fun inner mem =>
      ih inner mem (inside inner mem) (plainInside inner mem)
    have alike := written.alike
    have same := toEstree_fill written
    have soundOther := (Node.sound_fill alike).mpr here
    have plainOther := (Node.plain_fill alike).mpr plainHere
    rw [← Node.edges_fill alike] at good
    generalize node.fill others = other at same soundOther plainOther good
    rcases legible_or_absent soundOther with legible | ⟨name, rfl⟩
    · exact ⟨⟨other⟩, same, everywhere_mk.mpr ⟨legible, fun inner mem => (good inner mem).1⟩,
        everywhere_mk.mpr ⟨plainOther, fun inner mem => (good inner mem).2⟩⟩
    · have goodName := good name (by simp [Node.edges])
      refine ⟨⟨.jsxAttribute name none⟩, same, everywhere_mk.mpr ⟨trivial, ?_⟩,
        everywhere_mk.mpr ⟨trivial, ?_⟩⟩
      · simpa [Node.children, Node.edges] using goodName.1
      · simpa [Node.children, Node.edges] using goodName.2

end Term

/-! ## Runs -/

namespace Tree

/-- A document that a sound and plain term is written as is read, desugared and
written as it was. -/
theorem exists_of_sound {term : Term} (sound : term.Sound)
    (plain : term.Everywhere fun inner => inner.node.Plain) (options : Options) :
    ∃ t t', ofEstree term.toEstree = .ok t ∧ t.desugar options = .ok t' ∧
      t'.toEstree? = some term.toEstree := by
  obtain ⟨other, same, legible, plainOther⟩ := sound.exists_legible plain
  obtain ⟨_, owns⟩ := owns_ofTerm other
  obtain ⟨_, ownsAgain⟩ := owns_ofTerm other.reread
  obtain ⟨written, reads⟩ := owns.toEstree_reread legible
  have unchanged := owns.desugar_of_plain plainOther options
  -- The tree that is read is of another form, but what is desugared is written alike.
  have outcome := owns.sameOutcome ownsAgain options (Term.desugar_reread options other)
  rw [unchanged] at outcome
  rcases outcome with ⟨t, t', document, ⟨⟩, desugars, writtenFirst, writtenAgain⟩ | ⟨_, ⟨⟩, _⟩
  cases written.symm.trans writtenFirst
  rw [← same]
  exact ⟨_, t', reads, desugars, writtenAgain⟩

end Tree

namespace CommandLine

variable {language : Language} {source : String} {arguments : Arguments} {options : Options}

theorem run_eq (estree : arguments.estree = true) :
    run language source arguments = arguments.resolve.mapError .invalidOptions >>= fun options =>
      match documentTree source with
      | .error result => return result
      | .ok t => return emit arguments options t {} := by
  unfold run
  apply congrArg
  funext options
  exact if_pos estree

theorem errors_fail_ne_nil (result : Compilation) (message : String) :
    (result.fail message).errors ≠ [] :=
  List.append_ne_nil_of_right_ne_nil _ (List.cons_ne_nil _ _)

/-- A document from which there is a tree was parsed and read; where there is none,
an error says why. -/
theorem documentTree_cases (source : String) :
    (∃ document t, Json.parse source = .ok document ∧ Tree.ofEstree document = .ok t ∧
      documentTree source = .ok t) ∨
    ∃ message, documentTree source = .error (({} : Compilation).fail message) := by
  unfold documentTree
  cases parses : Json.parse source with
  | error => exact .inr ⟨_, rfl⟩
  | ok document =>
    dsimp only
    cases reads : Tree.ofEstree document with
    | error => exact .inr ⟨_, rfl⟩
    | ok t => exact .inl ⟨document, t, rfl, reads, rfl⟩

/-- Code is written for a tree that was desugared; where there is none, an error
says why. -/
theorem emit_cases (arguments : Arguments) (options : Options) (t : Tree) (result : Compilation) :
    (∃ t' written, t.desugar options = .ok t' ∧ t'.toEstree? = some written ∧
      emit arguments options t result =
        { result with code := written.render (layout arguments) }) ∨
    ∃ message, emit arguments options t result = result.fail message := by
  unfold emit
  cases desugars : t.desugar options with
  | error => exact .inr ⟨_, rfl⟩
  | ok t' =>
    dsimp only
    cases writes : t'.toEstree? with
    | none => exact .inr ⟨_, rfl⟩
    | some written => exact .inl ⟨t', written, rfl, writes, rfl⟩

/-- A run on a document that finds no error goes through all of its stages. -/
theorem exists_of_run {result : Compilation} (estree : arguments.estree = true)
    (runs : run language source arguments = .ok result) (clean : result.errors = []) :
    ∃ options document t t' written, Json.parse source = .ok document ∧
      Tree.ofEstree document = .ok t ∧ t.desugar options = .ok t' ∧
      t'.toEstree? = some written ∧ result = { code := written.render (layout arguments) } := by
  rw [run_eq estree] at runs
  obtain ⟨options, _, rest⟩ := Term.ok_of_bind runs
  rcases documentTree_cases source with ⟨document, t, parses, reads, tree⟩ | ⟨message, tree⟩
  · rw [tree] at rest
    cases rest
    rcases emit_cases arguments options t {} with
      ⟨t', written, desugars, writes, code⟩ | ⟨message, failed⟩
    · exact ⟨options, document, t, t', written, parses, reads, desugars, writes, code⟩
    · rw [failed] at clean
      exact absurd clean (errors_fail_ne_nil _ _)
  · rw [tree] at rest
    cases rest
    exact absurd clean (errors_fail_ne_nil _ _)

theorem run_of_stages {document written : Json} {t t' : Tree} (estree : arguments.estree = true)
    (resolves : arguments.resolve = .ok options) (parses : Json.parse source = .ok document)
    (reads : Tree.ofEstree document = .ok t) (desugars : t.desugar options = .ok t')
    (writes : t'.toEstree? = some written) :
    run language source arguments = .ok { code := written.render (layout arguments) } := by
  have tree : documentTree source = .ok t := by
    rw [documentTree, parses]
    simp only [reads]
  have code : emit arguments options t {} = { code := written.render (layout arguments) } := by
    rw [emit, desugars]
    simp only [writes]
  rw [run_eq estree, resolves, tree, ← code]
  rfl

/-- A run on the code of a run on a document writes the same code again, whatever
its options are: with the same layout and with whole numbers in the document, the
code is a fixed point. -/
theorem run_code (language : Language) (source : String) (arguments again : Arguments)
    (result : Compilation) (estree : arguments.estree = true)
    (runs : run language source arguments = .ok result) (clean : result.errors = [])
    (integral : ∀ document, Json.parse source = .ok document → document.Integral)
    (estreeAgain : again.estree = true) (sameLayout : again.compact = arguments.compact)
    (valid : ∃ options, again.resolve = .ok options) :
    run language result.code again = .ok { code := result.code } := by
  obtain ⟨options, document, t, t', written, parses, reads, desugars, writes, rfl⟩ :=
    exists_of_run estree runs clean
  have faithful : document.Faithful := (Json.Keyed.of_parse parses).faithful (integral _ parses)
  obtain ⟨term, accepted, rfl⟩ := Tree.ofEstree_ok_iff.mp reads
  obtain ⟨_, owns⟩ := Tree.owns_ofTerm term
  rcases owns.desugar_cases options with
    ⟨t'', desugared, new, desugars', expected, owns'⟩ | ⟨_, fails, _⟩
  · cases desugars.symm.trans desugars'
    cases writes.symm.trans owns'.toEstree?
    have sound := (Estree.everywhere_sound_of_read faithful accepted).desugar expected
    have plain := Term.everywhere_plain_of_desugar expected
    obtain ⟨optionsAgain, resolves⟩ := valid
    obtain ⟨first, second, readsAgain, desugarsAgain, writesAgain⟩ :=
      Tree.exists_of_sound sound plain optionsAgain
    have parsesAgain := Json.parse_render sound.faithful_toEstree (layout arguments)
    have layouts : layout again = layout arguments := by rw [layout, layout, sameLayout]
    rw [← layouts] at parsesAgain ⊢
    exact run_of_stages estreeAgain resolves parsesAgain readsAgain desugarsAgain writesAgain
  · cases desugars.symm.trans fails

/-- The document `[<a />, k="\n", 7]`, with an attribute outside of any tag. -/
def looseAttribute : Json :=
  .object [("type", .string "ArrayExpression"), ("elements", .array [
    .object [("type", .string "JSXElement"),
      ("openingElement", .object [
        ("name", .object [("type", .string "JSXIdentifier"), ("name", .string "a")]),
        ("attributes", .array [])]),
      ("children", .array [])],
    .object [("type", .string "JSXAttribute"),
      ("name", .object [("type", .string "JSXIdentifier"), ("name", .string "k")]),
      ("value", .object [("type", .string "JSXText"), ("value", .string "\n")])],
    .object [("type", .string "Literal"), ("value", .number (.integer 7))]])]

theorem run_code_looseAttribute :
    ∃ code, run .documents (looseAttribute.render .compact) { estree := true } =
        .ok { code := code } ∧
      run .documents code { estree := true, factory := some "f", noQuoteIntrinsic := true } =
        .ok { code := code } := by
  have faithful : looseAttribute.Faithful := by
    simp [looseAttribute, Json.Faithful.integer (show Number.FitsInteger 7 by decide)]
  have parses := Json.parse_render faithful .compact
  obtain ⟨term, accepted, result, expected⟩ : ∃ term, Estree.read looseAttribute = .ok term ∧
      ∃ result, term.desugar {} = .ok result := ⟨_, rfl, _, rfl⟩
  have reads : Tree.ofEstree looseAttribute = .ok (Tree.ofTerm term) :=
    Tree.ofEstree_ok_iff.mpr ⟨term, accepted, rfl⟩
  obtain ⟨t', new, desugars, owns⟩ := Tree.exists_desugar_ofTerm expected
  obtain ⟨code, first⟩ : ∃ code, run .documents (looseAttribute.render .compact)
      { estree := true } = .ok { code := code } :=
    ⟨_, run_of_stages rfl rfl parses reads desugars owns.toEstree?⟩
  have integral : ∀ document, Json.parse (looseAttribute.render .compact) = .ok document →
      document.Integral := by
    intro document again
    cases parses.symm.trans again
    exact faithful.integral
  refine ⟨code, first, ?_⟩
  exact run_code .documents (looseAttribute.render .compact) { estree := true }
    { estree := true, factory := some "f", noQuoteIntrinsic := true } { code := code } rfl first rfl
    integral rfl rfl ⟨_, rfl⟩

end CommandLine

end JsxFactory
