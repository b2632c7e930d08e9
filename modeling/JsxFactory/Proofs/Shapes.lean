/-
# The shapes of lowered programs

Lowering makes generic nodes of a fixed number of kinds, each with fixed fields, and
plain data in them is text, a truth value, nothing or the spelling of a piece of a
template. No kind is one that has a shape of its own, no field is named `type` and
none comes twice. So a lowered program is a term that may be read from a document.
-/

import JsxFactory.Proofs.Folding
import JsxFactory.Proofs.Reading

namespace JsxFactory.Program

open Estree (IsDataField)
open Term (Everywhere Legible everywhere_mk)

/-- What is asked of a lowered term in a role: it is legible all through, and where it is
not to be a hole it is none. -/
structure Role.Legible (role : Role) (term : Term) : Prop where
  everywhere : term.Everywhere (Term.Legible True)
  present : role = .solid → term.isHole = false

theorem IsFieldData.isDataField {json : Json} (data : IsFieldData json) :
    IsDataField (.value json) := by
  cases data <;> exact ⟨rfl, fun _ same => by cases same⟩

theorem of_mem_genericShapes : ∀ shape ∈ genericShapes,
    shape.1 ∉ Estree.dedicatedKinds ∧ "type" ∉ shape.2 ∧ shape.2.Nodup := by
  decide

section Fields

variable {P : Role → Term → Prop} {keys : List String}
  {fields others : List (String × Field Term (List Term))}

theorem FieldsRelated.map_fst (related : FieldsRelated (OneSided P) keys fields others) :
    fields.map Prod.fst = keys := by
  induction related with
  | nil => rfl
  | node _ _ ih | list _ _ ih | value _ _ ih => exact congrArg (_ :: ·) ih

theorem FieldsRelated.isDataField (related : FieldsRelated (OneSided P) keys fields others) :
    ∀ field ∈ fields, IsDataField field.2 := by
  induction related with
  | nil => simp
  | node _ _ ih | list _ _ ih => exact List.forall_mem_cons.mpr ⟨trivial, ih⟩
  | value data _ ih => exact List.forall_mem_cons.mpr ⟨data.isDataField, ih⟩

theorem FieldsRelated.legible {kind : String}
    (related : FieldsRelated (OneSided P) keys fields others)
    (shape : (kind, keys) ∈ genericShapes) :
    Term.LegibleFields True kind fields := by
  obtain ⟨generic, untyped, distinct⟩ := of_mem_genericShapes _ shape
  rw [← related.map_fst] at untyped distinct
  exact ⟨.inl generic, untyped, fun _ => distinct, related.isDataField⟩

end Fields

theorem NodesRelated.legible {role : Role} {node : Node Term (List Term)}
    (related : NodesRelated (OneSided Role.Legible) role node node) : role.Legible ⟨node⟩ := by
  have inside : ∀ inner ∈ node.children, inner.Everywhere (Legible True) := by
    intro inner mem
    obtain ⟨_, legible⟩ := related.forall_children inner mem
    exact legible.everywhere
  have here : Legible True ⟨node⟩ ∧ Term.isHole ⟨node⟩ = false := by
    cases related with
    | generic shape fields => exact ⟨fields.legible shape, rfl⟩
    | namespacedName =>
      refine ⟨⟨.inl (by decide), by simp, by simp, ?_⟩, rfl⟩
      simp [IsDataField]
    | empty => exact ⟨⟨.inl (by decide), by simp, by simp, by simp⟩, rfl⟩
    | plainAttribute _ value =>
      cases value with
      | none => exact ⟨trivial, rfl⟩
      | some value => exact ⟨value.present rfl, rfl⟩
    | _ => exact ⟨trivial, rfl⟩
  exact ⟨everywhere_mk.mpr ⟨here.1, inside⟩, fun _ => here.2⟩

theorem kept_legible : KeptByLowering Role.Legible where
  node := NodesRelated.legible
  array legible := by
    refine ⟨everywhere_mk.mpr ⟨trivial, fun inner mem => ?_⟩, fun _ => rfl⟩
    rw [Node.children_array] at mem
    exact (legible inner mem).everywhere
  hole := ⟨everywhere_mk.mpr ⟨trivial, by simp [Node.children, Node.edges]⟩, by simp⟩
  part legible := ⟨legible.everywhere, by simp⟩
  name legible := ⟨legible.everywhere, by simp⟩

/-- A lowered program is legible all through. -/
theorem everywhere_legible (program : Program) :
    program.lower.value.Everywhere (Term.Legible True) :=
  (kept_legible.lower program).everywhere

end JsxFactory.Program
