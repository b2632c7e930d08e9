/-
# Every element becomes its call

Each element of a tree is, in the desugared tree, the call that stands for it: in the same
place, with an entry for each attribute, and with the very sequence of its children, from
which only the indentation is gone. That the call is right when the element is entered is
known; here it is read from the tree at the start, and found untouched in the tree at the
end.
-/

import JsxFactory.Proofs.Retracing

namespace JsxFactory

namespace Desugar

variable {options : Options} {t₀ t t₁ t' : Tree} {id name : NodeId} {attributes children : ListId}
  {selfClosing : Bool} {footprint under under₁ places left : List Place} {all trail : List Visit}

/-! ## Calls from an earlier tree -/

section Rebase

variable (evolves : t₀.Evolves t)
include evolves

theorem rebase_node {slot : Slot} (new : t.NewNode t₁ id slot) : t₀.NewNode t₁ id slot :=
  ⟨fun inside => new.1 (evolves.contains inside), new.2⟩

theorem rebase_list {list : ListId} {items : List NodeId} (new : t.NewList t₁ list items) :
    t₀.NewList t₁ list items :=
  ⟨fun inside => new.1 (evolves.contains inside), new.2⟩

/-- Attributes are markup, so they are what they were. -/
theorem EntryFor.rebase {entry property : NodeId} (here : EntryFor options t t₁ entry property) :
    EntryFor options t₀ t₁ entry property := by
  have before : ∀ {id slot}, t.node id = slot → slot.Markup → t₀.node id = slot := by
    rintro id _ rfl markup
    exact (evolves.markup id markup).symm
  cases here with
  | named found foundName new newKey value =>
    refine .named (before found trivial) (before foundName trivial) (rebase_node evolves new)
      (rebase_node evolves newKey) ?_
    cases value with
    | absent newValue => exact .absent (rebase_node evolves newValue)
    | present => exact .present
  | spread found new => exact .spread (before found trivial) (rebase_node evolves new)

/-- A call for an element is a call for the element that it was before, if it had the same
name, attributes and children. -/
theorem CallFor.rebase (sameName : t.node name = t₀.node name)
    (sameAttributes : t.list attributes = t₀.list attributes)
    (sameChildren : t.list children = t₀.list children)
    (here : CallFor options t t₁ id name attributes children) :
    CallFor options t₀ t₁ id name attributes children := by
  obtain ⟨call, newCallee, newArguments, tagFor, objectFor, childrenFor⟩ := here
  refine ⟨call, rebase_node evolves newCallee, rebase_list evolves newArguments, ?tag, ?object,
    ?children⟩
  case tag =>
    cases tagFor with
    | simple found new => exact .simple (sameName ▸ found) (rebase_node evolves new)
    | dotted found same => exact .dotted (sameName ▸ found) same
  case object =>
    cases objectFor with
    | none empty new => exact .none (sameAttributes ▸ empty) (rebase_node evolves new)
    | entries nonempty new newList each =>
      rw [sameAttributes] at nonempty each
      exact .entries nonempty (rebase_node evolves new) (rebase_list evolves newList)
        (each.imp fun _ _ here => here.rebase evolves)
  case children =>
    cases childrenFor with
    | none empty => exact .none (sameChildren ▸ empty)
    | array nonempty new => exact .array (sameChildren ▸ nonempty) (rebase_node evolves new)

end Rebase

/-! ## Calls at the end -/

/-- An element that is entered becomes a call for the element that it was at the start. -/
theorem Entered.callFor (closed : t₀.Closed) (origin : Origin t₀ t (.node id :: under))
    (entered : Entered options t id under t₁ under₁)
    (found : t₀.node id = .jsxElement name attributes children selfClosing) :
    CallFor options t₀ t₁ id name attributes children := by
  have contains : t₀.Contains (.node id) := Tree.contains_of_sugar (by rw [found]; trivial)
  have unchanged : t.node id = t₀.node id := origin.same _ List.mem_cons_self contains
  have foundNow := unchanged.trans found
  -- The places that the element mentions are old, and still hold what they held.
  have same : ∀ place ∈ (t.node id).edges, t₀.SameAt t place := by
    intro place mem
    obtain ⟨_, owns⟩ := entered.owns
    have memUnder := owns.represents.mem_of_mem_places mem
    rw [foundNow] at mem
    exact origin.same place (List.mem_cons_of_mem _ memUnder) (closed.of_mem_edges found mem)
  rw [foundNow] at same
  obtain ⟨_, _, _, _, _, callFor⟩ := entered.enters.exists_of_element foundNow
  exact callFor.rebase origin.evolves (same (.node name) (by simp [Node.edges]))
    (same (.list attributes) (by simp [Node.edges])) (same (.list children) (by simp [Node.edges]))

theorem Recorded.callFor {slot : Slot} {stays : Bool} (closed : t₀.Closed)
    (recorded : Recorded options t₀ t' all (.node id slot stays))
    (found : t₀.node id = .jsxElement name attributes children selfClosing) :
    CallFor options t₀ t' id name attributes children := by
  have lasts : (t₀.node id).indents = false := by
    rw [found]
    rfl
  cases recorded with
  | entered origin entered evolves same =>
    have before := origin.evolves.trans entered.enters.evolves
    exact (entered.callFor closed origin found).keep before (.of_evolves closed before evolves) same
  | hole indents =>
    rw [lasts] at indents
    cases indents
  | dropped _ _ _ indents =>
    rw [lasts] at indents
    cases indents

/-- Each element of the footprint is its call at the end of the course. -/
theorem Course.callFor (course : Course options none t footprint places t' left trail)
    (closed : t.Closed) (inside : ∀ place ∈ footprint, t.Contains place)
    (mem : .node id ∈ footprint)
    (found : t.node id = .jsxElement name attributes children selfClosing) :
    CallFor options t t' id name attributes children := by
  have lively : t.Lively (.node id) := by
    rw [Tree.Lively, found]
    exact ⟨trivial, fun inert => inert⟩
  obtain ⟨visit, same, recorded⟩ := course.exists_recorded inside mem lively
  cases visit with
  | node =>
    cases same
    exact recorded.callFor closed found
  | list => cases same

end Desugar

namespace Tree

variable {options : Options} {t t' : Tree} {id name : NodeId} {attributes children : ListId}
  {selfClosing : Bool}

/-- In the desugared tree, each element is the call of the factory function that stands for
it, and the sequence of its children has lost its indentation and nothing else. -/
theorem callFor_desugar (source : t.IsRead ∨ t.IsLowered ∨ t.WellOwned)
    (succeeds : t.desugar options = .ok t') (reachable : t.Reachable (.node id))
    (found : t.node id = .jsxElement name attributes children selfClosing) :
    Desugar.CallFor options t t' id name attributes children ∧
      t'.list children = t.lasting (t.list children) := by
  have well := wellOwned_of_source source
  obtain ⟨term, footprint, owns⟩ := well.owned.exists_owns
  obtain ⟨s, ran, rfl⟩ := exists_run_of_desugar succeeds
  obtain ⟨trail, course, _⟩ := Desugar.exists_course owns ran
  have mem := owns.mem_of_reachable reachable
  have memChildren : .list children ∈ footprint := by
    refine owns.represents.mem_of_holds mem ?_
    rw [Holds, below, found]
    simp [Node.edges]
  exact ⟨course.callFor well.closed owns.inside mem found, course.list_eq owns.inside memChildren⟩

/-- Of the children of the outer element, the first is indentation. -/
theorem callFor_desugar_nestedElement :
    (ofTerm Term.nestedElement).IsRead ∧ (ofTerm Term.nestedElement).list ⟨4⟩ = [⟨13⟩, ⟨14⟩, ⟨16⟩] ∧
    ∃ t', (ofTerm Term.nestedElement).desugar {} = .ok t' ∧
      Desugar.CallFor {} (ofTerm Term.nestedElement) t' ⟨17⟩ ⟨3⟩ ⟨3⟩ ⟨4⟩ ∧
      t'.list ⟨4⟩ = [⟨14⟩, ⟨16⟩] := by
  have isRead := isRead_nestedElement
  have desugars : Term.nestedElement.desugar {} = .ok Term.nestedCall := rfl
  obtain ⟨t', _, succeeds, _⟩ := exists_desugar_ofTerm desugars
  have root : (ofTerm Term.nestedElement).root = ⟨17⟩ := by decide +kernel
  have items : (ofTerm Term.nestedElement).list ⟨4⟩ = [⟨13⟩, ⟨14⟩, ⟨16⟩] := by decide +kernel
  have lasting : (ofTerm Term.nestedElement).lasting [⟨13⟩, ⟨14⟩, ⟨16⟩] = [⟨14⟩, ⟨16⟩] := by
    decide +kernel
  have element : ((ofTerm Term.nestedElement).node ⟨17⟩).isElement = true := by decide +kernel
  have edges : ((ofTerm Term.nestedElement).node ⟨17⟩).edges =
      [.node ⟨3⟩, .list ⟨3⟩, .list ⟨4⟩] := by
    decide +kernel
  cases found : (ofTerm Term.nestedElement).node ⟨17⟩ with
  | jsxElement name attributes children selfClosing =>
    rw [found] at edges
    cases edges
    obtain ⟨callFor, list⟩ := callFor_desugar (.inl isRead) succeeds (root ▸ .refl) found
    rw [items, lasting] at list
    exact ⟨isRead, items, t', succeeds, callFor, list⟩
  | _ =>
    rw [found] at element
    cases element

end Tree

end JsxFactory
