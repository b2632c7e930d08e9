/-
# Walks with a log

A visitor can be made to keep a log of the nodes that it enters. Forgetting the log, a walk
with the visitor that keeps one is the walk with the visitor itself.

The bound on a walk is no part of its result: a walk that does not run out of fuel ends
the same way with more.
-/

import JsxFactory.Walk

namespace JsxFactory

namespace Walk

variable {σ ε ε' α β : Type}

/-! ## The log -/

/-- What a visitor remembers, and the nodes that it has entered, the first one first. -/
structure Logged (σ : Type) where
  memory : σ
  entered : List NodeId

/-- The state without the log. -/
def State.unlogged (s : State (Logged σ)) : State σ :=
  ⟨s.tree, s.memory.memory⟩

/-- How a walk ended, without the log. -/
def forget : EStateM.Result ε (State (Logged σ)) α → EStateM.Result ε (State σ) α
  | .ok a s => .ok a s.unlogged
  | .error e s => .error e s.unlogged

/-- A visitor with a log. -/
def Visitor.logging (visitor : Visitor σ ε) : Visitor (Logged σ) ε where
  enter id := fun s =>
    match visitor.enter id s.unlogged with
    | .ok action s₁ => .ok action ⟨s₁.tree, s₁.memory, s.memory.entered ++ [id]⟩
    | .error e s₁ => .error e ⟨s₁.tree, s₁.memory, s.memory.entered ++ [id]⟩

/-- Forgetting the log, the first computation is the second. -/
def Forgets (x : EStateM ε (State (Logged σ)) α) (y : EStateM ε (State σ) α) : Prop :=
  ∀ s, forget (x s) = y s.unlogged

namespace Forgets

variable {x : EStateM ε (State (Logged σ)) α} {y : EStateM ε (State σ) α}

theorem bind {f : α → EStateM ε (State (Logged σ)) β} {g : α → EStateM ε (State σ) β}
    (first : Forgets x y) (next : ∀ a, Forgets (f a) (g a)) : Forgets (x >>= f) (y >>= g) := by
  intro s
  change forget (EStateM.bind x f s) = EStateM.bind y g s.unlogged
  rw [EStateM.bind, EStateM.bind, ← first s]
  cases x s with
  | ok a s₁ => exact next a s₁
  | error e s₁ => rfl

theorem pure (a : α) : Forgets (Pure.pure a : EStateM ε (State (Logged σ)) α) (Pure.pure a) :=
  fun _ => rfl

theorem adaptExcept (wrap : ε → ε') (forgets : Forgets x y) :
    Forgets (x.adaptExcept wrap) (y.adaptExcept wrap) := by
  intro s
  simp only [EStateM.adaptExcept]
  rw [← forgets s]
  cases x s <;> rfl

/-- Both look at the same tree. -/
theorem look {f : Tree → EStateM ε (State (Logged σ)) β} {g : Tree → EStateM ε (State σ) β}
    (next : ∀ t, Forgets (f t) (g t)) : Forgets (tree >>= f) (tree >>= g) :=
  fun s => next s.tree s

theorem change_bind {f : Unit → EStateM ε (State (Logged σ)) β} {g : Unit → EStateM ε (State σ) β}
    (edit : Tree → Tree) (next : Forgets (f ()) (g ())) :
    Forgets (change edit >>= f) (change edit >>= g) :=
  fun s => next ⟨edit s.tree, s.memory⟩

theorem enter (visitor : Visitor σ ε) (id : NodeId) :
    Forgets (visitor.logging.enter id) (visitor.enter id) := by
  intro s
  simp only [Visitor.logging]
  cases visitor.enter id s.unlogged <;> rfl

end Forgets

section Walk

variable {logged : NodeId → Run (Logged σ) ε Action} {plain : NodeId → Run σ ε Action}

theorem visitList_forgets (visits : ∀ id, Forgets (logged id) (plain id)) (list : ListId)
    (fuel index : Nat) :
    Forgets (visitList logged list fuel index) (visitList plain list fuel index) := by
  induction fuel generalizing index with
  | zero => exact fun _ => rfl
  | succ fuel ih =>
    refine Forgets.look fun t => ?_
    cases (t.list list)[index]? with
    | none => exact .pure ()
    | some child =>
      refine (visits child).bind fun action => ?_
      cases action with
      | remove => exact .change_bind _ (ih index)
      | «continue» | skip => exact ih (index + 1)

theorem visitEdges_forgets (visits : ∀ id, Forgets (logged id) (plain id)) (fuel : Nat)
    (edges : List (Edge NodeId ListId)) :
    Forgets (visitEdges logged fuel edges) (visitEdges plain fuel edges) := by
  induction edges with
  | nil => exact .pure ()
  | cons edge rest ih =>
    cases edge with
    | node child =>
      refine (visits child).bind fun action => ?_
      cases action with
      | remove => exact .change_bind _ ih
      | «continue» | skip => exact ih
    | list list => exact (visitList_forgets visits list fuel 0).bind fun _ => ih

theorem visit_forgets (visitor : Visitor σ ε) (fuel : Nat) (id : NodeId) :
    Forgets (visit visitor.logging fuel id) (visit visitor fuel id) := by
  induction fuel generalizing id with
  | zero => exact fun _ => rfl
  | succ fuel ih =>
    refine ((Forgets.enter visitor id).adaptExcept Stop.failed).bind fun action => ?_
    cases action with
    | «continue» =>
      refine Forgets.look fun t => ?_
      exact (visitEdges_forgets ih fuel (t.node id).edges).bind fun _ => .pure _
    | skip | remove => exact .pure _

theorem walk_forgets (visitor : Visitor σ ε) (fuel : Nat) :
    Forgets (walk visitor.logging fuel) (walk visitor fuel) := by
  refine Forgets.look fun t => ?_
  refine (visit_forgets visitor fuel t.root).bind fun action => ?_
  cases action with
  | remove => exact fun _ => rfl
  | «continue» | skip => exact .pure ()

end Walk

/-! ## More fuel -/

/-- The second computation ends as the first does, unless that runs out of fuel. -/
def Covers (x y : Run σ ε α) : Prop :=
  ∀ s, (∃ s₁, x s = .error .outOfFuel s₁) ∨ y s = x s

namespace Covers

variable {x y : Run σ ε α}

theorem refl (x : Run σ ε α) : Covers x x :=
  fun _ => .inr rfl

theorem bind {f g : α → Run σ ε β} (first : Covers x y) (next : ∀ a, Covers (f a) (g a)) :
    Covers (x >>= f) (y >>= g) := by
  intro s
  change (∃ s₁, EStateM.bind x f s = .error .outOfFuel s₁) ∨
    EStateM.bind y g s = EStateM.bind x f s
  rw [EStateM.bind, EStateM.bind]
  obtain ⟨s₁, out⟩ | same := first s
  · rw [out]
    exact .inl ⟨s₁, rfl⟩
  · rw [same]
    cases x s with
    | ok a s₁ => exact next a s₁
    | error e s₁ => exact .inr rfl

end Covers

section Walk

variable {fewer more : NodeId → Run σ ε Action}

theorem visitList_covers (visits : ∀ id, Covers (fewer id) (more id)) (list : ListId)
    {fuel fuel' : Nat} (le : fuel ≤ fuel') (index : Nat) :
    Covers (visitList fewer list fuel index) (visitList more list fuel' index) := by
  induction fuel generalizing fuel' index with
  | zero => exact fun s => .inl ⟨s, rfl⟩
  | succ fuel ih =>
    obtain ⟨fuel', rfl⟩ : ∃ less, fuel' = less + 1 := ⟨fuel' - 1, by omega⟩
    have rest := fun index => ih (Nat.le_of_succ_le_succ le) index
    refine (Covers.refl tree).bind fun t => ?_
    cases (t.list list)[index]? with
    | none => exact .refl _
    | some child =>
      refine (visits child).bind fun action => ?_
      cases action with
      | remove => exact (Covers.refl _).bind fun _ => rest index
      | «continue» | skip => exact rest (index + 1)

theorem visitEdges_covers (visits : ∀ id, Covers (fewer id) (more id)) {fuel fuel' : Nat}
    (le : fuel ≤ fuel') (edges : List (Edge NodeId ListId)) :
    Covers (visitEdges fewer fuel edges) (visitEdges more fuel' edges) := by
  induction edges with
  | nil => exact .refl _
  | cons edge rest ih =>
    cases edge with
    | node child =>
      refine (visits child).bind fun action => ?_
      cases action with
      | remove => exact (Covers.refl _).bind fun _ => ih
      | «continue» | skip => exact ih
    | list list => exact (visitList_covers visits list le 0).bind fun _ => ih

theorem visit_covers (visitor : Visitor σ ε) {fuel fuel' : Nat} (le : fuel ≤ fuel') (id : NodeId) :
    Covers (visit visitor fuel id) (visit visitor fuel' id) := by
  induction fuel generalizing fuel' id with
  | zero => exact fun s => .inl ⟨s, rfl⟩
  | succ fuel ih =>
    obtain ⟨fuel', rfl⟩ : ∃ less, fuel' = less + 1 := ⟨fuel' - 1, by omega⟩
    have less := Nat.le_of_succ_le_succ le
    refine (Covers.refl _).bind fun action => ?_
    cases action with
    | «continue» =>
      refine (Covers.refl tree).bind fun t => ?_
      exact (visitEdges_covers (fun id => ih less id) less _).bind fun _ => .refl _
    | skip | remove => exact .refl _

/-- A walk that does not run out of fuel ends the same way with more. -/
theorem walk_eq_of_le (visitor : Visitor σ ε) {fuel fuel' : Nat} (le : fuel ≤ fuel') {s : State σ}
    (ends : ∀ s₁, walk visitor fuel s ≠ .error .outOfFuel s₁) :
    walk visitor fuel' s = walk visitor fuel s := by
  have covers : Covers (walk visitor fuel) (walk visitor fuel') :=
    (Covers.refl tree).bind fun t => (visit_covers visitor le t.root).bind fun _ => .refl _
  obtain ⟨s₁, out⟩ | same := covers s
  · exact absurd out (ends s₁)
  · exact same

end Walk

end Walk

end JsxFactory
