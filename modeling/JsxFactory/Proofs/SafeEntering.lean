/-
# Entering a node is safe

What happens on entering a node of a well-owned store is sound: every place that is
looked at or overwritten lies in the store, and braces that are opened are the only
holder of their expression. Until it overwrites the node, entering it only adds to
the store, so an early end leaves a store that has grown and a tree that is as it
was.
-/

import JsxFactory.Proofs.Entering
import JsxFactory.Proofs.Watching
import JsxFactory.Proofs.WellOwned

namespace JsxFactory

namespace Walk

/-- Whether what happens is as it should be. -/
def Moment.Sound : Moment → Prop
  | ⟨t, .accesses place⟩ => t.Contains place
  | ⟨t, .takesOut list index⟩ => t.Contains (.list list) ∧ index < (t.list list).length
  | ⟨t, .opens braces expression⟩ => t.WellOwned ∧
      ∀ position, t.HeldAt position (.node expression) ↔ position = ⟨.node braces, 0⟩
  | ⟨t, .rests⟩ => t.WellOwned

namespace Watched

variable {σ ε ε' α β : Type}

/-- All that happened was sound, and the end is as told, be it an early one. -/
inductive Ends (good : α → State σ → Prop) (bad : State σ → Prop) :
    EStateM.Result ε (State σ) α × List Moment → Prop
  | ok {a : α} {s : State σ} {moments : List Moment} :
    (∀ moment ∈ moments, moment.Sound) → good a s → Ends good bad (.ok a s, moments)
  | error {e : ε} {s : State σ} {moments : List Moment} :
    (∀ moment ∈ moments, moment.Sound) → bad s → Ends good bad (.error e s, moments)

namespace Ends

variable {x : Watched σ ε α} {f : α → Watched σ ε β} {s s₁ : State σ} {a : α}
  {mid good' : α → State σ → Prop} {good : β → State σ → Prop} {bad bad' : State σ → Prop}

theorem bind (first : Ends mid bad (x s)) (next : ∀ a s₁, mid a s₁ → Ends good bad (f a s₁)) :
    Ends good bad ((x >>= f) s) := by
  change Ends good bad (Watched.bind x f s)
  rw [Watched.bind]
  generalize x s = ended at first
  cases first with
  | @ok a s₁ moments sound here =>
    have rest := next a s₁ here
    change Ends good bad ((f a s₁).1, moments ++ (f a s₁).2)
    generalize f a s₁ = ended at rest
    cases rest with
    | ok sound' there => exact .ok (List.forall_mem_append.mpr ⟨sound, sound'⟩) there
    | error sound' there => exact .error (List.forall_mem_append.mpr ⟨sound, sound'⟩) there
  | error sound here => exact .error sound here

theorem pure (here : mid a s) : Ends mid bad ((Pure.pure a : Watched σ ε α) s) :=
  .ok (by simp) here

theorem note {event : Event} (sound : Moment.Sound ⟨s.tree, event⟩) (rest : Ends mid bad (x s)) :
    Ends mid bad ((Watched.note event >>= fun _ => x) s) := by
  have noted : Ends (fun _ s₁ => s₁ = s) bad ((Watched.note event : Watched σ ε Unit) s) :=
    .ok (by simpa using sound) rfl
  refine noted.bind fun _ s₁ same => ?_
  rw [same]
  exact rest

/-- A step that cannot fail. -/
theorem step {y : EStateM ε (State σ) α} (ran : y s = .ok a s₁) (here : mid a s₁) :
    Ends mid bad (Watched.step y s) := by
  rw [Watched.step, ran]
  exact .ok (by simp) here

/-- A step that cannot fail, before others. -/
theorem step_bind {y : EStateM ε (State σ) α} (ran : y s = .ok a s₁)
    (rest : Ends good bad (f a s₁)) : Ends good bad ((Watched.step y >>= f) s) := by
  have first : Ends (fun b s₂ => b = a ∧ s₂ = s₁) bad (Watched.step y s) := step ran ⟨rfl, rfl⟩
  refine first.bind ?_
  rintro _ _ ⟨rfl, rfl⟩
  exact rest

theorem throw {e : ε} (here : bad s) :
    Ends mid bad (Watched.step (MonadExcept.throw e : EStateM ε (State σ) α) s) :=
  .error (by simp) here

theorem mono {ended : EStateM.Result ε (State σ) α × List Moment} (ends : Ends mid bad ended)
    (goodImp : ∀ a s₁, mid a s₁ → good' a s₁) (badImp : ∀ s₁, bad s₁ → bad' s₁) :
    Ends good' bad' ended := by
  cases ends with
  | ok sound here => exact .ok sound (goodImp _ _ here)
  | error sound here => exact .error sound (badImp _ here)

theorem resting (ends : Ends mid bad (x s)) (good : ∀ a s₁, mid a s₁ → s₁.tree.WellOwned)
    (early : ∀ s₁, bad s₁ → s₁.tree.WellOwned) : Ends mid bad (resting x s) := by
  rw [Watched.resting]
  generalize x s = ended at ends
  cases ends with
  | ok sound here =>
    refine .ok (List.forall_mem_append.mpr ⟨sound, ?_⟩) here
    simpa [Moment.Sound] using good _ _ here
  | error sound here =>
    refine .error (List.forall_mem_append.mpr ⟨sound, ?_⟩) here
    simpa [Moment.Sound] using early _ here

theorem adaptExcept (ends : Ends mid bad (x s)) (wrap : ε → ε') :
    Ends mid bad (x.adaptExcept wrap s) := by
  rw [Watched.adaptExcept]
  generalize x s = ended at ends
  cases ends with
  | ok sound here => exact .ok sound here
  | error sound here => exact .error sound here

/-- What is known of the computation that is watched is known of the end. -/
theorem alongside {ε'' γ : Type} {wrap : ε'' → ε} {y : EStateM ε (State σ) α}
    {post : α → State σ → γ → Prop} {expected : Except ε'' γ} (ends : Ends mid bad (x s))
    (watches : Watches x y) (lockstep : Lockstep wrap post (y s) expected) :
    Ends (fun a s₁ => mid a s₁ ∧ ∃ c, expected = .ok c ∧ post a s₁ c) bad (x s) := by
  rw [← watches s] at lockstep
  generalize x s = ended at ends lockstep
  cases ends with
  | ok sound here =>
    cases lockstep with
    | ok related => exact .ok sound ⟨here, _, rfl, related⟩
  | error sound here => exact .error sound here

theorem sound {ended : EStateM.Result ε (State σ) α × List Moment} (ends : Ends mid bad ended) :
    ∀ moment ∈ ended.2, moment.Sound := by
  cases ends with
  | ok sound _ => exact sound
  | error sound _ => exact sound

theorem of_fst_eq_ok {ended : EStateM.Result ε (State σ) α × List Moment}
    (ends : Ends mid bad ended) (succeeds : ended.1 = .ok a s) : mid a s := by
  cases ends with
  | ok _ here =>
    cases succeeds
    exact here
  | error => cases succeeds

theorem of_fst_eq_error {ended : EStateM.Result ε (State σ) α × List Moment} {e : ε}
    (ends : Ends mid bad ended) (fails : ended.1 = .error e s) : bad s := by
  cases ends with
  | ok => cases fails
  | error _ here =>
    cases fails
    exact here

end Ends

end Watched

end Walk

namespace Tree

variable {t t₁ : Tree} {id : NodeId} {list : ListId}

theorem Closed.of_mem_edges (closed : t.Closed) {slot : Slot} (found : t.node id = slot)
    {place : Place} (mem : place ∈ slot.edges) : t.Contains place := by
  refine closed (.node id) place ?_
  rw [Holds, below, found]
  exact mem

theorem Closed.of_mem_list (closed : t.Closed) {item : NodeId} (mem : item ∈ t.list list) :
    t.Contains (.node item) :=
  closed (.list list) (.node item) (List.mem_map_of_mem mem)

end Tree

/-! ## Entering a node -/

namespace Desugar

namespace Watched

open Walk.Watched (step note resting Watches Ends)

variable {α β : Type} {options : Options} {s : Walk.State Tally} {t t₁ : Tree} {tally : Tally}
  {id : NodeId} {list : ListId}

/-- Part of entering a node that only adds to the store. -/
def Adds (x : Step α) (s : Walk.State Tally) (good : α → Tree → Prop) : Prop :=
  Ends (fun a s₁ => s.tree.Grows s₁.tree ∧ good a s₁.tree) (fun s₁ => s.tree.Grows s₁.tree) (x s)

namespace Adds

variable {x : Step α} {f : α → Step β} {mid : α → Tree → Prop} {good : β → Tree → Prop}

/-- After adding to the store an early end still leaves the first store in it. -/
theorem andThen {last : β → Walk.State Tally → Prop} (first : Adds x s mid)
    (next : ∀ a s₁, s.tree.Grows s₁.tree → mid a s₁.tree →
      Ends last (fun s₂ => s₁.tree.Grows s₂.tree) (f a s₁)) :
    Ends last (fun s₂ => s.tree.Grows s₂.tree) ((x >>= f) s) := by
  refine Ends.bind first ?_
  rintro a s₁ ⟨grown, here⟩
  exact (next a s₁ grown here).mono (fun _ _ there => there) fun _ grown' => grown.trans grown'

theorem bind (first : Adds x s mid)
    (next : ∀ a s₁, s.tree.Grows s₁.tree → mid a s₁.tree → Adds (f a) s₁ good) :
    Adds (x >>= f) s good := by
  refine first.andThen fun a s₁ grown here => ?_
  refine (next a s₁ grown here).mono ?_ fun _ there => there
  rintro b s₂ ⟨grown', there⟩
  exact ⟨grown.trans grown', there⟩

theorem pure {b : β} (closed : s.tree.Closed) (here : good b s.tree) :
    Adds (Pure.pure b) s good :=
  Ends.pure ⟨.refl closed, here⟩

theorem throw {e : DesugarError} (closed : s.tree.Closed) :
    Adds (step (MonadExcept.throw e : Desugar.Step β)) s good :=
  Ends.throw (.refl closed)

/-- Looking at the tree adds nothing. -/
theorem look {event : Walk.Event} {f : Tree → Step β} (sound : Walk.Moment.Sound ⟨s.tree, event⟩)
    (rest : Adds (f s.tree) s good) : Adds (note event >>= fun _ => step Walk.tree >>= f) s good :=
  Ends.note sound (Ends.step_bind rfl rest)

theorem push {slot : Slot} (closed : s.tree.Closed)
    (held : ∀ place ∈ slot.edges, s.tree.Contains place) :
    Adds (step (push slot)) s (fun id t => t.Contains (.node id)) := by
  refine Ends.step rfl ⟨.push closed held, ?_⟩
  exact (s.tree.rebuilds_push slot).inside _ (List.mem_singleton_self _)

theorem pushList {items : List NodeId} (closed : s.tree.Closed)
    (held : ∀ item ∈ items, s.tree.Contains (.node item)) :
    Adds (step (pushList items)) s (fun id t => t.Contains (.list id)) := by
  refine Ends.step rfl ⟨.pushList closed held, ?_⟩
  exact (s.tree.rebuilds_pushList items).inside _ (List.mem_singleton_self _)

end Adds

theorem adds_spelled (quoted : Bool) (name : String) (closed : s.tree.Closed) :
    Adds (step (push (spelled quoted name))) s (fun id t => t.Contains (.node id)) := by
  refine .push closed fun place mem => ?_
  cases quoted <;> cases mem

theorem tagName_adds {name : NodeId} (closed : s.tree.Closed)
    (inside : s.tree.Contains (.node name)) :
    Adds (tagName options name) s (fun tag t => t.Contains (.node tag)) := by
  refine Adds.look inside ?_
  cases s.tree.node name with
  | jsxIdentifier | identifier => exact adds_spelled _ _ closed
  | jsxMember | member => exact Adds.pure closed inside
  | _ => exact Adds.throw closed

theorem attributeValue_adds {value : Option NodeId} (closed : s.tree.Closed)
    (inside : ∀ id ∈ value, s.tree.Contains (.node id)) :
    Adds (attributeValue value) s (fun v t => t.Contains (.node v)) := by
  cases value with
  | none => exact .push closed (by simp [Node.edges])
  | some value =>
    have here := inside value rfl
    refine Adds.look here ?_
    cases s.tree.node value with
    | literal | jsxContainer => exact Adds.pure closed here
    | _ => exact Adds.throw closed

theorem entryProperty_adds {entry : NodeId} (closed : s.tree.Closed)
    (inside : s.tree.Contains (.node entry)) :
    Adds (entryProperty options entry) s (fun property t => t.Contains (.node property)) := by
  refine Adds.look inside ?_
  cases found : s.tree.node entry with
  | jsxAttribute name value =>
    have insideName : s.tree.Contains (.node name) :=
      closed.of_mem_edges found (by cases value <;> simp [Node.edges])
    have insideValue : ∀ id ∈ value, s.tree.Contains (.node id) := by
      rintro id ⟨⟩
      exact closed.of_mem_edges found (by simp [Node.edges])
    refine Adds.look insideName ?_
    cases s.tree.node name with
    | jsxIdentifier name =>
      refine (adds_spelled options.quotePropNames name closed).bind
        fun key s₁ grown insideKey => ?_
      have insideValue₁ : ∀ id ∈ value, s₁.tree.Contains (.node id) := fun id mem =>
        grown.contains (insideValue id mem)
      refine (attributeValue_adds grown.closed insideValue₁).bind fun v s₂ grown₂ insideV => ?_
      refine .push grown₂.closed ?_
      simp [Node.plainProperty, Node.edges, insideV, grown₂.contains insideKey]
    | _ => exact Adds.throw closed
  | jsxSpreadAttribute argument =>
    refine .push closed fun place mem => ?_
    exact closed.of_mem_edges found mem
  | _ => exact Adds.throw closed

theorem entryProperties_adds {entries : List NodeId} (closed : s.tree.Closed)
    (inside : ∀ entry ∈ entries, s.tree.Contains (.node entry)) :
    Adds (entryProperties options entries) s
      (fun properties t => ∀ property ∈ properties, t.Contains (.node property)) := by
  induction entries generalizing s with
  | nil => exact Adds.pure closed (by simp)
  | cons entry rest ih =>
    obtain ⟨here, others⟩ := List.forall_mem_cons.mp inside
    refine (entryProperty_adds closed here).bind fun property s₁ grown first => ?_
    refine (ih grown.closed fun entry mem => grown.contains (others entry mem)).bind
      fun properties s₂ grown₂ all => ?_
    exact Adds.pure grown₂.closed (List.forall_mem_cons.mpr ⟨grown₂.contains first, all⟩)

theorem attributesArgument_adds (closed : s.tree.Closed) (inside : s.tree.Contains (.list list)) :
    Adds (attributesArgument options list) s (fun object t => t.Contains (.node object)) := by
  refine Adds.look inside ?_
  have items : ∀ entry ∈ s.tree.list list, s.tree.Contains (.node entry) := fun entry mem =>
    closed.of_mem_list mem
  cases found : s.tree.list list with
  | nil => exact .push closed (by simp [Node.edges])
  | cons entry rest =>
    rw [found] at items
    refine (entryProperties_adds closed items).bind fun properties s₁ grown all => ?_
    refine (Adds.pushList grown.closed all).bind fun object s₂ grown₂ here => ?_
    exact .push grown₂.closed (by simpa [Node.edges] using here)

theorem childrenArgument_adds (closed : s.tree.Closed) (inside : s.tree.Contains (.list list)) :
    Adds (childrenArgument list) s
      (fun elements t => ∀ element ∈ elements, t.Contains (.node element)) := by
  refine Adds.look inside ?_
  cases s.tree.list list with
  | nil => exact Adds.pure closed (by simp)
  | cons =>
    refine (Adds.push closed (by simpa [Node.edges] using inside)).bind
      fun array s₁ grown here => ?_
    exact Adds.pure grown.closed (by simpa using here)

theorem replace_bind {f : Unit → Step α} {good : α → Walk.State Tally → Prop}
    {bad : Walk.State Tally → Prop} {slot : Slot} (inside : s.tree.Contains (.node id))
    (rest : Ends good bad (f () ⟨s.tree.replace id slot, s.memory⟩)) :
    Ends good bad ((replace id slot >>= f) s) := by
  have replaced : Ends (fun _ s₁ => s₁ = ⟨s.tree.replace id slot, s.memory⟩) bad
      (replace id slot s) := Ends.note inside (Ends.step rfl rfl)
  refine replaced.bind fun _ s₁ same => ?_
  rw [same]
  exact rest

/-- Entering a node that succeeds mentions no place outside the store, and one
that fails has only added to it. -/
def Enters (x : Step Walk.Action) (s : Walk.State Tally) : Prop :=
  Ends (fun _ s₁ => s₁.tree.Closed) (fun s₁ => s.tree.Grows s₁.tree) (x s)

/-- Overwriting the node is the last thing that happens to the store. -/
theorem enters_replace {slot : Slot} (closed : s.tree.Closed) (inside : s.tree.Contains (.node id))
    (held : ∀ place ∈ slot.edges, s.tree.Contains place) :
    Enters (do replace id slot; return .continue) s :=
  replace_bind inside (Ends.pure (closed.replace inside held))

theorem enterElement_enters {name : NodeId} {attributes children : ListId}
    (closed : s.tree.Closed) (inside : s.tree.Contains (.node id))
    (insideName : s.tree.Contains (.node name)) (insideEntries : s.tree.Contains (.list attributes))
    (insideChildren : s.tree.Contains (.list children)) :
    Enters (enterElement options id name attributes children) s := by
  refine (tagName_adds closed insideName).andThen fun tag s₁ grown₁ insideTag => ?_
  refine (attributesArgument_adds grown₁.closed (grown₁.contains insideEntries)).andThen
    fun object s₂ grown₂ insideObject => ?_
  have insideChildren₂ := (grown₁.trans grown₂).contains insideChildren
  refine (childrenArgument_adds grown₂.closed insideChildren₂).andThen
    fun elements s₃ grown₃ insideElements => ?_
  refine (Adds.push grown₃.closed (by simp [Node.edges])).andThen
    fun callee s₄ grown₄ insideCallee => ?_
  -- The arguments were added to the store before the sequence that holds them.
  have insideArguments : ∀ argument ∈ tag :: object :: elements,
      s₄.tree.Contains (.node argument) := by
    refine List.forall_mem_cons.mpr ⟨?_, List.forall_mem_cons.mpr ⟨?_, ?_⟩⟩
    · exact ((grown₂.trans grown₃).trans grown₄).contains insideTag
    · exact (grown₃.trans grown₄).contains insideObject
    · exact fun element mem => grown₄.contains (insideElements element mem)
  refine (Adds.pushList grown₄.closed insideArguments).andThen
    fun arguments s₅ grown₅ insideList => ?_
  have grown := (((grown₁.trans grown₂).trans grown₃).trans grown₄).trans grown₅
  have inside₅ := grown.contains inside
  refine replace_bind inside₅ (Ends.step_bind rfl (Ends.pure (grown.closed.replace inside₅ ?_)))
  simp [Node.edges, insideList, grown₅.contains insideCallee]

/-- Braces are the only holder of the expression in them. -/
theorem heldAt_iff_of_jsxContainer {expression : NodeId} (well : t.WellOwned)
    (reachable : t.Reachable (.node id)) (found : t.node id = .jsxContainer expression)
    (position : Position) :
    t.HeldAt position (.node expression) ↔ position = ⟨.node id, 0⟩ := by
  have here : t.HeldAt ⟨.node id, 0⟩ (.node expression) := by
    refine ⟨reachable, ?_⟩
    simp [Tree.below, found, Node.edges]
  constructor
  · intro held
    have ne : (.node expression : Place) ≠ .node t.root := by
      intro root
      exact well.root_unheld _ (root ▸ here)
    exact (well.existsUnique_heldAt (reachable.tail here.holds) ne).unique held here
  · rintro rfl
    exact here

theorem enterContainer_enters {expression : NodeId} (well : s.tree.WellOwned)
    (reachable : s.tree.Reachable (.node id))
    (found : s.tree.node id = .jsxContainer expression) :
    Enters (enterContainer id expression) s := by
  have inside := well.inside reachable
  have insideExpression : s.tree.Contains (.node expression) :=
    well.closed.of_mem_edges found (by simp [Node.edges])
  refine Ends.note insideExpression (Ends.step_bind rfl ?_)
  by_cases bare : (s.tree.node expression).kind ∈ bareKinds
  · simp only [if_pos bare]
    refine Ends.note ⟨well, heldAt_iff_of_jsxContainer well reachable found⟩ ?_
    -- The hole is left in the place of the expression before the braces give way to it.
    have hole := Tree.rebuilds_replace insideExpression .hole
    have closed₁ : (s.tree.replace expression .hole).Closed :=
      well.closed.replace insideExpression (by simp [Node.edges])
    have inside₁ := hole.contains inside
    refine replace_bind insideExpression (replace_bind inside₁ (Ends.pure ?_))
    refine closed₁.replace inside₁ fun place mem => hole.contains ?_
    exact well.closed.of_mem_edges rfl mem
  · simp only [if_neg bare]
    exact Ends.throw (.refl well.closed)

theorem enterText_enters (closed : s.tree.Closed) (inside : s.tree.Contains (.node id))
    (value : String) : Enters (enterText id value) s := by
  rw [enterText]
  split
  · exact Ends.step_bind rfl (Ends.pure closed)
  · exact enters_replace closed inside (by simp [Node.text, Node.edges])

theorem enter_enters (well : s.tree.WellOwned) (reachable : s.tree.Reachable (.node id)) :
    Enters (enter options id) s := by
  have closed := well.closed
  have inside := well.inside reachable
  refine Ends.note inside (Ends.step_bind rfl ?_)
  cases found : s.tree.node id with
  | jsxText value => exact enterText_enters closed inside value
  | jsxContainer expression => exact enterContainer_enters well reachable found
  | jsxElement name attributes children =>
    have held : ∀ place ∈ [.node name, .list attributes, .list children], s.tree.Contains place :=
      fun place mem => closed.of_mem_edges found mem
    exact enterElement_enters closed inside (held _ (by simp)) (held _ (by simp)) (held _ (by simp))
  | jsxIdentifier => exact enters_replace closed inside (by simp [Node.edges])
  | jsxMember =>
    refine enters_replace closed inside fun place mem => ?_
    exact closed.of_mem_edges found mem
  | generic kind =>
    by_cases fragment : kind = "JSXFragment"
    · simp only [if_pos fragment]
      exact Ends.throw (.refl closed)
    · simp only [if_neg fragment]
      exact Ends.pure closed
  | _ => exact Ends.pure closed

end Watched

end Desugar

end JsxFactory
