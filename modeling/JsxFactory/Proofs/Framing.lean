/-
# What a desugaring leaves alone

A desugaring overwrites nodes through ids that it finds in other nodes, and it may stop
anywhere. Still it touches little: of the nodes that were there, only the markup that it
rewrites and the expressions in braces change; of the sequences, only indentation goes;
and nothing that was there is given up. This holds for any store, between any two of the
states that a run passes through, the one that an error leaves behind among them.

The middle of a move out of braces is such a state. There the expression is in neither
place, so not all of an evolution holds, but the frame does.
-/

import Mathlib.Data.List.Chain
import JsxFactory.Proofs.Retracing
import JsxFactory.Proofs.Watching

namespace JsxFactory

namespace Tree

variable {t t₁ t₂ : Tree} {id : NodeId} {items left last : List NodeId}

/-! ## Sequences -/

/-- The second list is the first without some of its indentation. -/
inductive Sheds (t : Tree) : List NodeId → List NodeId → Prop
  | nil : Sheds t [] []
  | keep {item : NodeId} {items left : List NodeId} :
    Sheds t items left → Sheds t (item :: items) (item :: left)
  | drop {item : NodeId} {items left : List NodeId} :
    (t.node item).indents = true → Sheds t items left → Sheds t (item :: items) left

namespace Sheds

theorem mono (sheds : t₁.Sheds items left)
    (indents : ∀ id, (t₁.node id).indents = true → (t.node id).indents = true) :
    t.Sheds items left := by
  induction sheds with
  | nil => exact nil
  | keep _ ih => exact keep ih
  | drop here _ ih => exact drop (indents _ here) ih

theorem trans (first : t.Sheds items left) (second : t.Sheds left last) : t.Sheds items last := by
  induction first generalizing last with
  | nil => exact second
  | keep _ ih =>
    cases second with
    | keep rest => exact keep (ih rest)
    | drop here rest => exact drop here (ih rest)
  | drop here _ ih => exact drop here (ih second)

end Sheds

/-- A part of a list with all that lasts is the list without some of its indentation. -/
theorem sheds_of_lasting (sublist : left.Sublist items)
    (same : t.lasting left = t.lasting items) : t.Sheds items left := by
  induction sublist with
  | slnil => exact .nil
  | @cons left items item rest ih =>
    -- An item that lasts would be missed on the left.
    have indents : (t.node item).indents = true := by
      by_contra lasts
      rw [Bool.not_eq_true] at lasts
      have shorter := (rest.filter fun item => !(t.node item).indents).length_le
      have length := congrArg List.length same
      simp only [lasting, List.filter_cons, lasts, Bool.not_false, if_true,
        List.length_cons] at length
      omega
    refine .drop indents (ih ?_)
    simpa [lasting, indents] using same
  | @cons_cons left items item rest ih =>
    refine .keep (ih ?_)
    by_cases indents : (t.node item).indents = true
    · simpa [lasting, indents] using same
    · simpa [lasting, indents] using same

/-! ## The frame -/

/-- What the second store has in common with the first. -/
structure Frames (t t₁ : Tree) : Prop where
  contains : ∀ place, t.Contains place → t₁.Contains place
  root_eq : t₁.root = t.root
  /-- A node that is neither rewritten nor in braces stays where it is, as it is. -/
  kept : ∀ id, t.Contains (.node id) → ¬ (t.node id).Sugar → ¬ t.InBraces id →
    t₁.node id = t.node id
  /-- A sequence loses nothing but indentation, and keeps its order. -/
  sheds : ∀ list, t.Contains (.list list) → t.Sheds (t.list list) (t₁.list list)
  /-- Markup is left from before, and is never made. -/
  markup : ∀ id, (t₁.node id).Markup → t₁.node id = t.node id

theorem Evolves.frames (evolves : t.Evolves t₁) : t.Frames t₁ where
  contains _ inside := evolves.contains inside
  root_eq := evolves.root_eq
  kept := evolves.kept
  sheds list inside := sheds_of_lasting (evolves.items list inside) (evolves.lasting list inside)
  markup := evolves.markup

namespace Frames

theorem refl (t : Tree) : t.Frames t :=
  (Evolves.refl t).frames

theorem inBraces (frames : t.Frames t₁) (held : t₁.InBraces id) : t.InBraces id := by
  obtain ⟨braces, found⟩ := held
  refine ⟨braces, ?_⟩
  rw [← frames.markup braces (by rw [found]; trivial), found]

theorem indents (frames : t.Frames t₁) (indents : (t₁.node id).indents = true) :
    (t.node id).indents = true := by
  rw [← frames.markup id (Node.sugar_of_indents indents).markup]
  exact indents

theorem trans (first : t.Frames t₁) (second : t₁.Frames t₂) : t.Frames t₂ where
  contains place inside := second.contains place (first.contains place inside)
  root_eq := second.root_eq.trans first.root_eq
  kept id inside notSugar outside := by
    have same := first.kept id inside notSugar outside
    have still := second.kept id (first.contains _ inside) (same ▸ notSugar)
      fun held => outside (first.inBraces held)
    exact still.trans same
  sheds list inside := by
    have later := second.sheds list (first.contains _ inside)
    exact (first.sheds list inside).trans (later.mono fun _ => first.indents)
  markup id markup := by
    have same := second.markup id markup
    rw [same] at markup ⊢
    exact first.markup id markup

instance : Trans Frames Frames Frames := ⟨trans⟩

/-- The first half of a move: the expression is taken, and the braces are still there. -/
theorem take {braces : NodeId} (found : t.node braces = .jsxContainer id) :
    t.Frames (t.replace id .hole) where
  contains place inside := by
    cases place with
    | node other => simpa [Contains, replace] using inside
    | list list => exact inside
  root_eq := rfl
  kept other _ _ outside := by
    apply node_replace_of_ne
    rintro rfl
    exact outside ⟨braces, found⟩
  sheds list inside := (refl t).sheds list inside
  markup other markup := by
    by_cases same : other = id
    · subst same
      by_cases inside : t.Contains (.node other)
      · rw [node_replace inside] at markup
        exact markup.elim
      · -- Outside of the store there is nothing to take.
        have unchanged : t.replace other .hole = t := by
          have none : t.nodes.size ≤ other.index := Nat.le_of_not_lt inside
          rw [replace, Array.setIfInBounds_eq_of_size_le none]
        rw [unchanged]
    · exact node_replace_of_ne same _

end Frames

end Tree

namespace Walk

variable {σ ε ε' α β : Type}

/-- The store in which a run ends, early or not. -/
def final : EStateM.Result ε (State σ) α → Tree
  | .ok _ s => s.tree
  | .error _ s => s.tree

namespace Watched

/-- The stores that a run passes through: the one before it, those at its moments, and
the one in which it ends. -/
def history (t : Tree) (ended : EStateM.Result ε (State σ) α × List Moment) : List Tree :=
  t :: (ended.2.map Moment.tree ++ [final ended.1])

/-- A run keeps the frame from each state to every later one, and evolves the store as a
whole. -/
structure Framed (good : α → State σ → Prop) (t : Tree)
    (ended : EStateM.Result ε (State σ) α × List Moment) : Prop where
  pairwise : (history t ended).Pairwise Tree.Frames
  evolves : t.Evolves (final ended.1)
  good : ∀ a s, ended.1 = .ok a s → good a s

namespace Framed

variable {x : Watched σ ε α} {f : α → Watched σ ε β} {s s₁ : State σ} {a : α}
  {mid : α → State σ → Prop} {good : β → State σ → Prop}

/-- Two histories, one of which starts where the other ends. -/
theorem pairwise_append {t t₁ t₂ : Tree} {moments moments₁ : List Tree}
    (first : (t :: (moments ++ [t₁])).Pairwise Tree.Frames)
    (second : (t₁ :: (moments₁ ++ [t₂])).Pairwise Tree.Frames) :
    (t :: (moments ++ moments₁ ++ [t₂])).Pairwise Tree.Frames := by
  rw [← List.isChain_iff_pairwise] at first second
  have joined : (t :: moments ++ [t₁] ++ (moments₁ ++ [t₂])).IsChain Tree.Frames :=
    List.IsChain.append_overlap first second (List.cons_ne_nil _ _)
  refine List.Pairwise.sublist ?_ (List.isChain_iff_pairwise.mp joined)
  simp

theorem bind (first : Framed mid s.tree (x s))
    (next : ∀ a s₁, mid a s₁ → Framed good s₁.tree (f a s₁)) :
    Framed good s.tree ((x >>= f) s) := by
  change Framed good s.tree (Watched.bind x f s)
  rw [Watched.bind]
  generalize x s = ended at first
  obtain ⟨result, moments⟩ := ended
  cases result with
  | ok a s₁ =>
    have second := next a s₁ (first.good a s₁ rfl)
    refine ⟨?_, first.evolves.trans second.evolves, second.good⟩
    have joined := pairwise_append first.pairwise second.pairwise
    rwa [← List.map_append] at joined
  | error e s₁ => exact ⟨first.pairwise, first.evolves, fun _ _ same => by cases same⟩

theorem mono {good : α → State σ → Prop} {t : Tree}
    {ended : EStateM.Result ε (State σ) α × List Moment} (framed : Framed mid t ended)
    (imp : ∀ a s, mid a s → good a s) : Framed good t ended :=
  ⟨framed.pairwise, framed.evolves, fun a s same => imp a s (framed.good a s same)⟩

/-- A run without moments of its own. -/
theorem step {y : EStateM ε (State σ) α} (evolves : s.tree.Evolves (final (y s)))
    (good : ∀ a s₁, y s = .ok a s₁ → mid a s₁) : Framed mid s.tree (Watched.step y s) where
  pairwise := by simpa [history, Watched.step] using evolves.frames
  evolves := evolves
  good := good

theorem pure (here : mid a s) : Framed mid s.tree ((Pure.pure a : Watched σ ε α) s) := by
  refine step (y := Pure.pure a) (.refl _) ?_
  rintro _ _ ⟨⟩
  exact here

theorem throw {e : ε} :
    Framed mid s.tree (Watched.step (MonadExcept.throw e : EStateM ε (State σ) α) s) :=
  step (.refl _) (by rintro _ _ ⟨⟩)

theorem note {event : Event} (rest : Framed mid s.tree (x s)) :
    Framed mid s.tree ((Watched.note event >>= fun _ => x) s) := by
  have noted : Framed (fun _ s₁ => s₁ = s) s.tree ((Watched.note event : Watched σ ε Unit) s) := by
    refine ⟨?_, .refl _, by rintro _ _ ⟨⟩; rfl⟩
    simp [history, Watched.note, final, Tree.Frames.refl]
  apply noted.bind
  rintro _ _ rfl
  exact rest

/-- Looking at the tree changes nothing. -/
theorem look {event : Event} {f : Tree → Watched σ ε β} (rest : Framed good s.tree (f s.tree s)) :
    Framed good s.tree ((Watched.note event >>= fun _ => Watched.step tree >>= f) s) := by
  have looked : Framed (fun t s₁ => t = s.tree ∧ s₁ = s) s.tree
      ((Watched.step tree : Watched σ ε Tree) s) := by
    refine step (.refl _) ?_
    rintro _ _ ⟨⟩
    exact ⟨rfl, rfl⟩
  apply note
  apply looked.bind
  rintro _ _ ⟨rfl, rfl⟩
  exact rest

theorem resting (framed : Framed mid s.tree (x s)) : Framed mid s.tree (resting x s) := by
  have again : ∀ {t t₁ : Tree} {moments : List Tree},
      (t :: (moments ++ [t₁])).Pairwise Tree.Frames →
      (t :: (moments ++ [t₁] ++ [t₁])).Pairwise Tree.Frames := by
    intro t t₁ moments pairwise
    refine pairwise_append pairwise ?_
    simp [Tree.Frames.refl]
  rw [Watched.resting]
  generalize x s = ended at framed
  obtain ⟨result, moments⟩ := ended
  cases result with
  | ok a s₁ =>
    refine ⟨?_, framed.evolves, framed.good⟩
    simpa [history, final] using again framed.pairwise
  | error e s₁ =>
    refine ⟨?_, framed.evolves, by rintro _ _ ⟨⟩⟩
    simpa [history, final] using again framed.pairwise

theorem adaptExcept (framed : Framed mid s.tree (x s)) (wrap : ε → ε') :
    Framed mid s.tree (x.adaptExcept wrap s) := by
  rw [Watched.adaptExcept]
  generalize x s = ended at framed
  obtain ⟨result, moments⟩ := ended
  cases result with
  | ok a s₁ =>
    refine ⟨framed.pairwise, framed.evolves, ?_⟩
    rintro _ _ ⟨⟩
    exact framed.good a s₁ rfl
  | error e s₁ => exact ⟨framed.pairwise, framed.evolves, by rintro _ _ ⟨⟩⟩

end Framed

end Watched

end Walk

namespace Desugar

namespace Watched

open Walk.Watched (step note resting Framed)

variable {α : Type} {options : Options} {s : Walk.State Tally} {id : NodeId}

/-! ## Entering a node -/

/-- A step that adds to the store and changes nothing in it. -/
def Enlarges (x : Step α) (s : Walk.State Tally) : Prop :=
  Framed (fun _ s₁ => s.tree.Extends s₁.tree) s.tree (x s)

namespace Enlarges

variable {β : Type} {x : Step α} {f : α → Step β}

theorem bind (first : Enlarges x s) (next : ∀ a s₁, Enlarges (f a) s₁) : Enlarges (x >>= f) s := by
  apply Framed.bind first
  intro a s₁ extended
  exact (next a s₁).mono fun _ _ extended₁ => extended.trans extended₁

theorem pure {a : α} : Enlarges (Pure.pure a) s :=
  Framed.pure (.refl _)

theorem throw {e : DesugarError} :
    Enlarges (step (MonadExcept.throw e : Desugar.Step α)) s :=
  Framed.throw

theorem look {event : Walk.Event} {f : Tree → Step β} (rest : Enlarges (f s.tree) s) :
    Enlarges (note event >>= fun _ => step Walk.tree >>= f) s :=
  Framed.look rest

/-- Adding a node that is no markup. -/
theorem push {slot : Slot} (plain : ¬ slot.Markup) : Enlarges (step (push slot)) s := by
  refine .step (.push s.tree plain) ?_
  rintro _ _ ⟨⟩
  exact .push s.tree slot

theorem pushList (items : List NodeId) : Enlarges (step (pushList items)) s := by
  refine .step (.pushList s.tree items) ?_
  rintro _ _ ⟨⟩
  exact .pushList s.tree items

theorem spelled (quoted : Bool) (name : String) :
    Enlarges (step (Desugar.push (spelled quoted name))) s := by
  apply push
  cases quoted <;> simp [Desugar.spelled, Node.text, Node.Markup]

end Enlarges

theorem tagName_enlarges (options : Options) (name : NodeId) :
    Enlarges (tagName options name) s := by
  apply Enlarges.look
  cases s.tree.node name with
  | jsxIdentifier | identifier => exact Enlarges.spelled _ _
  | jsxMember | member => exact Enlarges.pure
  | _ => exact Enlarges.throw

theorem attributeValue_enlarges (value : Option NodeId) : Enlarges (attributeValue value) s := by
  cases value with
  | none => exact Enlarges.push (by simp [Node.Markup])
  | some value =>
    apply Enlarges.look
    cases s.tree.node value with
    | literal | jsxContainer => exact Enlarges.pure
    | _ => exact Enlarges.throw

theorem entryProperty_enlarges (options : Options) (entry : NodeId) :
    Enlarges (entryProperty options entry) s := by
  apply Enlarges.look
  cases s.tree.node entry with
  | jsxAttribute name value =>
    apply Enlarges.look
    cases s.tree.node name with
    | jsxIdentifier name =>
      apply (Enlarges.spelled options.quotePropNames name).bind
      intro key s₁
      apply (attributeValue_enlarges value).bind
      intro value s₂
      exact Enlarges.push (by simp [Node.plainProperty, Node.Markup])
    | _ => exact Enlarges.throw
  | jsxSpreadAttribute argument => exact Enlarges.push (by simp [Node.Markup])
  | _ => exact Enlarges.throw

theorem entryProperties_enlarges (options : Options) (entries : List NodeId) :
    Enlarges (entryProperties options entries) s := by
  induction entries generalizing s with
  | nil => exact Enlarges.pure
  | cons entry rest ih =>
    apply (entryProperty_enlarges options entry).bind
    intro property s₁
    exact ih.bind fun _ _ => .pure

theorem attributesArgument_enlarges (options : Options) (list : ListId) :
    Enlarges (attributesArgument options list) s := by
  apply Enlarges.look
  cases s.tree.list list with
  | nil => exact Enlarges.push (by simp [Node.Markup])
  | cons entry rest =>
    apply (entryProperties_enlarges options (entry :: rest)).bind
    intro properties s₁
    exact (Enlarges.pushList properties).bind fun _ _ => .push (by simp [Node.Markup])

theorem childrenArgument_enlarges (children : ListId) : Enlarges (childrenArgument children) s := by
  apply Enlarges.look
  cases s.tree.list children with
  | nil => exact Enlarges.pure
  | cons => exact (Enlarges.push (by simp [Node.Markup])).bind fun _ _ => .pure

/-- After entering a node: if it is to be removed, it is indentation and nothing has
changed. -/
def Leaving (before : Tree) (id : NodeId) (action : Walk.Action) (s : Walk.State Tally) : Prop :=
  action = .remove → s.tree = before ∧ (before.node id).indents = true

theorem leaving_continue {before : Tree} : Leaving before id .continue s := by
  intro removes
  cases removes

/-- Something that is no markup in the place of a node that is rewritten. -/
theorem replace_framed (sugar : (s.tree.node id).Sugar) {slot : Slot} (plain : ¬ slot.Markup) :
    Framed (fun _ _ => True) s.tree (replace id slot s) :=
  .note (.step (.replace sugar plain) fun _ _ _ => trivial)

theorem rewrite_framed (sugar : (s.tree.node id).Sugar) {slot : Slot} (plain : ¬ slot.Markup) :
    Framed (Leaving s.tree id) s.tree ((do replace id slot; return .continue : Step _) s) :=
  (replace_framed sugar plain).bind fun _ _ _ => .pure leaving_continue

theorem count_framed (f : Tally → Tally) :
    Framed (fun _ s₁ => s₁.tree = s.tree) s.tree (step (count f) s) := by
  refine .step (.refl _) ?_
  rintro _ _ ⟨⟩
  rfl

theorem enterElement_framed {name : NodeId} {attributes children : ListId} {selfClosing : Bool}
    (found : s.tree.node id = .jsxElement name attributes children selfClosing) :
    Framed (Leaving s.tree id) s.tree (enterElement options id name attributes children s) := by
  have sugar : (s.tree.node id).Sugar := by rw [found]; trivial
  apply Framed.bind (tagName_enlarges options name)
  intro tag s₁ extended₁
  apply Framed.bind (attributesArgument_enlarges options attributes)
  intro object s₂ extended₂
  apply Framed.bind (childrenArgument_enlarges children)
  intro elements s₃ extended₃
  apply Framed.bind (Enlarges.push (by simp [Node.Markup]))
  intro callee s₄ extended₄
  apply Framed.bind (Enlarges.pushList (tag :: object :: elements))
  intro arguments s₅ extended₅
  -- What was added so far leaves the element where it is.
  have extended := (((extended₁.trans extended₂).trans extended₃).trans extended₄).trans extended₅
  have same : s₅.tree.node id = s.tree.node id :=
    extended.kept (.node id) (Tree.contains_of_sugar sugar)
  apply (replace_framed (same ▸ sugar) (by simp [Node.Markup])).bind
  intro _ s₆ _
  apply (count_framed _).bind
  intro _ s₇ _
  exact .pure leaving_continue

theorem enterContainer_framed {expression : NodeId}
    (found : s.tree.node id = .jsxContainer expression) :
    Framed (Leaving s.tree id) s.tree (enterContainer id expression s) := by
  apply Framed.look
  by_cases bare : (s.tree.node expression).kind ∈ bareKinds
  · simp only [if_pos bare]
    have plain := Node.not_markup_of_bare bare
    have ne : id ≠ expression := by
      rintro rfl
      rw [found] at plain
      exact plain trivial
    have taken := Tree.Frames.take found
    have braces : ((s.tree.replace expression .hole).node id).Sugar := by
      rw [Tree.node_replace_of_ne ne, found]
      trivial
    have put := (Tree.Evolves.replace braces plain).frames
    refine ⟨?_, .move found bare, ?_⟩
    · -- Before the move, with the expression in hand, and after the move.
      change [s.tree, s.tree, s.tree, s.tree.replace expression .hole,
        (s.tree.replace expression .hole).replace id (s.tree.node expression)].Pairwise Tree.Frames
      simp [Tree.Frames.refl, taken, put, taken.trans put]
    · rintro _ _ ⟨⟩
      exact leaving_continue
  · simp only [if_neg bare]
    exact .throw

theorem enterText_framed {value : String} (found : s.tree.node id = .jsxText value) :
    Framed (Leaving s.tree id) s.tree (enterText id value s) := by
  rw [enterText]
  split <;> rename_i indents
  · apply (count_framed _).bind
    intro _ s₁ same
    refine .pure fun _ => ⟨same, ?_⟩
    rw [found]
    exact indents
  · exact rewrite_framed (by rw [found]; trivial) (by simp [Node.text, Node.Markup])

theorem enter_framed (options : Options) (id : NodeId) :
    Framed (Leaving s.tree id) s.tree (enter options id s) := by
  apply Framed.look
  cases found : s.tree.node id with
  | jsxText value => exact enterText_framed found
  | jsxContainer expression => exact enterContainer_framed found
  | jsxElement name attributes children selfClosing => exact enterElement_framed found
  | jsxIdentifier | jsxMember =>
    exact rewrite_framed (by rw [found]; trivial) (by simp [Node.Markup])
  | generic kind fields =>
    by_cases fragment : kind = "JSXFragment"
    · simp only [if_pos fragment]
      exact .throw
    · simp only [if_neg fragment]
      exact .pure leaving_continue
  | _ => exact .pure leaving_continue

/-! ## The walk -/

section Walk

variable {visit : NodeId → Walk.Watched Tally (Walk.Stop DesugarError) Walk.Action}

theorem takeOut_framed {list : ListId} {index : Nat}
    (found : (s.tree.list list)[index]? = some id) (indents : (s.tree.node id).indents = true) :
    Framed (ε := Walk.Stop DesugarError) (fun _ _ => True) s.tree
      (Walk.Watched.takeOut list index s) :=
  .resting (.note (.step (.removeItem found indents) fun _ _ _ => trivial))

theorem leaveHole_framed (indents : (s.tree.node id).indents = true) :
    Framed (ε := Walk.Stop DesugarError) (fun _ _ => True) s.tree (Walk.Watched.leaveHole id s) :=
  .resting (.note (.step (.replace (Node.sugar_of_indents indents) (by simp [Node.Markup]))
    fun _ _ _ => trivial))

theorem visitList_framed (visits : ∀ s id, Framed (Leaving s.tree id) s.tree (visit id s))
    (list : ListId) (fuel index : Nat) :
    Framed (fun _ _ => True) s.tree (Walk.Watched.visitList visit list fuel index s) := by
  induction fuel generalizing index s with
  | zero => exact .throw
  | succ fuel ih =>
    apply Framed.look
    cases found : (s.tree.list list)[index]? with
    | none => exact .pure trivial
    | some child =>
      apply (visits s child).bind
      intro action s₁ leaving
      cases action with
      | remove =>
        obtain ⟨same, indents⟩ := leaving rfl
        rw [← same] at found indents
        exact (takeOut_framed found indents).bind fun _ _ _ => ih index
      | «continue» | skip => exact ih (index + 1)

theorem visitEdges_framed (visits : ∀ s id, Framed (Leaving s.tree id) s.tree (visit id s))
    (fuel : Nat) (places : List Place) :
    Framed (fun _ _ => True) s.tree (Walk.Watched.visitEdges visit fuel places s) := by
  induction places generalizing s with
  | nil => exact .pure trivial
  | cons place places ih =>
    cases place with
    | node child =>
      apply (visits s child).bind
      intro action s₁ leaving
      cases action with
      | remove =>
        obtain ⟨same, indents⟩ := leaving rfl
        rw [← same] at indents
        exact (leaveHole_framed indents).bind fun _ _ _ => ih
      | «continue» | skip => exact ih
    | list list => exact (visitList_framed visits list fuel 0).bind fun _ _ _ => ih

theorem visit_framed (options : Options) (fuel : Nat) (s : Walk.State Tally) (id : NodeId) :
    Framed (Leaving s.tree id) s.tree (Walk.Watched.visit (enter options) fuel id s) := by
  induction fuel generalizing s id with
  | zero => exact .throw
  | succ fuel ih =>
    apply ((enter_framed options id).resting.adaptExcept Walk.Stop.failed).bind
    intro action s₁ leaving
    cases action with
    | «continue» =>
      apply Framed.look
      apply (visitEdges_framed ih fuel _).bind
      intro _ s₂ _
      exact .pure leaving_continue
    | skip | remove => exact .pure leaving

theorem run_framed (options : Options) (t : Tree) :
    Framed (fun _ _ => True) t (run options t) := by
  apply (visit_framed options (fuel t) ⟨t, {}⟩ t.root).bind
  intro action s leaving
  cases action with
  | remove =>
    obtain ⟨same, indents⟩ := leaving rfl
    refine leaveHole_framed ?_
    rw [same]
    exact indents
  | «continue» | skip => exact .pure trivial

end Walk

end Watched

end Desugar

namespace Tree

variable {options : Options} {t : Tree}

/-- A sequence that is reached loses all of its indentation. -/
theorem list_eq_lasting {s : Walk.State Desugar.Tally} {list : ListId}
    (source : t.IsRead ∨ t.IsLowered ∨ t.WellOwned) (ran : Desugar.run options t = .ok () s)
    (reachable : t.Reachable (.list list)) : s.tree.list list = t.lasting (t.list list) := by
  have well := wellOwned_of_source source
  obtain ⟨term, footprint, owns⟩ := well.owned.exists_owns
  obtain ⟨trail, course, _⟩ := Desugar.exists_course owns ran
  exact course.list_eq owns.inside (owns.mem_of_reachable reachable)

/-- The frame of a desugaring. Between any two stores that it passes through, from the one
it is given to the one in which it succeeds or fails, nothing is given up, the root stays,
a node that is neither rewritten nor in braces stays as it is, and sequences lose nothing
but indentation. A generic node is in the end where it was, as it was, or has been moved
out of the braces that held it. If the desugaring of a tree that was read or lowered, or of
any that is well owned, succeeds, then the sequences of the tree have lost all of their
indentation. -/
theorem desugar_frames (options : Options) (t : Tree) :
    (Desugar.Watched.run options t).1 = Desugar.run options t ∧
    (Walk.Watched.history t (Desugar.Watched.run options t)).Pairwise Frames ∧
    t.Frames (Walk.final (Desugar.run options t)) ∧
    (∀ id kind fields, t.node id = .generic kind fields →
      ∃ other, (Walk.final (Desugar.run options t)).node other = .generic kind fields ∧
        (other = id ∨ t.InBraces id)) ∧
    (t.IsRead ∨ t.IsLowered ∨ t.WellOwned → ∀ s, Desugar.run options t = .ok () s →
      ∀ list, t.Reachable (.list list) → s.tree.list list = t.lasting (t.list list)) := by
  have same := Desugar.Watched.run_fst options t
  have framed := Desugar.Watched.run_framed options t
  have evolves : t.Evolves (Walk.final (Desugar.run options t)) := same ▸ framed.evolves
  refine ⟨same, framed.pairwise, evolves.frames, ?_, fun source s ran list reachable =>
    list_eq_lasting source ran reachable⟩
  intro id kind fields found
  by_cases held : t.InBraces id
  · obtain ⟨other, moved⟩ := evolves.present id (by rw [found]; exact not_false)
      (by rw [found]; rintro ⟨⟩)
    exact ⟨other, moved.trans found, .inr held⟩
  · have inside : t.Contains (.node id) := contains_of_ne_hole found (by rintro ⟨⟩)
    have kept := evolves.node_eq inside found not_false held
    exact ⟨id, kept, .inl rfl⟩

/-- The element `<a>⏎<></></a>`. -/
def elementAroundFragment : Term :=
  ⟨.jsxElement ⟨.jsxIdentifier "a"⟩ [] [⟨.jsxText "\n"⟩, .generic "JSXFragment" []] false⟩

/-- The indentation before a fragment is gone when the desugaring fails at the fragment,
and the fragment is as it was. With nothing to fail at, all indentation goes. -/
theorem desugar_frames_elementAroundFragment :
    (∃ stop s, Desugar.run {} (ofTerm elementAroundFragment) = .error stop s ∧
      (ofTerm elementAroundFragment).Frames s.tree ∧
      (ofTerm elementAroundFragment).list ⟨1⟩ = [⟨2⟩, ⟨3⟩] ∧ s.tree.list ⟨1⟩ = [⟨3⟩] ∧
      (s.tree.node ⟨3⟩).kind = "JSXFragment") ∧
    ∃ s, Desugar.run {} (ofTerm Term.nestedElement) = .ok () s ∧
      (ofTerm Term.nestedElement).Frames s.tree ∧
      (ofTerm Term.nestedElement).list ⟨4⟩ = [⟨13⟩, ⟨14⟩, ⟨16⟩] ∧
      s.tree.list ⟨4⟩ = [⟨14⟩, ⟨16⟩] := by
  constructor
  · have frames := (desugar_frames {} (ofTerm elementAroundFragment)).2.2.1
    have fails : (Tree.desugar {} (ofTerm elementAroundFragment)).toOption.isNone = true := by
      decide +kernel
    have before : (ofTerm elementAroundFragment).list ⟨1⟩ = [⟨2⟩, ⟨3⟩] := by decide +kernel
    have left : (Walk.final (Desugar.run {} (ofTerm elementAroundFragment))).list ⟨1⟩ = [⟨3⟩] := by
      decide +kernel
    have kept : ((Walk.final (Desugar.run {} (ofTerm elementAroundFragment))).node ⟨3⟩).kind =
        "JSXFragment" := by
      decide +kernel
    cases ran : Desugar.run {} (ofTerm elementAroundFragment) with
    | ok _ s =>
      rw [Tree.desugar, ran] at fails
      cases fails
    | error stop s =>
      rw [ran] at frames left kept
      exact ⟨stop, s, rfl, frames, before, left, kept⟩
  · have isRead := isRead_nestedElement
    have desugars : Term.nestedElement.desugar {} = .ok Term.nestedCall := rfl
    obtain ⟨t', _, succeeds, _⟩ := exists_desugar_ofTerm desugars
    obtain ⟨s, ran, rfl⟩ := exists_run_of_desugar succeeds
    obtain ⟨_, _, frames, _, lists⟩ := desugar_frames {} (ofTerm Term.nestedElement)
    have below : (ofTerm Term.nestedElement).Reachable (.list ⟨4⟩) := by
      refine .single ?_
      change _ ∈ (ofTerm Term.nestedElement).below (.node (ofTerm Term.nestedElement).root)
      decide +kernel
    have items : (ofTerm Term.nestedElement).list ⟨4⟩ = [⟨13⟩, ⟨14⟩, ⟨16⟩] := by decide +kernel
    have lasting : (ofTerm Term.nestedElement).lasting [⟨13⟩, ⟨14⟩, ⟨16⟩] = [⟨14⟩, ⟨16⟩] := by
      decide +kernel
    have list := lists (.inl isRead) s ran ⟨4⟩ below
    rw [items, lasting] at list
    rw [ran] at frames
    exact ⟨s, ran, frames, items, list⟩

end Tree

end JsxFactory
