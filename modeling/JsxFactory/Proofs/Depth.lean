/-
# How far down a walk goes

A walk of a tree needs a step down for each node that lies below another one
after both have been entered, and a step along for each item of a sequence.
Entering an element puts up to three nodes between the element and what was
below it, so four steps for each node of a term are enough. With enough steps
given, an argument about desugaring may assume its statement for the children of what
stands there after entering.
-/

import JsxFactory.Proofs.Desugaring
import JsxFactory.Proofs.Footprint

namespace JsxFactory

namespace Term

variable {options : Options} {fuel more : Nat} {term : Term} {node : Node Term (List Term)}

/-- Four steps for each level of a term, and as many for each item of a
sequence as are left below it. -/
inductive Fits : Nat → Term → Prop
  | mk {fuel : Nat} {node : Node Term (List Term)} :
    (∀ part ∈ node.edges, part.items.length ≤ fuel) →
    (∀ inner ∈ node.children, Fits fuel inner) →
    Fits (fuel + 4) ⟨node⟩

theorem Fits.mono (fits : Fits fuel term) (le : fuel ≤ more) : Fits more term := by
  induction fits generalizing more with
  | @mk fuel node short _ ih =>
    obtain ⟨less, rfl⟩ : ∃ less, more = less + 4 := ⟨more - 4, by omega⟩
    have le' : fuel ≤ less := by omega
    exact mk (fun part mem => Nat.le_trans (short part mem) le') fun inner mem => ih inner mem le'

theorem Fits.four_le (fits : Fits fuel term) : 4 ≤ fuel := by
  cases fits
  exact Nat.le_add_left ..

/-- Some number of steps is large enough for any sequence of terms, if there is
one for each. -/
theorem exists_fits_all {terms : List Term} (each : ∀ inner ∈ terms, ∃ fuel, Fits fuel inner) :
    ∃ fuel, ∀ inner ∈ terms, Fits fuel inner := by
  induction terms with
  | nil => exact ⟨0, by simp⟩
  | cons term rest ih =>
    obtain ⟨first, head⟩ := each term (by simp)
    obtain ⟨second, tail⟩ := ih fun inner mem => each inner (by simp [mem])
    -- The sum serves for both, as more steps do no harm.
    refine ⟨first + second, fun inner mem => ?_⟩
    obtain rfl | mem := List.mem_cons.mp mem
    · exact head.mono (Nat.le_add_right ..)
    · exact (tail inner mem).mono (Nat.le_add_left ..)

theorem exists_fits (term : Term) : ∃ fuel, Fits fuel term := by
  induction term using Term.induction with
  | mk node ih =>
    obtain ⟨fuel, all⟩ := exists_fits_all ih
    refine ⟨fuel + node.children.length + 4, .mk ?_ ?_⟩
    · intro part mem
      have sublist : part.items.Sublist node.children :=
        List.sublist_flatten_of_mem (List.mem_map_of_mem mem)
      exact Nat.le_add_left_of_le sublist.length_le
    · exact fun inner mem => (all inner mem).mono (Nat.le_add_right ..)

/-- The steps down and along that a walk takes below a term that is entered on
the way. -/
def Enough (options : Options) : Nat → Term → Prop
  | 0, _ => False
  | fuel + 1, term => ∀ entered, enter options term = pure entered → ∀ part ∈ entered.edges,
      part.items.length < fuel ∧ ∀ inner ∈ part.items, Enough options fuel inner

theorem Enough.intro (same : enter options ⟨node⟩ = pure node)
    (parts : ∀ part ∈ node.edges,
      part.items.length < fuel ∧ ∀ inner ∈ part.items, Enough options fuel inner) :
    Enough options (fuel + 1) ⟨node⟩ := by
  intro entered succeeds
  rw [same] at succeeds
  cases succeeds
  exact parts

theorem enough_spelled (quoted : Bool) (name : String) :
    Enough options (fuel + 1) (spelled quoted name) := by
  cases quoted <;> exact .intro rfl (by simp [Node.edges, Node.text])

theorem enough_propertyKey {key : Term} (supported : checkKey key = pure ()) :
    Enough options (fuel + 1) (propertyKey options key) := by
  obtain ⟨node⟩ := key
  cases node with
  | jsxIdentifier name => exact enough_spelled _ name
  | jsxAttribute _ value => cases value <;> cases supported
  | _ => cases supported

/-- What the property or the spread for an entry holds is what the entry holds,
or a leaf. -/
theorem enough_entryProperty {entry : Term} (supported : checkEntry entry = pure ())
    (fits : Fits fuel entry)
    (below : ∀ inner, Fits fuel inner → Enough options (fuel + 1) inner) :
    Enough options (fuel + 2) (entryProperty options entry) := by
  cases fits with
  | @mk less node short all =>
    have held : ∀ inner ∈ node.children, Enough options (less + 4 + 1) inner :=
      fun inner mem => below inner ((all inner mem).mono (Nat.le_add_right ..))
    cases node with
    | jsxAttribute key value =>
      obtain ⟨_, supportedKey, _⟩ := ok_of_bind supported
      have enoughKey : Enough options (less + 4 + 1) (propertyKey options key) :=
        enough_propertyKey supportedKey
      have enoughValue : Enough options (less + 4 + 1) (value.getD trueValue) := by
        cases value with
        | none => exact .intro rfl (by simp [Node.edges])
        | some value => exact held value (by simp [Node.children, Node.edges])
      exact .intro rfl (by simp [Node.edges, Node.plainProperty, enoughKey, enoughValue])
    | jsxSpreadAttribute argument =>
      have enoughArgument := held argument (by simp [Node.children, Node.edges])
      exact .intro rfl (by simp [Node.edges, enoughArgument])
    | _ => cases supported

section Element

variable {name : Term} {attributes children : List Term}

theorem enough_tagArgument (enough : Enough options (fuel + 1) name) :
    Enough options (fuel + 1) (tagArgument options name name) := by
  obtain ⟨node⟩ := name
  cases node with
  | jsxIdentifier | identifier => exact enough_spelled _ _
  | _ => exact enough

theorem enough_attributesArgument (supported : attributes.forM checkEntry = pure ())
    (short : attributes.length ≤ fuel) (fits : ∀ entry ∈ attributes, Fits fuel entry)
    (below : ∀ inner, Fits fuel inner → Enough options (fuel + 1) inner) :
    Enough options (fuel + 3) (attributesArgument (attributes.map (entryProperty options))) := by
  cases attributes with
  | nil => exact .intro rfl (by simp [Node.edges])
  | cons entry rest =>
    refine .intro rfl ?_
    simp only [Node.edges, List.forall_mem_singleton, Edge.items_list, List.length_map,
      List.forall_mem_map]
    refine ⟨by omega, fun entry mem => ?_⟩
    exact enough_entryProperty (forM_succeeds_iff.mp supported entry mem) (fits entry mem) below

theorem enough_childrenArgument (short : children.length ≤ fuel)
    (enough : ∀ child ∈ children, Enough options (fuel + 2) child) :
    ∀ argument ∈ childrenArgument children children, Enough options (fuel + 3) argument := by
  cases children with
  | nil => simp [childrenArgument]
  | cons child rest =>
    simp only [childrenArgument, List.isEmpty_cons]
    refine List.forall_mem_singleton.mpr (.intro rfl ?_)
    simp only [Node.edges, List.forall_mem_singleton, Edge.items_list]
    exact ⟨by omega, enough⟩

theorem length_childrenArgument_le (children items : List Term) :
    (childrenArgument children items).length ≤ 1 := by
  cases children <;> simp [childrenArgument]

/-- What fitted below an element is enough below the call that takes its place,
where each of its parts lies up to three nodes deeper. -/
theorem enough_factoryCall (supported : attributes.forM checkEntry = pure ())
    (fitsName : Fits fuel name) (shortEntries : attributes.length ≤ fuel)
    (fitsEntries : ∀ entry ∈ attributes, Fits fuel entry) (shortChildren : children.length ≤ fuel)
    (fitsChildren : ∀ child ∈ children, Fits fuel child)
    (below : ∀ extra, extra ≤ 3 → ∀ inner, Fits fuel inner → Enough options (fuel + extra) inner) :
    ∀ part ∈ (factoryCall options (tagArgument options name name)
        (attributesArgument (attributes.map (entryProperty options)))
        (childrenArgument children children)).edges,
      part.items.length < fuel + 3 ∧ ∀ inner ∈ part.items, Enough options (fuel + 3) inner := by
  have enoughTag := enough_tagArgument (below 3 (by omega) name fitsName)
  -- A value or a spread lies below its property and the object.
  have enoughAttributes := enough_attributesArgument supported shortEntries fitsEntries
    (below 1 (by omega))
  -- A child lies below the array.
  have enoughChildren := enough_childrenArgument shortChildren
    fun child mem => below 2 (by omega) child (fitsChildren child mem)
  have enoughCallee : Enough options (fuel + 3) (identifier options.factory) :=
    .intro rfl (by simp [Node.edges])
  -- The call has at most three arguments, and the name alone takes four steps.
  have positive := fitsName.four_le
  have few := length_childrenArgument_le children children
  simp only [factoryCall, Node.edges, List.forall_mem_cons, Edge.items_node, Edge.items_list,
    List.length_cons, List.length_nil]
  exact ⟨⟨by omega, enoughCallee, by simp⟩,
    ⟨by omega, enoughTag, enoughAttributes, enoughChildren⟩, by simp⟩

end Element

/-- What fits a number of steps needs no more of them. -/
theorem Fits.enough (fits : Fits fuel term) : Enough options fuel term := by
  -- Not by induction on `Fits`: what entering adds lies between a term and its children.
  induction fuel using Nat.strongRecOn generalizing term with
  | _ fuel ih =>
    cases fits with
    | @mk less node short all =>
      have below : ∀ extra, extra ≤ 3 → ∀ inner, Fits less inner →
          Enough options (less + extra) inner :=
        fun extra le inner fits => ih (less + extra) (by omega) (fits.mono (by omega))
      intro entered succeeds
      obtain ⟨name, attributes, children, selfClosing, rfl, tag, entries, rfl⟩ |
        ⟨⟨entered⟩, rfl, bare, rfl⟩ | same := enter_cases options succeeds
      · simp only [Node.edges, List.forall_mem_cons, Edge.items_list] at short
        simp only [Node.children, Node.edges, List.flatMap_cons, List.forall_mem_append,
          Edge.items_node, Edge.items_list, List.forall_mem_singleton] at all
        obtain ⟨_, shortEntries, shortChildren, _⟩ := short
        obtain ⟨fitsName, fitsEntries, fitsChildren, _⟩ := all
        exact enough_factoryCall entries fitsName shortEntries fitsEntries shortChildren
          fitsChildren below
      · -- The expression moves up, so what is below it is as deep as before.
        intro part mem
        have fits := all ⟨entered⟩ (by simp [Node.children, Node.edges])
        cases fits with
        | @mk fewer _ short all =>
          refine ⟨Nat.lt_of_le_of_lt (short part mem) (by omega), fun inner memInner => ?_⟩
          have memChildren : inner ∈ entered.children := List.mem_flatMap.mpr ⟨part, mem, memInner⟩
          exact below 3 (by omega) inner ((all inner memChildren).mono (by omega))
      · intro part mem
        rw [same] at mem
        refine ⟨Nat.lt_of_le_of_lt (short part mem) (by omega), fun inner memInner => ?_⟩
        have memChildren : inner ∈ node.children := List.mem_flatMap.mpr ⟨part, mem, memInner⟩
        exact below 3 (by omega) inner (all inner memChildren)

/-- What a term inherits from the children that it has after it was entered holds
of every term. -/
theorem induction_enter {motive : Term → Prop} (options : Options)
    (step : ∀ term, (∀ entered, enter options term = pure entered →
      ∀ inner ∈ entered.children, motive inner) → motive term) (term : Term) : motive term := by
  obtain ⟨fuel, fits⟩ := exists_fits term
  -- Any number of steps that is enough will do to count down from.
  have enough : Enough options fuel term := fits.enough
  clear fits
  induction fuel generalizing term with
  | zero => exact enough.elim
  | succ fuel ih =>
    refine step term fun entered succeeds inner mem => ?_
    obtain ⟨part, memEdges, memItems⟩ := List.mem_flatMap.mp mem
    exact ih inner ((enough entered succeeds part memEdges).2 inner memItems)

end Term

namespace Tree

variable {t : Tree} {places : List Place} {parts : List Part} {footprint : List Place}

theorem Represents.length_le {ids : List NodeId}
    (represents : t.Represents (ids.map .node) parts footprint) :
    parts.length ≤ nodeCount footprint := by
  induction ids generalizing parts footprint with
  | nil =>
    cases represents
    exact Nat.le_refl _
  | cons id ids ih =>
    cases represents with
    | node _ tail =>
      have := ih tail
      simp only [List.length_cons, nodeCount, nodeCount_append]
      omega

/-- Four steps for each node on its footprint are enough for a term. -/
theorem Represents.fits (represents : t.Represents places parts footprint) :
    ∀ part ∈ parts, part.items.length ≤ nodeCount footprint ∧
      ∀ inner ∈ part.items, inner.Fits (4 * nodeCount footprint) := by
  induction represents with
  | nil => simp
  | @node id parts others places below rest representsBelow _ ihBelow ihRest =>
    have alike := representsBelow.alike
    -- The four steps for the node come from its own place in the footprint.
    have fits : Term.Fits (4 * nodeCount below + 4) ⟨(t.node id).fill parts⟩ := by
      refine .mk ?_ ?_
      · intro part mem
        rw [Node.edges_fill alike] at mem
        have := (ihBelow part mem).1
        omega
      · intro inner mem
        obtain ⟨part, memEdges, memItems⟩ := List.mem_flatMap.mp mem
        rw [Node.edges_fill alike] at memEdges
        exact (ihBelow part memEdges).2 inner memItems
    simp only [nodeCount, nodeCount_append, List.forall_mem_cons, Edge.items_node,
      List.length_singleton]
    refine ⟨⟨by omega, fits.mono (by omega), by simp⟩, fun part mem => ?_⟩
    obtain ⟨short, all⟩ := ihRest part mem
    exact ⟨by omega, fun inner mem => (all inner mem).mono (by omega)⟩
  | @list id terms others places below rest representsBelow _ ihBelow ihRest =>
    have short := representsBelow.length_le
    rw [List.length_map] at short
    simp only [nodeCount, nodeCount_append, List.forall_mem_cons, Edge.items_list]
    refine ⟨⟨by omega, fun inner mem => ?_⟩, fun part mem => ?_⟩
    · have fits := (ihBelow (.node inner) (List.mem_map_of_mem mem)).2 inner (by simp)
      exact fits.mono (by omega)
    · obtain ⟨short, all⟩ := ihRest part mem
      exact ⟨by omega, fun inner mem => (all inner mem).mono (by omega)⟩

/-- The steps that desugaring a tree is given are enough for the term it owns. -/
theorem Owns.enough {id : NodeId} {term : Term} (owns : t.Owns [.node id] [.node term] footprint)
    (options : Options) : term.Enough options (Desugar.fuel t) := by
  have fits := (owns.represents.fits (.node term) (by simp)).2 term (by simp)
  have count := nodeCount_le_size owns.nodup owns.inside
  exact (fits.mono (by simp only [Desugar.fuel]; omega)).enough

end Tree

end JsxFactory
