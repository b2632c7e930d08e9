/-
# Desugaring what was written and read again

A tree may be written to a document and read again before it is desugared. The tree
that is read is another one: its places are numbered anew, and what was only absent
nodes in a generic node has become plain data. None of this can be told from what is
written after desugaring, nor from the problem that is reported.
-/

import JsxFactory.Json.Parser
import JsxFactory.Proofs.Canonical
import JsxFactory.Proofs.Shapes

namespace JsxFactory

namespace Term

section Binds

variable {ε α β γ δ : Type} {f : α → γ} {h : β → δ}

/-- Two steps whose results look alike may be followed by steps that make results
which look alike from such. -/
theorem map_bind_congr {first first' : Except ε α} {next next' : α → Except ε β}
    (same : first.map f = first'.map f)
    (sameNext : ∀ a a', f a = f a' → (next a).map h = (next' a').map h) :
    (first >>= next).map h = (first' >>= next').map h := by
  cases first with
  | error problem =>
    cases first' with
    | error problem' =>
      cases same
      rfl
    | ok a' => cases same
  | ok a =>
    cases first' with
    | error problem' => cases same
    | ok a' => exact sameNext a a' (Except.ok.inj same)

theorem map_pure_congr {b b' : β} (same : h b = h b') :
    (pure b : Except ε β).map h = (pure b' : Except ε β).map h :=
  congrArg Except.ok same

end Binds

/-! ## What reading again leaves as it is -/

theorem kind_reread (term : Term) : term.reread.kind = term.kind := by
  obtain ⟨node⟩ := term
  cases node with
  | jsxAttribute _ value => cases value <;> rfl
  | _ => rfl

theorem isIndentation_reread (term : Term) : term.reread.isIndentation = term.isIndentation := by
  obtain ⟨node⟩ := term
  cases node with
  | jsxAttribute _ value => cases value <;> rfl
  | _ => rfl

theorem checkTag_reread (name : Term) : checkTag name.reread = checkTag name := by
  obtain ⟨node⟩ := name
  cases node with
  | jsxAttribute _ value => cases value <;> rfl
  | _ => rfl

theorem checkKey_reread (key : Term) : checkKey key.reread = checkKey key := by
  obtain ⟨node⟩ := key
  cases node with
  | jsxAttribute _ value => cases value <;> rfl
  | _ => rfl

theorem checkValue_reread (value : Term) :
    checkValue (some value.reread) = checkValue (some value) := by
  obtain ⟨node⟩ := value
  cases node with
  | jsxAttribute _ value => cases value <;> rfl
  | _ => rfl

theorem checkEntry_reread (entry : Term) : checkEntry entry.reread = checkEntry entry := by
  obtain ⟨node⟩ := entry
  cases node with
  | jsxAttribute key value =>
    cases value with
    | none => simp only [reread, checkEntry, checkKey_reread]
    | some value => simp only [reread, checkEntry, checkKey_reread, checkValue_reread]
  | _ => rfl

theorem forM_checkEntry_rereadItems (entries : List Term) :
    (rereadItems entries).forM checkEntry = entries.forM checkEntry := by
  induction entries with
  | nil => rfl
  | cons entry rest ih =>
    change (checkEntry entry.reread >>= fun _ => (rereadItems rest).forM checkEntry) = _
    rw [checkEntry_reread, ih]
    rfl

/-! ## What is put together looks alike -/

theorem isEmpty_of_listToEstree {first second : List Term}
    (same : listToEstree first = listToEstree second) : first.isEmpty = second.isEmpty := by
  cases first <;> cases second <;> first | rfl | cases same

variable (options : Options)

theorem toEstree_tagArgument_reread {name dotted dotted' : Term}
    (same : dotted.toEstree = dotted'.toEstree) :
    (tagArgument options name.reread dotted).toEstree =
      (tagArgument options name dotted').toEstree := by
  obtain ⟨node⟩ := name
  cases node with
  | jsxIdentifier | identifier => rfl
  | jsxAttribute _ value => cases value <;> exact same
  | _ => exact same

theorem toEstree_propertyKey_reread (key : Term) :
    (propertyKey options key.reread).toEstree = (propertyKey options key).toEstree := by
  have same := toEstree_reread key
  obtain ⟨node⟩ := key
  cases node with
  | jsxIdentifier => rfl
  | jsxAttribute _ value => cases value <;> exact same
  | _ => exact same

theorem toEstree_attributesArgument {properties properties' : List Term}
    (same : listToEstree properties = listToEstree properties') :
    (attributesArgument properties).toEstree = (attributesArgument properties').toEstree := by
  rw [attributesArgument, attributesArgument, isEmpty_of_listToEstree same]
  cases properties'.isEmpty with
  | true => rfl
  | false => simp [toEstree, same]

theorem listToEstree_childrenArgument_reread (children : List Term) {items items' : List Term}
    (same : listToEstree items = listToEstree items') :
    listToEstree (childrenArgument (rereadItems children) items) =
      listToEstree (childrenArgument children items') := by
  rw [childrenArgument, childrenArgument,
    isEmpty_of_listToEstree (listToEstree_rereadItems children)]
  cases children.isEmpty with
  | true => rfl
  | false => simp [listToEstree, toEstree, same]

/-! ## Desugaring after reading again -/

@[simp] theorem desugar_hole : hole.desugar options = pure hole := rfl

/-- Absent nodes stay as they are. -/
theorem desugarItems_of_all_isHole {items : List Term} (absent : items.all isHole = true) :
    desugarItems options items = pure items := by
  induction items with
  | nil => rfl
  | cons item rest ih =>
    rw [List.all_cons, Bool.and_eq_true] at absent
    rw [eq_hole_of_isHole absent.1, desugarItems_cons options rfl, ih absent.2]
    rfl

mutual

/-- A term that was read again is desugared to what looks alike, or has the same
problem. -/
theorem desugar_reread : ∀ term : Term,
    (term.reread.desugar options).map toEstree = (term.desugar options).map toEstree
  | ⟨.hole⟩ | ⟨.jsxIdentifier _⟩ | ⟨.jsxText _⟩ | ⟨.identifier _⟩ | ⟨.literal _⟩ => rfl
  | ⟨.jsxElement name attributes children _⟩ => by
    rw [reread, desugar, desugar, checkTag_reread, forM_checkEntry_rereadItems]
    refine map_bind_congr (f := id) rfl fun _ _ _ => map_bind_congr (f := id) rfl fun _ _ _ => ?_
    refine map_bind_congr (desugar_reread name) fun tag tag' sameTag => ?_
    refine map_bind_congr (desugarEntries_reread attributes) fun entries entries' sameEntries => ?_
    refine map_bind_congr (desugarItems_reread children) fun items items' sameItems => ?_
    apply map_pure_congr
    simp only [factoryCall, toEstree, listToEstree, toEstree_tagArgument_reread options sameTag,
      toEstree_attributesArgument sameEntries,
      listToEstree_childrenArgument_reread children sameItems]
  | ⟨.jsxMember first second⟩ | ⟨.member first second _ _⟩ | ⟨.property first second _ _ _ _⟩ => by
    rw [reread, desugar, desugar]
    refine map_bind_congr (desugar_reread first) fun first first' sameFirst => ?_
    refine map_bind_congr (desugar_reread second) fun second second' sameSecond => ?_
    apply map_pure_congr
    rw [toEstree, toEstree, sameFirst, sameSecond]
  | ⟨.jsxAttribute name none⟩ => by
    rw [reread, desugar, desugar]
    refine map_bind_congr (desugar_reread name) fun name name' sameName => ?_
    apply map_pure_congr
    rw [toEstree, toEstree, sameName]
  | ⟨.jsxAttribute name (some value)⟩ => by
    rw [reread, desugar, desugar]
    refine map_bind_congr (desugar_reread name) fun name name' sameName => ?_
    refine map_bind_congr (desugar_reread value) fun value value' sameValue => ?_
    apply map_pure_congr
    rw [toEstree, toEstree, sameName, sameValue]
  | ⟨.jsxSpreadAttribute argument⟩ | ⟨.spread argument⟩ => by
    rw [reread, desugar, desugar]
    refine map_bind_congr (desugar_reread argument) fun argument argument' same => ?_
    apply map_pure_congr
    rw [toEstree, toEstree, same]
  | ⟨.jsxContainer expression⟩ => by
    have same := desugar_reread expression
    rw [reread, desugar, desugar, kind_reread]
    split
    · exact same
    · rfl
  | ⟨.object items⟩ | ⟨.array items⟩ => by
    rw [reread, desugar, desugar]
    refine map_bind_congr (desugarItems_reread items) fun items items' same => ?_
    apply map_pure_congr
    rw [toEstree, toEstree, same]
  | ⟨.call callee arguments _⟩ => by
    rw [reread, desugar, desugar]
    refine map_bind_congr (desugar_reread callee) fun callee callee' sameCallee => ?_
    refine map_bind_congr (desugarItems_reread arguments) fun items items' sameItems => ?_
    apply map_pure_congr
    rw [toEstree, toEstree, sameCallee, sameItems]
  | ⟨.generic kind fields⟩ => by
    have same := desugarFields_reread fields
    rw [reread, desugar, desugar]
    split
    · rfl
    · refine map_bind_congr same fun fields fields' sameFields => ?_
      apply map_pure_congr
      rw [toEstree, toEstree, sameFields]
termination_by structural term => term

theorem desugarItems_reread : ∀ items : List Term,
    (desugarItems options (rereadItems items)).map listToEstree =
      (desugarItems options items).map listToEstree
  | [] => rfl
  | item :: rest => by
    have sameItem := desugar_reread item
    have sameRest := desugarItems_reread rest
    rw [rereadItems, desugarItems, desugarItems, isIndentation_reread]
    split
    · exact sameRest
    · refine map_bind_congr sameItem fun first first' sameFirst => ?_
      refine map_bind_congr sameRest fun others others' sameOthers => ?_
      apply map_pure_congr
      rw [listToEstree, listToEstree, sameFirst, sameOthers]

theorem desugarEntries_reread : ∀ entries : List Term,
    (desugarEntries options (rereadItems entries)).map listToEstree =
      (desugarEntries options entries).map listToEstree
  | [] => rfl
  | ⟨.jsxAttribute key none⟩ :: rest => by
    rw [rereadItems, reread, desugarEntries, desugarEntries]
    refine map_bind_congr (desugarEntries_reread rest) fun others others' sameOthers => ?_
    apply map_pure_congr
    rw [listToEstree, listToEstree, sameOthers]
    simp only [Node.plainProperty, toEstree, toEstree_propertyKey_reread]
  | ⟨.jsxAttribute key (some value)⟩ :: rest => by
    rw [rereadItems, reread, desugarEntries, desugarEntries]
    refine map_bind_congr (desugar_reread value) fun value value' sameValue => ?_
    refine map_bind_congr (desugarEntries_reread rest) fun others others' sameOthers => ?_
    apply map_pure_congr
    rw [listToEstree, listToEstree, sameOthers]
    simp only [Node.plainProperty, toEstree, toEstree_propertyKey_reread, sameValue]
  | ⟨.jsxSpreadAttribute argument⟩ :: rest => by
    rw [rereadItems, reread, desugarEntries, desugarEntries]
    refine map_bind_congr (desugar_reread argument) fun argument argument' sameArgument => ?_
    refine map_bind_congr (desugarEntries_reread rest) fun others others' sameOthers => ?_
    apply map_pure_congr
    rw [listToEstree, listToEstree, sameOthers, toEstree, toEstree, sameArgument]
  -- Nothing else is an entry, whatever is in it.
  | ⟨.hole⟩ :: _ | ⟨.jsxElement ..⟩ :: _ | ⟨.jsxIdentifier _⟩ :: _ | ⟨.jsxMember ..⟩ :: _
  | ⟨.jsxContainer _⟩ :: _ | ⟨.jsxText _⟩ :: _ | ⟨.identifier _⟩ :: _ | ⟨.literal _⟩ :: _
  | ⟨.property ..⟩ :: _ | ⟨.spread _⟩ :: _ | ⟨.object _⟩ :: _ | ⟨.array _⟩ :: _
  | ⟨.call ..⟩ :: _ | ⟨.member ..⟩ :: _ | ⟨.generic ..⟩ :: _ => rfl

theorem desugarFields_reread : ∀ fields : List (String × Field Term (List Term)),
    (desugarFields options (rereadFields fields)).map fieldsToEstree =
      (desugarFields options fields).map fieldsToEstree
  | [] => rfl
  | (key, .node child) :: rest => by
    have sameChild := desugar_reread child
    have sameRest := desugarFields_reread rest
    rw [rereadFields]
    by_cases absent : child.isHole
    · rw [if_pos absent, eq_hole_of_isHole absent, desugarFields, desugarFields, desugar_hole,
        pure_bind]
      refine map_bind_congr sameRest fun others others' sameOthers => ?_
      apply map_pure_congr
      rw [fieldsToEstree, fieldsToEstree, sameOthers]
      rfl
    · rw [if_neg absent, desugarFields, desugarFields]
      refine map_bind_congr sameChild fun child child' sameChild => ?_
      refine map_bind_congr sameRest fun others others' sameOthers => ?_
      apply map_pure_congr
      rw [fieldsToEstree, fieldsToEstree, sameChild, sameOthers]
  | (key, .list children) :: rest => by
    have sameChildren := desugarItems_reread children
    have sameRest := desugarFields_reread rest
    rw [rereadFields]
    by_cases absent : children.all isHole
    · rw [if_pos absent, desugarFields, desugarFields, desugarItems_of_all_isHole options absent,
        pure_bind]
      refine map_bind_congr sameRest fun others others' sameOthers => ?_
      apply map_pure_congr
      rw [fieldsToEstree, fieldsToEstree, sameOthers]
    · rw [if_neg absent, desugarFields, desugarFields]
      refine map_bind_congr sameChildren fun children children' sameChildren => ?_
      refine map_bind_congr sameRest fun others others' sameOthers => ?_
      apply map_pure_congr
      rw [fieldsToEstree, fieldsToEstree, sameChildren, sameOthers]
  | (key, .value json) :: rest => by
    rw [rereadFields, desugarFields, desugarFields]
    refine map_bind_congr (desugarFields_reread rest) fun others others' sameOthers => ?_
    apply map_pure_congr
    rw [fieldsToEstree, fieldsToEstree, sameOthers]

end

end Term

/-! ## Parsed documents -/

namespace Json

/-- An object with a member set lists each key once if it did so before. -/
theorem Keyed.insert {members : List (String × Json)} {value : Json}
    (keyed : Keyed (.object members)) (key : String) (keyedValue : Keyed value) :
    Keyed (.object (insert key value members)) := by
  cases keyed with
  | object distinct values =>
    refine .object (nodup_insert distinct) fun member mem => ?_
    obtain rfl | mem := mem_of_mem_insert mem
    · exact keyedValue
    · exact values member mem

namespace Parser

mutual

theorem value_keyed : ∀ {fuel : Nat} {s rest : List Char} {json : Json},
    value fuel s = .ok (json, rest) → Keyed json
  | fuel + 1, s, rest, json, parses => by
    rw [value] at parses
    split at parses
    · cases parses
    · split_ifs at parses
      · obtain ⟨_, _, ⟨⟩⟩ := Estree.ok_of_map parses
        exact .null
      · obtain ⟨_, _, ⟨⟩⟩ := Estree.ok_of_map parses
        exact .bool true
      · obtain ⟨_, _, ⟨⟩⟩ := Estree.ok_of_map parses
        exact .bool false
      · obtain ⟨⟨text, _⟩, _, ⟨⟩⟩ := Estree.ok_of_map parses
        exact .string text
      · exact items_keyed (List.forall_mem_nil _) parses
      · have empty : Keyed (.object []) := .object List.nodup_nil (List.forall_mem_nil _)
        exact members_keyed empty parses
      · obtain ⟨⟨n, _⟩, _, ⟨⟩⟩ := Estree.ok_of_map parses
        exact .number n

theorem items_keyed : ∀ {fuel : Nat} {first : Bool} {done : List Json} {s rest : List Char}
    {json : Json}, (∀ item ∈ done, Keyed item) → items fuel first done s = .ok (json, rest) →
    Keyed json
  | fuel + 1, first, done, s, rest, json, keyed, parses => by
    rw [items] at parses
    split at parses
    · cases parses
    · cases parses
      exact .array fun item mem => keyed item (List.mem_reverse.mp mem)
    · split at parses
      · cases parses
      · rename_i item s' parsesItem
        refine items_keyed (List.forall_mem_cons.mpr ⟨value_keyed parsesItem, keyed⟩) parses

theorem members_keyed : ∀ {fuel : Nat} {first : Bool} {done : List (String × Json)}
    {s rest : List Char} {json : Json}, Keyed (.object done) →
    members fuel first done s = .ok (json, rest) → Keyed json
  | fuel + 1, first, done, s, rest, json, keyed, parses => by
    rw [members] at parses
    split at parses
    · cases parses
    · cases parses
      exact keyed
    · -- A key, a colon and a value, each of which may be missing.
      split at parses
      · cases parses
      · rename_i key _ _
        split at parses
        · cases parses
        · split at parses
          · cases parses
          · rename_i parsesValue
            exact members_keyed (keyed.insert key (value_keyed parsesValue)) parses

end

end Parser

/-- Objects that are parsed from a text list each key once, whatever the text. -/
theorem Keyed.of_parse {text : String} {document : Json} (parses : parse text = .ok document) :
    Keyed document := by
  obtain ⟨⟨value, rest⟩, parsesValue, finishes⟩ := Term.ok_of_bind parses
  obtain ⟨_, _, same⟩ := Term.ok_of_bind finishes
  cases same
  exact Parser.value_keyed parsesValue

end Json

namespace Tree

variable {t : Tree}

/-- A tree that owns a legible term is written as the document of the term, and that is read
again, to the tree of the term with nothing but absent nodes changed. -/
theorem Owns.toEstree_reread {term : Term} {footprint : List Place}
    (owns : t.Owns [.node t.root] [.node term] footprint)
    (legible : term.Everywhere (Term.Legible True)) :
    t.toEstree? = some term.toEstree ∧ ofEstree term.toEstree = .ok (ofTerm term.reread) :=
  ⟨owns.toEstree?, ofEstree_ok_iff.mpr ⟨term.reread, Estree.read_toEstree legible, rfl⟩⟩

/-- Desugared are two trees to the same: to trees that are written alike, or with the
same problem. -/
def SameOutcome (first second : Except (Walk.Stop DesugarError) Tree) : Prop :=
  (∃ t t' written, first = .ok t ∧ second = .ok t' ∧ t.toEstree? = some written ∧
    t'.toEstree? = some written) ∨
  ∃ problem, first = .error (.failed problem) ∧ second = .error (.failed problem)

theorem Owns.sameOutcome {t' : Tree} {term term' : Term} {footprint footprint' : List Place}
    (owns : t.Owns [.node t.root] [.node term] footprint)
    (owns' : t'.Owns [.node t'.root] [.node term'] footprint') (options : Options)
    (same : (term'.desugar options).map Term.toEstree = (term.desugar options).map Term.toEstree) :
    SameOutcome (t.desugar options) (t'.desugar options) := by
  obtain ⟨t₁, result, _, desugars, expected, owns₁⟩ | ⟨problem, fails, expected⟩ :=
    owns.desugar_cases options
  · obtain ⟨t₂, result', _, desugars', expected', owns₂⟩ | ⟨problem', fails', expected'⟩ :=
      owns'.desugar_cases options
    · rw [expected, expected'] at same
      have written : result'.toEstree = result.toEstree := Except.ok.inj same
      exact .inl ⟨t₁, t₂, result.toEstree, desugars, desugars', owns₁.toEstree?,
        written ▸ owns₂.toEstree?⟩
    · rw [expected, expected'] at same
      cases same
  · obtain ⟨t₂, result', _, desugars', expected', owns₂⟩ | ⟨problem', fails', expected'⟩ :=
      owns'.desugar_cases options
    · rw [expected, expected'] at same
      cases same
    · rw [expected, expected'] at same
      cases same
      exact .inr ⟨problem, fails, fails'⟩

/-- The tree is read from a document whose objects list each key once, as those of
a parsed text do. -/
def IsReadKeyed (t : Tree) : Prop :=
  ∃ document : Json, document.Keyed ∧ ofEstree document = .ok t

/-- The tree is owned, and its term may be read from a document whose objects list each
key once. -/
def OwnsLegible (t : Tree) : Prop :=
  ∃ term footprint, t.Owns [.node t.root] [.node term] footprint ∧
    term.Everywhere (Term.Legible True)

theorem IsReadKeyed.ownsLegible (isRead : t.IsReadKeyed) : t.OwnsLegible := by
  obtain ⟨document, keyed, accepted⟩ := isRead
  obtain ⟨term, reads, rfl⟩ := ofEstree_ok_iff.mp accepted
  obtain ⟨footprint, owns⟩ := owns_ofTerm term
  exact ⟨term, footprint, owns, Estree.everywhere_legible_of_read (fun _ => keyed) reads⟩

theorem IsLowered.ownsLegible (isLowered : t.IsLowered) : t.OwnsLegible := by
  obtain ⟨program, rfl⟩ := isLowered
  obtain ⟨footprint, owns⟩ := owns_ofProgram program
  exact ⟨_, footprint, owns, program.everywhere_legible⟩

/-- A tree that was read or lowered, or that owns a legible term in some other way, can be
written and read again, and desugaring the one or the other, with whatever options, ends
alike: in trees that are written as the same document, or in the same problem. -/
theorem sameOutcome_of_toEstree? (source : t.IsReadKeyed ∨ t.IsLowered ∨ t.OwnsLegible) :
    ∃ document again, t.toEstree? = some document ∧ ofEstree document = .ok again ∧
      ∀ options, SameOutcome (t.desugar options) (again.desugar options) := by
  have ownsLegible : t.OwnsLegible := by
    obtain isRead | isLowered | ownsLegible := source
    · exact isRead.ownsLegible
    · exact isLowered.ownsLegible
    · exact ownsLegible
  obtain ⟨term, _, owns, legible⟩ := ownsLegible
  obtain ⟨_, ownsAgain⟩ := owns_ofTerm term.reread
  obtain ⟨writes, reads⟩ := owns.toEstree_reread legible
  exact ⟨term.toEstree, ofTerm term.reread, writes, reads,
    fun options => owns.sameOutcome ownsAgain options (Term.desugar_reread options term)⟩

/-- The program `<a>{x}</a>` after a statement that cannot be lowered. -/
def elementAfterUnsupported : Program :=
  ⟨.module, [.expression ⟨0, 8⟩ (.unsupported ⟨0, 7⟩),
    .expression ⟨9, 19⟩ (.element (.mk ⟨9, 19⟩ (.dotted (.simple ⟨10, 11⟩ "a")) []
      [.container ⟨12, 15⟩ (some (.identifier ⟨13, 14⟩ "x"))] true))]⟩

theorem sameOutcome_of_toEstree?_elementAfterUnsupported :
    (ofProgram elementAfterUnsupported).value.IsLowered ∧
      (∃ document again, (ofProgram elementAfterUnsupported).value.toEstree? = some document ∧
        ofEstree document = .ok again ∧
        ∀ options, SameOutcome ((ofProgram elementAfterUnsupported).value.desugar options)
          (again.desugar options)) ∧
    ∃ t, ofEstree (.object looseStatement) = .ok t ∧ t.IsReadKeyed ∧ t.OwnsLegible ∧
      ∃ document again, t.toEstree? = some document ∧ ofEstree document = .ok again ∧
        ∀ options, SameOutcome (t.desugar options) (again.desugar options) := by
  have keyed : (Json.object looseStatement).Keyed := by
    refine .object (by decide) ?_
    simp only [looseStatement, List.forall_mem_cons, List.not_mem_nil, false_imp_iff,
      implies_true, and_true]
    refine ⟨.number _, .string _, .object (by decide) ?_, .array ?_⟩
    · simp only [List.forall_mem_cons, List.not_mem_nil, false_imp_iff, implies_true, and_true]
      exact ⟨.string _, .string _, .string _, .number _⟩
    · simp only [List.forall_mem_cons, List.not_mem_nil, false_imp_iff, implies_true, and_true]
      exact ⟨.null, .object (by decide) (by simpa using Json.Keyed.null)⟩
  obtain ⟨t, accepted⟩ := exists_ofEstree_looseStatement
  have isRead : t.IsReadKeyed := ⟨_, keyed, accepted⟩
  exact ⟨⟨_, rfl⟩, sameOutcome_of_toEstree? (.inr (.inl ⟨_, rfl⟩)), t, accepted, isRead,
    isRead.ownsLegible, sameOutcome_of_toEstree? (.inl isRead)⟩

end Tree

end JsxFactory
