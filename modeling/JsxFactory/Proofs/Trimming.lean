/-
# Text between tags

Text that only lays out the source is taken out. It matches a pattern, `[ \t]*[\r\n][ \t\r\n]*`,
and that is to say that it holds nothing but spaces, tabs, carriage returns and line feeds, with
at least one of the latter two. Any other text stays, without the whitespace at its two ends.

What counts as whitespace is not the same in the two rules. A text of other whitespace, or of
blanks on one line, is not layout; all of it is trimmed, and an empty text is left.
-/

import JsxFactory.Proofs.Entering
import JsxFactory.Proofs.Evolving
import Mathlib.Computability.RegularExpressions
import Mathlib.Data.List.DropRight

namespace JsxFactory

namespace Text

open RegularExpression (char star)

/-! ## Layout -/

/-- Only spaces, tabs, carriage returns and line feeds, and one of the latter two at least. -/
def Layout (s : List Char) : Prop :=
  (∀ c ∈ s, c ∈ [' ', '\t', '\r', '\n']) ∧ ∃ c ∈ s, c ∈ ['\r', '\n']

/-- One of some characters. -/
def oneOf : List Char → RegularExpression Char
  | [] => 0
  | c :: cs => char c + oneOf cs

/-- The pattern of layout. -/
def layoutPattern : RegularExpression Char :=
  star (oneOf [' ', '\t']) * (oneOf ['\r', '\n'] * star (oneOf [' ', '\t', '\r', '\n']))

theorem oneOf_rmatch_iff {cs s : List Char} : (oneOf cs).rmatch s ↔ ∃ c ∈ cs, s = [c] := by
  induction cs with
  | nil => simp [oneOf]
  | cons c cs ih =>
    rw [oneOf, RegularExpression.add_rmatch_iff, RegularExpression.char_rmatch_iff, ih]
    simp

theorem star_oneOf_rmatch_iff {cs s : List Char} :
    (star (oneOf cs)).rmatch s ↔ ∀ c ∈ s, c ∈ cs := by
  rw [RegularExpression.star_rmatch_iff]
  constructor
  · rintro ⟨pieces, rfl, each⟩ c mem
    obtain ⟨piece, memPieces, mem⟩ := List.mem_flatten.mp mem
    obtain ⟨d, memCs, rfl⟩ := oneOf_rmatch_iff.mp (each piece memPieces).2
    exact List.mem_singleton.mp mem ▸ memCs
  · intro all
    refine ⟨s.map ([·]), by simp [← List.flatMap_def], fun piece mem => ?_⟩
    obtain ⟨c, memS, rfl⟩ := List.mem_map.mp mem
    exact ⟨List.cons_ne_nil _ _, oneOf_rmatch_iff.mpr ⟨c, all c memS, rfl⟩⟩

/-- The text is split at a line break, with blanks before it and layout after it. -/
def SplitAt (blanks : List Char) (c : Char) (rest s : List Char) : Prop :=
  s = blanks ++ c :: rest ∧ (∀ b ∈ blanks, b ∈ [' ', '\t']) ∧ c ∈ ['\r', '\n'] ∧
    ∀ d ∈ rest, d ∈ [' ', '\t', '\r', '\n']

theorem layoutPattern_rmatch_iff {s : List Char} :
    layoutPattern.rmatch s ↔ ∃ blanks c rest, SplitAt blanks c rest s := by
  simp only [layoutPattern, RegularExpression.mul_rmatch_iff, oneOf_rmatch_iff,
    star_oneOf_rmatch_iff]
  constructor
  · rintro ⟨blanks, _, rfl, allBlank, _, rest, rfl, ⟨c, lineBreak, rfl⟩, allLayout⟩
    exact ⟨blanks, c, rest, rfl, allBlank, lineBreak, allLayout⟩
  · rintro ⟨blanks, c, rest, rfl, allBlank, lineBreak, allLayout⟩
    exact ⟨blanks, _, rfl, allBlank, [c], rest, rfl, ⟨c, lineBreak, rfl⟩, allLayout⟩

theorem isBlank_iff {c : Char} : isBlank c = true ↔ c ∈ [' ', '\t'] := by
  simp [isBlank]

theorem isLineBreak_iff {c : Char} : isLineBreak c = true ↔ c ∈ ['\r', '\n'] := by
  simp [isLineBreak, or_comm]

theorem isBlank_or_isLineBreak {c : Char} :
    (isBlank c || isLineBreak c) = true ↔ c ∈ [' ', '\t', '\r', '\n'] := by
  rw [Bool.or_eq_true, isBlank_iff, isLineBreak_iff]
  simp [or_assoc]

/-- No blank is a line break, so a text is split where the blanks at its start end. -/
theorem isIndentation_iff_split {s : String} :
    isIndentation s = true ↔ ∃ blanks c rest, SplitAt blanks c rest s.toList := by
  constructor
  · intro holds
    rw [isIndentation] at holds
    split at holds
    next => cases holds
    next c rest ends =>
      obtain ⟨lineBreak, all⟩ := Bool.and_eq_true_iff.mp holds
      refine ⟨s.toList.takeWhile isBlank, c, rest, ?_, fun b mem => ?_,
        isLineBreak_iff.mp lineBreak, fun d mem => ?_⟩
      · rw [← ends, List.takeWhile_append_dropWhile]
      · exact isBlank_iff.mp (List.mem_takeWhile_imp mem)
      · exact isBlank_or_isLineBreak.mp (List.all_eq_true.mp all d mem)
  · rintro ⟨blanks, c, rest, split, allBlank, lineBreak, allLayout⟩
    have stops : isBlank c = false := by
      rcases List.mem_pair.mp lineBreak with rfl | rfl <;> rfl
    -- The blanks that are dropped are all those before the line break.
    have ends : s.toList.dropWhile isBlank = c :: rest := by
      rw [split, List.dropWhile_append_of_pos fun b mem => isBlank_iff.mpr (allBlank b mem),
        List.dropWhile_cons_of_neg (by simp [stops])]
    rw [isIndentation, ends]
    exact Bool.and_eq_true_iff.mpr ⟨isLineBreak_iff.mpr lineBreak,
      List.all_eq_true.mpr fun d mem => isBlank_or_isLineBreak.mpr (allLayout d mem)⟩

/-- A text is layout if it is split at its first line break. -/
theorem layout_iff_split {s : List Char} :
    Layout s ↔ ∃ blanks c rest, SplitAt blanks c rest s := by
  constructor
  · rintro ⟨all, c, mem, lineBreak⟩
    induction s with
    | nil => cases mem
    | cons d s ih =>
      -- What stands before the first line break can only be blanks.
      by_cases here : d ∈ ['\r', '\n']
      · exact ⟨[], d, s, rfl, by simp, here, fun e mem => all e (List.mem_cons_of_mem d mem)⟩
      · have later : c ∈ s := by
          rcases List.mem_cons.mp mem with rfl | later
          · exact absurd lineBreak here
          · exact later
        have blank : d ∈ [' ', '\t'] :=
          (List.mem_append.mp (all d List.mem_cons_self)).resolve_right here
        obtain ⟨blanks, e, rest, rfl, allBlank, split⟩ :=
          ih (fun e mem => all e (List.mem_cons_of_mem d mem)) later
        exact ⟨d :: blanks, e, rest, rfl, List.forall_mem_cons.mpr ⟨blank, allBlank⟩, split⟩
  · rintro ⟨blanks, c, rest, rfl, allBlank, lineBreak, allLayout⟩
    refine ⟨fun d mem => ?_, c, by simp, lineBreak⟩
    rcases List.mem_append.mp mem with before | mem
    · exact List.mem_append_left ['\r', '\n'] (allBlank d before)
    · rcases List.mem_cons.mp mem with rfl | after
      · exact List.mem_append_right [' ', '\t'] lineBreak
      · exact allLayout d after

/-- Indentation is what matches the pattern. -/
theorem isIndentation_eq_rmatch (s : String) : isIndentation s = layoutPattern.rmatch s.toList := by
  rw [Bool.eq_iff_iff, isIndentation_iff_split, layoutPattern_rmatch_iff]

theorem layoutPattern_rmatch_iff_layout {s : List Char} : layoutPattern.rmatch s ↔ Layout s := by
  rw [layoutPattern_rmatch_iff, layout_iff_split]

instance (s : List Char) : Decidable (Layout s) :=
  decidable_of_iff _ layoutPattern_rmatch_iff_layout

theorem isIndentation_iff_layout {s : String} : isIndentation s = true ↔ Layout s.toList := by
  rw [isIndentation_eq_rmatch, layoutPattern_rmatch_iff_layout]

/-! ## Trimming -/

/-- The code points of the characters with the property `White_Space`. -/
def whiteSpace : List Nat :=
  [0x9, 0xA, 0xB, 0xC, 0xD, 0x20, 0x85, 0xA0, 0x1680, 0x2000, 0x2001, 0x2002, 0x2003, 0x2004,
    0x2005, 0x2006, 0x2007, 0x2008, 0x2009, 0x200A, 0x2028, 0x2029, 0x202F, 0x205F, 0x3000]

/-- A character with that property, or the byte order mark. -/
def Trimmable (c : Char) : Prop :=
  c.toNat ∈ whiteSpace ∨ c = '\uFEFF'

theorem isWhitespace_iff {c : Char} : isWhitespace c = true ↔ Trimmable c := by
  have mark : c = '\uFEFF' ↔ c.toNat = 0xFEFF := Char.toNat_inj.symm
  rw [Trimmable, mark]
  simp [isWhitespace, whitespace, whiteSpace]
  omega

/-- The second text is the first without whitespace at its two ends, and none is left there. -/
structure Trims (s r : List Char) : Prop where
  cut : ∃ before after, s = before ++ r ++ after ∧
    (∀ c ∈ before, Trimmable c) ∧ ∀ c ∈ after, Trimmable c
  first : ∀ ne : r ≠ [], ¬ Trimmable (r.head ne)
  last : ∀ ne : r ≠ [], ¬ Trimmable (r.getLast ne)

theorem trimChars_eq_rdropWhile (s : List Char) :
    trimChars s = (s.dropWhile isWhitespace).rdropWhile isWhitespace := rfl

theorem trims_trimChars (s : List Char) : Trims s (trimChars s) := by
  rw [trimChars_eq_rdropWhile]
  refine ⟨⟨s.takeWhile isWhitespace, (s.dropWhile isWhitespace).rtakeWhile isWhitespace,
    ?_, fun c mem => ?_, fun c mem => ?_⟩, fun ne => ?_, fun ne => ?_⟩
  · rw [List.append_assoc, List.rdropWhile_append_rtakeWhile, List.takeWhile_append_dropWhile]
  · exact isWhitespace_iff.mp (List.mem_takeWhile_imp mem)
  · exact isWhitespace_iff.mp (List.mem_rtakeWhile_imp mem)
  · rw [← isWhitespace_iff, (List.rdropWhile_prefix _ _).head ne,
      List.head_dropWhile_not isWhitespace]
    exact Bool.false_ne_true
  · rw [← isWhitespace_iff]
    exact List.rdropWhile_last_not _ _ ne

/-- A text can be trimmed in one way only. -/
theorem Trims.trimChars_eq {s r : List Char} (trims : Trims s r) : trimChars s = r := by
  obtain ⟨⟨before, after, rfl, allBefore, allAfter⟩, first, last⟩ := trims
  simp only [← isWhitespace_iff] at allBefore allAfter first last
  -- From neither end is anything of the trimmed text dropped.
  have keepsFirst : r.dropWhile isWhitespace = r := by
    cases r with
    | nil => rfl
    | cons c r => exact List.dropWhile_cons_of_neg (first (List.cons_ne_nil c r))
  have keepsLast : r.rdropWhile isWhitespace = r := List.rdropWhile_eq_self_iff.mpr last
  rw [trimChars_eq_rdropWhile, List.append_assoc, List.dropWhile_append_of_pos allBefore,
    List.dropWhile_append, keepsFirst]
  split
  next empty =>
    rw [List.dropWhile_eq_nil_iff.mpr allAfter, List.isEmpty_iff.mp empty, List.rdropWhile_nil]
  next =>
    rw [List.rdropWhile, List.reverse_append, List.dropWhile_append_of_pos]
    · exact keepsLast
    · exact fun c mem => allAfter c (List.mem_reverse.mp mem)

theorem Trims.self {s r : List Char} (trims : Trims s r) : Trims r r :=
  ⟨⟨[], [], by simp, by simp, by simp⟩, trims.first, trims.last⟩

theorem trims_trim (s : String) : Trims s.toList (trim s).toList := by
  rw [trim, String.toList_ofList]
  exact trims_trimChars s.toList

theorem Trims.trim_eq {s r : String} (trims : Trims s.toList r.toList) : trim s = r := by
  rw [trim, trims.trimChars_eq, String.ofList_toList]

/-- All that lays out the source is whitespace, so a trimmed text is not layout. -/
theorem Trims.not_layout {s r : List Char} (trims : Trims s r) : ¬ Layout r := by
  rintro ⟨all, c, mem, -⟩
  have ne : r ≠ [] := List.ne_nil_of_mem mem
  have head := all (r.head ne) (List.head_mem ne)
  refine trims.first ne (.inl ?_)
  generalize r.head ne = d at head
  simp only [List.mem_cons, List.not_mem_nil, or_false] at head
  rcases head with rfl | rfl | rfl | rfl <;> decide

end Text

namespace Desugar

variable {id : NodeId} {s : Walk.State Tally} {value : String}

theorem enter_eq_enterText (options : Options) (found : s.tree.node id = .jsxText value) :
    enter options id s = enterText id value s := by
  rw [enter, tree_bind, found]

theorem enter_layout (options : Options) (found : s.tree.node id = .jsxText value)
    (layout : Text.Layout value.toList) :
    ∃ s₁, enter options id s = .ok .remove s₁ ∧ s₁.tree = s.tree := by
  rw [enter_eq_enterText options found, enterText,
    if_pos (Text.isIndentation_iff_layout.mpr layout)]
  exact ⟨_, rfl, rfl⟩

/-- The node that is entered becomes a string, and nothing else changes. -/
def EntersAs (options : Options) (id : NodeId) (s : Walk.State Tally) (r : String) : Prop :=
  ∃ s₁, enter options id s = .ok .continue s₁ ∧
    s₁.tree = s.tree.replace id (.literal (.string r)) ∧
    s₁.tree.node id = .literal (.string r)

theorem enter_text (options : Options) (found : s.tree.node id = .jsxText value)
    (notLayout : ¬ Text.Layout value.toList) :
    EntersAs options id s (Text.trim value) := by
  have inside : s.tree.Contains (.node id) := Tree.contains_of_ne_hole found (by simp)
  rw [EntersAs, enter_eq_enterText options found, enterText,
    if_neg (mt Text.isIndentation_iff_layout.mp notLayout)]
  exact ⟨_, rfl, rfl, Tree.node_replace inside _⟩

/-- Text is taken out if it is layout, and else it is trimmed. What was trimmed is not layout
and cannot be trimmed again. -/
theorem enter_jsxText (options : Options) (found : s.tree.node id = .jsxText value) :
    ((∃ s₁, enter options id s = .ok .remove s₁) ↔ Text.Layout value.toList) ∧
      (∀ s₁, enter options id s = .ok .remove s₁ → s₁.tree = s.tree) ∧
      (¬ Text.Layout value.toList → ∃ r : String,
        EntersAs options id s r ∧ Text.Trims value.toList r.toList ∧
        ∀ options' id' s', s'.tree.node id' = .jsxText r → EntersAs options' id' s' r) ∧
      ((∀ c ∈ value.toList, c ∉ ['\r', '\n']) ∨
          (∃ c ∈ value.toList, c ∉ [' ', '\t', '\r', '\n']) →
        ∀ s₁, enter options id s ≠ .ok .remove s₁) := by
  -- There is one answer for each text, so one that is taken out is layout.
  have removed : ∀ s₁, enter options id s = .ok .remove s₁ →
      Text.Layout value.toList ∧ s₁.tree = s.tree := by
    intro s₁ answered
    by_cases layout : Text.Layout value.toList
    · obtain ⟨s₂, entered, unchanged⟩ := enter_layout options found layout
      obtain ⟨⟩ := entered.symm.trans answered
      exact ⟨layout, unchanged⟩
    · obtain ⟨s₂, entered, -⟩ := enter_text options found layout
      cases entered.symm.trans answered
  refine ⟨⟨?_, fun layout => ?_⟩, fun s₁ answered => (removed s₁ answered).2,
    fun notLayout => ?_, fun other s₁ answered => ?_⟩
  · rintro ⟨s₁, answered⟩
    exact (removed s₁ answered).1
  · obtain ⟨s₁, answered, -⟩ := enter_layout options found layout
    exact ⟨s₁, answered⟩
  · have trims := Text.trims_trim value
    refine ⟨Text.trim value, enter_text options found notLayout, trims,
      fun options' _ _ found' => ?_⟩
    have again := enter_text options' found' trims.not_layout
    rwa [trims.self.trim_eq] at again
  · obtain ⟨all, c, mem, lineBreak⟩ := (removed s₁ answered).1
    rcases other with none | ⟨d, memD, otherwise⟩
    · exact none c mem lineBreak
    · exact otherwise (all d memD)

/-- A no-break space keeps a text from being layout, yet it is trimmed like all else. -/
theorem enter_jsxText_noBreakSpace :
    let t : Tree := ⟨#[.jsxText "\u00a0\n", .jsxText " \n\t"], #[], ⟨0⟩⟩
    t.node ⟨0⟩ = .jsxText "\u00a0\n" ∧ t.node ⟨1⟩ = .jsxText " \n\t" ∧
      EntersAs {} ⟨0⟩ ⟨t, {}⟩ "" ∧ ∃ s₁, enter {} ⟨1⟩ ⟨t, {}⟩ = .ok .remove s₁ := by
  intro t
  have kept : (⟨t, {}⟩ : Walk.State Tally).tree.node ⟨0⟩ = .jsxText "\u00a0\n" := rfl
  have layout : (⟨t, {}⟩ : Walk.State Tally).tree.node ⟨1⟩ = .jsxText " \n\t" := rfl
  refine ⟨kept, layout, ?_, (enter_jsxText {} layout).1.mpr (by decide)⟩
  obtain ⟨r, entered, trims, -⟩ := (enter_jsxText {} kept).2.2.1 (by decide)
  have empty : r = "" := trims.trim_eq.symm.trans (by decide)
  rwa [empty] at entered

end Desugar

end JsxFactory
