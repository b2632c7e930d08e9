/-
# Reading what was written

A value that is written in either layout is read back as it was, with its members
in the order in which they stood. Two things are asked of the value: an object
lists each key once, and a number is a whole number of 64 bits, for the text of a
binary number is not looked into here.

Each function of the writer puts its text in front of what follows, so each lemma
speaks of any text that follows. After a numeral that text must not go on with it;
whatever the writer puts there does not.
-/

import Mathlib.Data.List.DropRight
import JsxFactory.Json.Parser
import JsxFactory.Json.Printer
import JsxFactory.Proofs.Reading

namespace JsxFactory

namespace Json

/-- Whether each number inside of a value is a whole number of 64 bits. -/
def Integral (value : Json) : Prop :=
  ∀ number, Inside (.number number) value →
    ∃ whole, number = .integer whole ∧ Number.FitsInteger whole

/-- The values that their text gives back: no object lists a key twice, and the
numbers are whole numbers of 64 bits. -/
inductive Faithful : Json → Prop
  | null : Faithful .null
  | bool (value : Bool) : Faithful (.bool value)
  | integer {value : Int} : Number.FitsInteger value → Faithful (.number (.integer value))
  | string (value : String) : Faithful (.string value)
  | array {items : List Json} : (∀ item ∈ items, Faithful item) → Faithful (.array items)
  | object {members : List (String × Json)} : (members.map Prod.fst).Nodup →
    (∀ member ∈ members, Faithful member.2) → Faithful (.object members)

attribute [simp] Faithful.null Faithful.bool Faithful.string

@[simp] theorem faithful_array_iff {items : List Json} :
    Faithful (.array items) ↔ ∀ item ∈ items, Faithful item := by
  constructor
  · intro faithful
    cases faithful with
    | array each => exact each
  · exact .array

@[simp] theorem faithful_object_iff {members : List (String × Json)} :
    Faithful (.object members) ↔
      (members.map Prod.fst).Nodup ∧ ∀ member ∈ members, Faithful member.2 := by
  constructor
  · intro faithful
    cases faithful with
    | object distinct each => exact ⟨distinct, each⟩
  · rintro ⟨distinct, each⟩
    exact .object distinct each

theorem Integral.of_inside {inner outer : Json} (integral : Integral outer)
    (inside : Inside inner outer) : Integral inner :=
  fun number within => integral number (within.trans inside)

theorem Keyed.faithful {value : Json} (keyed : Keyed value) (integral : Integral value) :
    Faithful value := by
  induction keyed with
  | null => exact .null
  | bool value => exact .bool value
  | string value => exact .string value
  | number value =>
    obtain ⟨whole, rfl, fits⟩ := integral value .here
    exact .integer fits
  | array _ ih =>
    exact .array fun item mem => ih item mem (integral.of_inside (.item mem))
  | object distinct _ ih =>
    exact .object distinct fun member mem => ih member mem (integral.of_inside (.member mem))

theorem Faithful.keyed {value : Json} (faithful : Faithful value) : Keyed value := by
  induction faithful with
  | null => exact .null
  | bool value => exact .bool value
  | integer => exact .number _
  | string value => exact .string value
  | array _ ih => exact .array ih
  | object distinct _ ih => exact .object distinct ih

theorem Faithful.of_inside {inner outer : Json} (faithful : Faithful outer)
    (inside : Inside inner outer) : Faithful inner := by
  induction inside with
  | here => exact faithful
  | part mem _ ih =>
    apply ih
    cases faithful with
    | array items => exact items _ mem
    | object _ values =>
      obtain ⟨member, memMembers, rfl⟩ := List.mem_map.mp mem
      exact values member memMembers
    | _ => cases mem

theorem Faithful.integral {value : Json} (faithful : Faithful value) : Integral value := by
  intro number inside
  cases faithful.of_inside inside with
  | integer fits => exact ⟨_, rfl, fits⟩

namespace Parser

variable {fuel : Nat} {layout : Layout} {c : Char} {s rest : List Char}

/-! ## Blanks -/

theorem skipBlanks_cons (visible : isBlank c = false) : skipBlanks (c :: s) = c :: s := by
  rw [skipBlanks, List.dropWhile_cons_of_neg (by rw [visible]; exact Bool.false_ne_true)]

theorem skipBlanks_lineBreak (layout : Layout) (level : Nat) (s : List Char) :
    skipBlanks (layout.lineBreak level ++ s) = skipBlanks s := by
  apply List.dropWhile_append_of_pos
  intro c mem
  cases layout with
  | compact => cases mem
  | pretty =>
    rcases List.mem_cons.mp mem with rfl | space
    · rfl
    · rw [List.eq_of_mem_replicate space]
      rfl

/-- A value may have blanks before it. -/
theorem value_skipBlanks : value fuel (skipBlanks s) = value fuel s := by
  have twice : skipBlanks (skipBlanks s) = skipBlanks s := List.dropWhile_idempotent _ _
  cases fuel with
  | zero => rfl
  | succ fuel => rw [value, value, twice]

/-! ## Strings -/

theorem hexValue?_hexDigit : ∀ n < 16, hexValue? (hexDigit n) = some n := by
  decide

/-- A control character is written as an escape by its number. -/
theorem unicodeEscape_control (control : c.toNat < 0x20) :
    unicodeEscape ('0' :: '0' :: hexDigit (c.toNat / 16) :: hexDigit (c.toNat % 16) :: s) =
      .ok (c, s) := by
  have digits : fourHex ('0' :: '0' :: hexDigit (c.toNat / 16) :: hexDigit (c.toNat % 16) :: s) =
      .ok (c.toNat, s) := by
    have zero : hexValue? '0' = some 0 := rfl
    have high := hexValue?_hexDigit (c.toNat / 16) (by omega)
    have low := hexValue?_hexDigit (c.toNat % 16) (by omega)
    have value : ((0 * 16 + 0) * 16 + c.toNat / 16) * 16 + c.toNat % 16 = c.toNat := by omega
    simp only [fourHex, zero, high, low, value]
  have single : ¬(0xDC00 ≤ c.toNat ∧ c.toNat ≤ 0xDFFF) := by omega
  have whole : c.toNat < 0xD800 ∨ 0xDBFF < c.toNat := by omega
  rw [unicodeEscape, digits]
  simp only [bind, Except.bind, if_neg single, if_pos whole, Char.ofNat_toNat]
  rfl

/-- A character of a string is read back from the way it is written. -/
theorem stringBody_escape {done : List Char} :
    stringBody (fuel + 1) done (escape c ++ s) = stringBody fuel (c :: done) s := by
  unfold escape
  split_ifs with quote backslash backspace formFeed newline carriageReturn tab control
  · rw [quote]; rfl
  · rw [backslash]; rfl
  · rw [backspace]; rfl
  · rw [formFeed]; rfl
  · rw [newline]; rfl
  · rw [carriageReturn]; rfl
  · rw [tab]; rfl
  · have reads : escaped ('u' :: '0' :: '0' :: hexDigit (c.toNat / 16) ::
        hexDigit (c.toNat % 16) :: s) = .ok (c, s) := unicodeEscape_control control
    simp only [List.cons_append, List.nil_append]
    rw [stringBody, if_neg (by decide), if_pos rfl, reads]
  · rw [List.singleton_append, stringBody, if_neg quote, if_neg backslash, if_neg control]

theorem stringBody_quote {text done : List Char} (enough : text.length < fuel) :
    stringBody fuel done (text.foldr (fun c rest => escape c ++ rest) ('"' :: rest)) =
      .ok (String.ofList (done.reverse ++ text), rest) := by
  induction text generalizing fuel done with
  | nil =>
    cases fuel with
    | zero => cases enough
    | succ fuel =>
      rw [List.foldr_nil, List.append_nil, stringBody, if_pos rfl]
  | cons c text ih =>
    cases fuel with
    | zero => cases enough
    | succ fuel =>
      rw [List.foldr_cons, stringBody_escape, ih (Nat.lt_of_succ_lt_succ enough)]
      simp

/-! ## Whole numbers -/

/-- Whether a text does not go on with a numeral that stands before it. -/
def EndsNumeral : List Char → Prop
  | [] => True
  | c :: _ => c.isDigit = false ∧ c ≠ '.' ∧ c ≠ 'e' ∧ c ≠ 'E'

theorem digits_toDigits (n : Nat) (ends : EndsNumeral rest) :
    digits (Nat.toDigits 10 n ++ rest) = (Nat.toDigits 10 n, rest) := by
  have all : ∀ c ∈ Nat.toDigits 10 n, c.isDigit = true := fun c mem =>
    Nat.isDigit_of_mem_toDigits (by decide) (by decide) mem
  rw [digits, List.takeWhile_append_of_pos all, List.dropWhile_append_of_pos all]
  cases rest with
  | nil => simp
  | cons c s => simp [ends.1]

theorem eq_zero_of_digitChar : ∀ n < 10, Nat.digitChar n = '0' → n = 0 := by
  decide

/-- A number has digits, and only zero starts with a zero. -/
theorem exists_toDigits_eq_cons (n : Nat) :
    ∃ c more, Nat.toDigits 10 n = c :: more ∧ c.isDigit = true ∧ (c = '0' → n = 0) := by
  induction n using Nat.strong_induction_on with
  | _ n ih =>
    rw [Nat.toDigits_eq_if (by decide)]
    split_ifs with small
    · refine ⟨n.digitChar, [], rfl, ?_, eq_zero_of_digitChar n small⟩
      rw [Nat.isDigit_digitChar]
      exact decide_eq_true small
    · obtain ⟨c, more, leading, digit, zero⟩ := ih (n / 10) (by omega)
      refine ⟨c, more ++ [(n % 10).digitChar], ?_, digit, ?_⟩
      · rw [leading, List.cons_append]
      · intro same
        have := zero same
        omega

theorem wholePart_toDigits (n : Nat) (ends : EndsNumeral rest) :
    wholePart (Nat.toDigits 10 n ++ rest) = .ok (Nat.toDigits 10 n, rest) := by
  by_cases zero : n = 0
  · subst zero
    cases rest with
    | nil => rfl
    | cons c s => exact if_neg (by rw [ends.1]; exact Bool.false_ne_true)
  · obtain ⟨c, more, leading, _, startsZero⟩ := exists_toDigits_eq_cons n
    unfold wholePart
    split
    · next same =>
      rw [leading, List.cons_append] at same
      exact absurd (startsZero (List.cons.inj same).1) zero
    · rw [someDigits, digits_toDigits n ends, leading]

/-- A numeral without a fraction and an exponent is a whole number, if it fits. -/
theorem unsigned_toDigits (negative : Bool) (n : Nat) (ends : EndsNumeral rest)
    (fits : Number.FitsInteger (if negative then -n else n))
    (signed : ¬(negative = true ∧ n = 0)) :
    unsigned negative (Nat.toDigits 10 n ++ rest) =
      .ok (.integer (if negative then -n else n), rest) := by
  have noFraction : fractionPart rest = .ok (none, rest) := by
    cases rest with
    | nil => rfl
    | cons c s =>
      unfold fractionPart
      split
      · next same => exact absurd (List.cons.inj same).1 ends.2.1
      · rfl
  have noExponent : exponentPart rest = .ok (none, rest) := by
    cases rest with
    | nil => rfl
    | cons c s =>
      unfold exponentPart
      split
      · next same => exact absurd (List.cons.inj same).1 ends.2.2.1
      · next same => exact absurd (List.cons.inj same).1 ends.2.2.2
      · rfl
  have value : numeral negative (Nat.toDigits 10 n) none none =
      .ok (.integer (if negative then -n else n)) := by
    have magnitude : Nat.ofDigitChars 10 (Nat.toDigits 10 n) 0 = n :=
      Nat.ofDigitChars_toDigits (by decide) (by decide)
    simp only [numeral, magnitude]
    exact if_pos ⟨rfl, rfl, fits, signed⟩
  rw [unsigned, wholePart_toDigits n ends]
  simp only [bind, Except.bind, noFraction, noExponent, value]
  rfl

theorem number_integerText {whole : Int} (fits : Number.FitsInteger whole)
    (ends : EndsNumeral rest) :
    number (Number.integerText whole ++ rest) = .ok (.integer whole, rest) := by
  cases whole with
  | ofNat n =>
    obtain ⟨c, more, leading, digit, _⟩ := exists_toDigits_eq_cons n
    rw [Number.integerText]
    unfold number
    split
    · next same =>
      rw [leading, List.cons_append] at same
      rw [(List.cons.inj same).1] at digit
      cases digit
    · exact unsigned_toDigits false n ends fits (by simp)
  | negSucc n => exact unsigned_toDigits true (n + 1) ends fits (by simp)

/-! ## Values -/

theorem exists_integerText_eq_cons (whole : Int) :
    ∃ c more, Number.integerText whole = c :: more ∧ startsNumber c = true := by
  cases whole with
  | ofNat n =>
    obtain ⟨c, more, leading, digit, _⟩ := exists_toDigits_eq_cons n
    exact ⟨c, more, leading, by rw [startsNumber, digit, Bool.or_true]⟩
  | negSucc n => exact ⟨'-', _, rfl, rfl⟩

/-- A character that a number starts with is not one that anything else starts or
ends with. -/
theorem ne_of_startsNumber (starts : startsNumber c = true) :
    ∀ other ∈ ['n', 't', 'f', '"', '[', ']', '\x7b'], c ≠ other := by
  rintro other mem rfl
  simp only [List.mem_cons, List.not_mem_nil, or_false] at mem
  rcases mem with rfl | rfl | rfl | rfl | rfl | rfl | rfl <;> cases starts

theorem isBlank_of_startsNumber (starts : startsNumber c = true) : isBlank c = false := by
  by_contra blank
  simp only [isBlank, Bool.not_eq_false, Bool.or_eq_true, decide_eq_true_eq] at blank
  rcases blank with ((rfl | rfl) | rfl) | rfl <;> cases starts

theorem value_of_startsNumber (starts : startsNumber c = true) :
    value (fuel + 1) (c :: s) = (number (c :: s)).map fun (n, s) => (.number n, s) := by
  have differs := ne_of_startsNumber starts
  rw [value, skipBlanks_cons (isBlank_of_startsNumber starts)]
  simp only [differs 'n' (by simp), differs 't' (by simp), differs 'f' (by simp),
    differs '"' (by simp), differs '[' (by simp), differs '\x7b' (by simp), starts, if_false,
    if_true]

/-- The text of a value starts with a character that is no blank and closes no
array. -/
theorem exists_write_eq_cons {json : Json} (faithful : Faithful json) (layout : Layout)
    (level : Nat) (rest : List Char) :
    ∃ c s, write layout level json rest = c :: s ∧ isBlank c = false ∧ c ≠ ']' := by
  cases faithful with
  | null => exact ⟨'n', _, rfl, rfl, by decide⟩
  | bool value => cases value with
    | true => exact ⟨'t', _, rfl, rfl, by decide⟩
    | false => exact ⟨'f', _, rfl, rfl, by decide⟩
  | @integer value _ =>
    obtain ⟨c, more, leading, starts⟩ := exists_integerText_eq_cons value
    refine ⟨c, more ++ rest, ?_, isBlank_of_startsNumber starts, ?_⟩
    · rw [write, Number.text, leading, List.cons_append]
    · exact ne_of_startsNumber starts ']' (by simp)
  | string value => exact ⟨'"', _, rfl, rfl, by decide⟩
  | @array items _ => cases items <;> exact ⟨'[', _, rfl, rfl, by decide⟩
  | @object members _ _ =>
    cases members with
    | nil => exact ⟨'\x7b', _, rfl, rfl, by decide⟩
    | cons member _ => exact ⟨'\x7b', _, rfl, rfl, by decide⟩

/-! ### Lengths

The recursion of the parser is bounded by twice the length of the text; these
bounds are all that is needed to see that it does not run out. -/

theorem length_quote (text : String) (rest : List Char) :
    text.toList.length + 2 + rest.length ≤ (quote text rest).length := by
  have body : ∀ text : List Char, text.length + 1 + rest.length ≤
      (text.foldr (fun c rest => escape c ++ rest) ('"' :: rest)).length := by
    intro text
    induction text with
    | nil =>
      rw [List.foldr_nil, List.length_cons, List.length_nil]
      omega
    | cons c text ih =>
      have some : 1 ≤ (escape c).length := by
        unfold escape
        split_ifs <;> simp
      rw [List.foldr_cons, List.length_append, List.length_cons]
      omega
  have := body text.toList
  rw [quote, List.length_cons]
  omega

mutual

theorem length_write (layout : Layout) : ∀ (level : Nat) (json : Json) (rest : List Char),
    rest.length ≤ (write layout level json rest).length
  | _, .null, rest | _, .bool true, rest | _, .bool false, rest
  | _, .array [], rest | _, .object [], rest => by
    simp only [write, List.length_cons]
    omega
  | _, .number value, rest => by
    rw [write, List.length_append]
    omega
  | _, .string value, rest => by
    have := length_quote value rest
    rw [write]
    omega
  | level, .array (item :: items), rest => by
    have first := length_write layout (level + 1) item
      (writeItems layout (level + 1) items (layout.lineBreak level ++ ']' :: rest))
    have others := length_writeItems layout (level + 1) items
      (layout.lineBreak level ++ ']' :: rest)
    simp only [write, List.length_cons, List.length_append] at first others ⊢
    omega
  | level, .object ((key, value) :: members), rest => by
    have name := length_quote key (layout.colon ++ write layout (level + 1) value
      (writeMembers layout (level + 1) members (layout.lineBreak level ++ '\x7d' :: rest)))
    have first := length_write layout (level + 1) value
      (writeMembers layout (level + 1) members (layout.lineBreak level ++ '\x7d' :: rest))
    have others := length_writeMembers layout (level + 1) members
      (layout.lineBreak level ++ '\x7d' :: rest)
    simp only [write, List.length_cons, List.length_append] at name first others ⊢
    omega

theorem length_writeItems (layout : Layout) : ∀ (level : Nat) (items : List Json)
    (rest : List Char), rest.length ≤ (writeItems layout level items rest).length
  | _, [], _ => le_rfl
  | level, item :: items, rest => by
    have first := length_write layout level item (writeItems layout level items rest)
    have others := length_writeItems layout level items rest
    simp only [writeItems, List.length_cons, List.length_append]
    omega

theorem length_writeMembers (layout : Layout) : ∀ (level : Nat) (members : List (String × Json))
    (rest : List Char), rest.length ≤ (writeMembers layout level members rest).length
  | _, [], _ => le_rfl
  | level, (key, value) :: members, rest => by
    have name := length_quote key (layout.colon ++ write layout level value
      (writeMembers layout level members rest))
    have first := length_write layout level value (writeMembers layout level members rest)
    have others := length_writeMembers layout level members rest
    simp only [writeMembers, List.length_cons, List.length_append] at name ⊢
    omega

end

/-! ### One item, one member -/

theorem nextItem_write {item : Json} (faithful : Faithful item) (layout : Layout) (level : Nat)
    (rest : List Char) :
    nextItem true (layout.lineBreak level ++ write layout level item rest) =
        .ok (true, write layout level item rest) ∧
      nextItem false (',' :: (layout.lineBreak level ++ write layout level item rest)) =
        .ok (true, write layout level item rest) := by
  obtain ⟨c, s, starts, visible, notEnd⟩ := exists_write_eq_cons faithful layout level rest
  have skips : skipBlanks (layout.lineBreak level ++ c :: s) = c :: s := by
    rw [skipBlanks_lineBreak, skipBlanks_cons visible]
  rw [starts]
  constructor
  · rw [nextItem, skips]
    simp only [notEnd, if_false, if_true]
  · rw [nextItem, skipBlanks_cons (by decide)]
    simp only [skips, notEnd, if_false]
    rfl

/-- An item is read after its comma, or as the first one. -/
theorem items_write {item : Json} {done : List Json} {level : Nat} (faithful : Faithful item)
    (reads : value fuel (write layout level item rest) = .ok (item, rest)) :
    items (fuel + 1) true done (layout.lineBreak level ++ write layout level item rest) =
        items fuel false (item :: done) rest ∧
      items (fuel + 1) false done
          (',' :: (layout.lineBreak level ++ write layout level item rest)) =
        items fuel false (item :: done) rest := by
  obtain ⟨first, later⟩ := nextItem_write faithful layout level rest
  constructor
  · rw [items, first]
    simp only [reads]
  · rw [items, later]
    simp only [reads]

theorem items_close (first : Bool) (done : List Json) (level : Nat) (rest : List Char) :
    items (fuel + 1) first done (layout.lineBreak level ++ ']' :: rest) =
      .ok (.array done.reverse, rest) := by
  rw [items, nextItem, skipBlanks_lineBreak, skipBlanks_cons (by decide)]
  rfl

theorem nextKey_quote (layout : Layout) (level : Nat) (rest : List Char) :
    nextKey true (layout.lineBreak level ++ '"' :: rest) = .ok (true, rest) ∧
      nextKey false (',' :: (layout.lineBreak level ++ '"' :: rest)) = .ok (true, rest) := by
  have skips : skipBlanks (layout.lineBreak level ++ '"' :: rest) = '"' :: rest := by
    rw [skipBlanks_lineBreak, skipBlanks_cons (by decide)]
  constructor
  · rw [nextKey, skips]
    rfl
  · rw [nextKey, skipBlanks_cons (by decide)]
    simp only [skips]
    rfl

theorem colon_colon (layout : Layout) (s : List Char) :
    ∃ blanks, colon (layout.colon ++ s) = .ok (blanks ++ s) ∧
      skipBlanks (blanks ++ s) = skipBlanks s := by
  cases layout with
  | compact => exact ⟨[], rfl, rfl⟩
  | pretty => exact ⟨[' '], rfl, rfl⟩

/-- A member is read after its comma, or as the first one. -/
theorem members_write {key : String} {json : Json} {done : List (String × Json)} {level : Nat}
    (enough : key.toList.length < fuel)
    (reads : value fuel (write layout level json rest) = .ok (json, rest)) :
    members (fuel + 1) true done (layout.lineBreak level ++
        quote key (layout.colon ++ write layout level json rest)) =
        members fuel false (insert key json done) rest ∧
      members (fuel + 1) false done (',' :: (layout.lineBreak level ++
        quote key (layout.colon ++ write layout level json rest))) =
        members fuel false (insert key json done) rest := by
  obtain ⟨first, later⟩ := nextKey_quote layout level
    (key.toList.foldr (fun c rest => escape c ++ rest)
      ('"' :: (layout.colon ++ write layout level json rest)))
  obtain ⟨blanks, reaches, skips⟩ := colon_colon layout (write layout level json rest)
  have readsKey : stringBody fuel [] (key.toList.foldr (fun c rest => escape c ++ rest)
      ('"' :: (layout.colon ++ write layout level json rest))) =
      .ok (key, layout.colon ++ write layout level json rest) := by
    rw [stringBody_quote enough, List.reverse_nil, List.nil_append, String.ofList_toList]
  have readsValue : value fuel (blanks ++ write layout level json rest) = .ok (json, rest) := by
    rw [← value_skipBlanks, skips, value_skipBlanks, reads]
  constructor
  · rw [quote, members, first]
    simp only [readsKey, reaches, readsValue]
  · rw [quote, members, later]
    simp only [readsKey, reaches, readsValue]

theorem members_close (first : Bool) (done : List (String × Json)) (level : Nat)
    (rest : List Char) :
    members (fuel + 1) first done (layout.lineBreak level ++ '\x7d' :: rest) =
      .ok (.object done, rest) := by
  rw [members, nextKey, skipBlanks_lineBreak, skipBlanks_cons (by decide)]
  rfl

/-! ### All of a value -/

theorem endsNumeral_lineBreak {level : Nat} (ends : EndsNumeral rest) :
    EndsNumeral (layout.lineBreak level ++ rest) := by
  cases layout with
  | compact => exact ends
  | pretty => exact ⟨rfl, by decide, by decide, by decide⟩

theorem endsNumeral_writeItems {level : Nat} (items : List Json) (ends : EndsNumeral rest) :
    EndsNumeral (writeItems layout level items rest) := by
  cases items with
  | nil => exact ends
  | cons => exact ⟨rfl, by decide, by decide, by decide⟩

theorem endsNumeral_writeMembers {level : Nat} (members : List (String × Json))
    (ends : EndsNumeral rest) : EndsNumeral (writeMembers layout level members rest) := by
  cases members with
  | nil => exact ends
  | cons => exact ⟨rfl, by decide, by decide, by decide⟩

theorem endsNumeral_bracket : EndsNumeral (']' :: rest) ∧ EndsNumeral ('\x7d' :: rest) :=
  ⟨⟨rfl, by decide, by decide, by decide⟩, ⟨rfl, by decide, by decide, by decide⟩⟩

-- By induction on the value, for any text that follows. The fuel is counted against the text
-- that is used up: two for each character leaves one for each turn of a loop.
mutual

/-- A faithful value is read back from its text, and what follows is left. -/
theorem value_write (layout : Layout) : ∀ (json : Json) {level fuel : Nat} {rest : List Char},
    Faithful json → EndsNumeral rest →
    2 * (write layout level json rest).length ≤ fuel + 2 * rest.length →
    value fuel (write layout level json rest) = .ok (json, rest)
  | .null, level, fuel, rest, _, _, enough
  | .bool true, level, fuel, rest, _, _, enough
  | .bool false, level, fuel, rest, _, _, enough
  | .array [], level, fuel, rest, _, _, enough
  | .object [], level, fuel, rest, _, _, enough => by
    simp only [write, List.length_cons] at enough
    obtain ⟨fuel, rfl⟩ := Nat.exists_eq_add_of_le' (show 2 ≤ fuel by omega)
    rfl
  | .number n, level, fuel, rest, faithful, ends, enough => by
    cases faithful with
    | @integer whole fits =>
      obtain ⟨c, more, leading, starts⟩ := exists_integerText_eq_cons whole
      have reads := number_integerText fits ends
      rw [write, Number.text, leading, List.cons_append] at enough ⊢
      rw [leading, List.cons_append] at reads
      rw [List.length_cons, List.length_append] at enough
      obtain ⟨fuel, rfl⟩ := Nat.exists_eq_add_of_le' (show 1 ≤ fuel by omega)
      rw [value_of_startsNumber starts, reads]
      rfl
  | .string text, level, fuel, rest, _, _, enough => by
    rw [write] at enough ⊢
    have long := length_quote text rest
    obtain ⟨fuel, rfl⟩ := Nat.exists_eq_add_of_le' (show 1 ≤ fuel by omega)
    change (stringBody fuel [] _).map _ = _
    rw [stringBody_quote (by omega), List.reverse_nil, List.nil_append, String.ofList_toList]
    rfl
  | .array (item :: items), level, fuel, rest, faithful, ends, enough => by
    cases faithful with
    | array each =>
      rw [List.forall_mem_cons] at each
      have length := length_write layout (level + 1) item
        (writeItems layout (level + 1) items (layout.lineBreak level ++ ']' :: rest))
      have lengthMore := length_writeItems layout (level + 1) items
        (layout.lineBreak level ++ ']' :: rest)
      simp only [write, List.length_cons, List.length_append] at enough length lengthMore
      obtain ⟨fuel, rfl⟩ := Nat.exists_eq_add_of_le' (show 2 ≤ fuel by omega)
      have reads : value fuel (write layout (level + 1) item
          (writeItems layout (level + 1) items (layout.lineBreak level ++ ']' :: rest))) =
          .ok (item, _) :=
        value_write layout item each.1
          (endsNumeral_writeItems items (endsNumeral_lineBreak endsNumeral_bracket.1)) (by omega)
      change Parser.items (fuel + 1) true [] _ = _
      rw [(items_write each.1 reads).1, items_writeItems layout items each.2 (by omega)]
      rfl
  | .object ((key, json) :: members), level, fuel, rest, faithful, ends, enough => by
    cases faithful with
    | object distinct each =>
      rw [List.forall_mem_cons] at each
      have name := length_quote key (layout.colon ++ write layout (level + 1) json
        (writeMembers layout (level + 1) members (layout.lineBreak level ++ '\x7d' :: rest)))
      have length := length_write layout (level + 1) json
        (writeMembers layout (level + 1) members (layout.lineBreak level ++ '\x7d' :: rest))
      have lengthMore := length_writeMembers layout (level + 1) members
        (layout.lineBreak level ++ '\x7d' :: rest)
      simp only [write, List.length_cons, List.length_append] at enough name length lengthMore
      obtain ⟨fuel, rfl⟩ := Nat.exists_eq_add_of_le' (show 2 ≤ fuel by omega)
      have reads : value fuel (write layout (level + 1) json
          (writeMembers layout (level + 1) members (layout.lineBreak level ++ '\x7d' :: rest))) =
          .ok (json, _) :=
        value_write layout json each.1
          (endsNumeral_writeMembers members (endsNumeral_lineBreak endsNumeral_bracket.2))
          (by omega)
      change Parser.members (fuel + 1) true [] _ = _
      rw [(members_write (by omega) reads).1]
      exact members_writeMembers layout members distinct each.2 (by omega)

theorem items_writeItems (layout : Layout) : ∀ (more : List Json) {level below fuel : Nat}
    {done : List Json} {rest : List Char}, (∀ item ∈ more, Faithful item) →
    2 * (writeItems layout level more (layout.lineBreak below ++ ']' :: rest)).length ≤
      fuel + 2 * rest.length →
    items fuel false done (writeItems layout level more (layout.lineBreak below ++ ']' :: rest)) =
      .ok (.array (done.reverse ++ more), rest)
  | [], level, below, fuel, done, rest, _, enough => by
    rw [writeItems, List.length_append, List.length_cons] at enough
    obtain ⟨fuel, rfl⟩ := Nat.exists_eq_add_of_le' (show 1 ≤ fuel by omega)
    rw [writeItems, items_close, List.append_nil]
  | item :: more, level, below, fuel, done, rest, faithful, enough => by
    rw [List.forall_mem_cons] at faithful
    have length := length_write layout level item
      (writeItems layout level more (layout.lineBreak below ++ ']' :: rest))
    have lengthMore := length_writeItems layout level more (layout.lineBreak below ++ ']' :: rest)
    simp only [writeItems, List.length_cons, List.length_append] at enough length lengthMore
    obtain ⟨fuel, rfl⟩ := Nat.exists_eq_add_of_le' (show 1 ≤ fuel by omega)
    have reads : value fuel (write layout level item
        (writeItems layout level more (layout.lineBreak below ++ ']' :: rest))) = .ok (item, _) :=
      value_write layout item faithful.1
        (endsNumeral_writeItems more (endsNumeral_lineBreak endsNumeral_bracket.1)) (by omega)
    rw [writeItems, (items_write faithful.1 reads).2,
      items_writeItems layout more faithful.2 (by omega), List.reverse_cons, List.append_assoc,
      List.singleton_append]

theorem members_writeMembers (layout : Layout) : ∀ (more : List (String × Json))
    {level below fuel : Nat} {done : List (String × Json)} {rest : List Char},
    ((done ++ more).map Prod.fst).Nodup → (∀ member ∈ more, Faithful member.2) →
    2 * (writeMembers layout level more (layout.lineBreak below ++ '\x7d' :: rest)).length ≤
      fuel + 2 * rest.length →
    members fuel false done
        (writeMembers layout level more (layout.lineBreak below ++ '\x7d' :: rest)) =
      .ok (.object (done ++ more), rest)
  | [], level, below, fuel, done, rest, _, _, enough => by
    rw [writeMembers, List.length_append, List.length_cons] at enough
    obtain ⟨fuel, rfl⟩ := Nat.exists_eq_add_of_le' (show 1 ≤ fuel by omega)
    rw [writeMembers, members_close, List.append_nil]
  | (key, json) :: more, level, below, fuel, done, rest, distinct, faithful, enough => by
    rw [List.forall_mem_cons] at faithful
    have name := length_quote key (layout.colon ++ write layout level json
      (writeMembers layout level more (layout.lineBreak below ++ '\x7d' :: rest)))
    have length := length_write layout level json
      (writeMembers layout level more (layout.lineBreak below ++ '\x7d' :: rest))
    have lengthMore := length_writeMembers layout level more
      (layout.lineBreak below ++ '\x7d' :: rest)
    simp only [writeMembers, List.length_cons, List.length_append] at enough name length lengthMore
    obtain ⟨fuel, rfl⟩ := Nat.exists_eq_add_of_le' (show 1 ≤ fuel by omega)
    have reads : value fuel (write layout level json
        (writeMembers layout level more (layout.lineBreak below ++ '\x7d' :: rest))) =
        .ok (json, _) :=
      value_write layout json faithful.1
        (endsNumeral_writeMembers more (endsNumeral_lineBreak endsNumeral_bracket.2)) (by omega)
    -- The key is new, so the member goes to the end.
    have new : key ∉ done.map Prod.fst := by
      intro old
      rw [List.map_append, List.map_cons] at distinct
      exact (List.nodup_append'.mp distinct).2.2 old List.mem_cons_self
    rw [writeMembers, (members_write (by omega) reads).2, insert_of_notMem new,
      members_writeMembers layout more (by simpa using distinct) faithful.2 (by omega),
      List.append_assoc, List.singleton_append]

end

end Parser

/-- The text of a faithful value is read as the value. -/
theorem parse_render {json : Json} (faithful : Faithful json) (layout : Layout) :
    parse (render layout json) = .ok json := by
  have ends : Parser.EndsNumeral [] := trivial
  have reads : Parser.value (2 * (write layout 0 json []).length + 2) (write layout 0 json []) =
      .ok (json, []) :=
    Parser.value_write layout json faithful ends (by omega)
  rw [parse, render, String.toList_ofList, reads]
  rfl

end Json

end JsxFactory
