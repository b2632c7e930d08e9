/-
# Writing text with character references

A text can be written character by character. Any character but the ampersand can stand for
itself, and every character can be written as a reference: by a name that the table has for it, or
by a numeral for its code point, with any number of leading zeros and with hexadecimal digits of
either case. Decoding gets the text back from all of these, in any mixture.

A reference leaves nothing open, so each piece is read as if nothing stood around it. What comes
out of decoding may look like a reference, but it is not decoded again.
-/

import JsxFactory.Text.Entity
import Mathlib.Data.List.Forall2

namespace JsxFactory.Text.Entity

/-! ## The table of names -/

/-- The bytes of a text. -/
def bytes (s : String) : List UInt8 :=
  s.toByteArray.data.toList

/-- A character of one byte is found among the bytes. -/
theorem mem_bytes {s : String} {c : Char} (mem : c ∈ s.toList) (ascii : c.toNat ≤ 127) :
    UInt8.ofNat c.toNat ∈ bytes s := by
  have encoded : String.utf8EncodeChar c = [UInt8.ofNat c.toNat] := by
    simp only [String.utf8EncodeChar]
    exact if_pos ascii
  rw [bytes, ← String.utf8Encode_toList, List.utf8Encode, List.data_toByteArray]
  exact List.mem_flatMap.mpr ⟨c, mem, encoded ▸ List.mem_singleton_self _⟩

-- Bytes can be compared as they are, while characters have to be decoded from them; for a table of
-- this size that matters. The bytes of letters and digits start at 48, and 59 is the semicolon.
theorem names_plain :
    (names.flatten.all fun entry => (bytes entry.1).all fun b => 48 ≤ b && b != 59) = true := by
  decide +kernel

/-- No name has one of the characters that mark a reference. -/
theorem plain_of_mem {name : String} {n : Nat} (mem : (name, n) ∈ names.flatten) :
    ∀ c ∈ name.toList, c ≠ '#' ∧ c ≠ '&' ∧ c ≠ ';' := by
  intro c memName
  have plain := List.all_eq_true.mp (List.all_eq_true.mp names_plain _ mem)
  refine ⟨?_, ?_, ?_⟩ <;> rintro rfl
  all_goals exact absurd (plain _ (mem_bytes memName (by decide))) (by decide)

theorem names_increasing : (names.flatten.map fun entry => bytes entry.1).IsChain (· < ·) := by
  decide +kernel

theorem names_distinct : names.flatten.Pairwise fun entry other => entry.1 ≠ other.1 := by
  refine (List.pairwise_map.mp (List.isChain_iff_pairwise.mp names_increasing)).imp ?_
  intro entry other less same
  rw [same] at less
  exact List.lt_irrefl _ less

theorem findSome?_lookup {α β : Type} [BEq α] (tables : List (List (α × β))) (key : α) :
    tables.findSome? (·.lookup key) = tables.flatten.lookup key := by
  induction tables with
  | nil => rfl
  | cons table tables ih =>
    rw [List.findSome?_cons, List.flatten_cons, List.lookup_append, ih]
    cases table.lookup key <;> rfl

/-- The table gives the character for each name that it has. -/
theorem named?_of_mem {name : String} {c : Char} (mem : (name, c.toNat) ∈ names.flatten) :
    named? name = some c := by
  obtain ⟨before, after, split⟩ := List.append_of_mem mem
  have distinct := names_distinct
  rw [split, List.pairwise_append] at distinct
  have found : names.flatten.lookup name = some c.toNat := by
    refine List.lookup_eq_some_iff.mpr ⟨before, after, split, fun entry memBefore => ?_⟩
    exact bne_iff_ne.mpr (distinct.2.2 entry memBefore _ List.mem_cons_self).symm
  rw [named?, findSome?_lookup, found, Option.map_some, Char.ofNat_toNat]

/-! ## Numerals -/

/-- A digit with its value; from ten on it is a letter, small or capital. -/
inductive Digit (base : Nat) : Char → Nat → Prop
  | small {value : Nat} : value < base → Digit base value.digitChar value
  | capital {value : Nat} : value < base → Digit base value.digitChar.toUpper value

/-- A numeral with the number that it stands for. -/
inductive Numeral (base : Nat) : List Char → Nat → Prop
  | one {c : Char} {value : Nat} : Digit base c value → Numeral base [c] value
  | append {digits : List Char} {n : Nat} {c : Char} {value : Nat} :
    Numeral base digits n → Digit base c value → Numeral base (digits ++ [c]) (base * n + value)

section Numerals

variable {base n value : Nat} {c d : Char} {digits : List Char}

/-- Each number has the numeral that it is usually written with. -/
theorem numeral_toDigits (large : 1 < base) (n : Nat) :
    Numeral base (Nat.toDigits base n) n := by
  induction n using Nat.strongRecOn with
  | ind n ih =>
    by_cases single : n < base
    · rw [Nat.toDigits_of_lt_base single]
      exact .one (.small single)
    · have le : base ≤ n := Nat.le_of_not_lt single
      have less : n / base < n := Nat.div_lt_self (by omega) large
      have last : Digit base (n % base).digitChar (n % base) := .small (Nat.mod_lt n (by omega))
      have whole := (ih (n / base) less).append last
      rwa [Nat.div_add_mod, ← Nat.toDigits_of_base_le large le] at whole

theorem digit?_digitChar : ∀ base < 17, ∀ value < base,
    digit? base value.digitChar = some value ∧
      digit? base value.digitChar.toUpper = some value := by
  decide +kernel

theorem Digit.digit? (digit : Digit base c value) (small : base ≤ 16) :
    Entity.digit? base c = some value := by
  cases digit with
  | small less => exact (digit?_digitChar base (by omega) value less).1
  | capital less => exact (digit?_digitChar base (by omega) value less).2

theorem Numeral.numeral? (numeral : Numeral base digits n) (small : base ≤ 16) :
    Entity.numeral? base digits = some n := by
  induction numeral with
  | one digit => simp [Entity.numeral?, digit.digit? small]
  | append _ digit ih =>
    rw [Entity.numeral?] at ih ⊢
    rw [List.foldlM_append, ih]
    simp [digit.digit? small]

theorem Numeral.mem (numeral : Numeral base digits n) (mem : c ∈ digits) :
    ∃ value, Digit base c value := by
  induction numeral with
  | one digit => exact ⟨_, List.mem_singleton.mp mem ▸ digit⟩
  | append _ digit ih =>
    rcases List.mem_append.mp mem with before | last
    · exact ih before
    · exact ⟨_, List.mem_singleton.mp last ▸ digit⟩

theorem Numeral.ne_of_mem (numeral : Numeral base digits n) (small : base ≤ 16)
    (mem : c ∈ digits) (noDigit : Entity.digit? base d = none) : c ≠ d := by
  rintro rfl
  obtain ⟨value, digit⟩ := numeral.mem mem
  cases noDigit.symm.trans (digit.digit? small)

theorem Numeral.closed (numeral : Numeral base digits n) (small : base ≤ 16) :
    ∀ d ∈ digits, d ≠ '&' ∧ d ≠ ';' := fun _ mem =>
  ⟨numeral.ne_of_mem small mem rfl, numeral.ne_of_mem small mem rfl⟩

theorem Numeral.ne_nil (numeral : Numeral base digits n) : digits ≠ [] := by
  cases numeral <;> simp

theorem Numeral.positiveLength? (numeral : Numeral base digits n) (small : base ≤ 16) :
    Entity.positiveLength? base digits = some n := by
  have read := numeral.numeral? small
  cases digits with
  | nil => exact absurd rfl numeral.ne_nil
  | cons => exact read

/-- The code point of a character is not cut off. -/
theorem numbered?_toNat (c : Char) : numbered? c.toNat = some c := by
  have valid : c.toNat.isValidChar := c.valid
  have less : c.toNat < 0x110000 := by
    rcases valid with below | ⟨_, above⟩ <;> omega
  have fits : ¬ Nat.pow 2 63 ≤ c.toNat := Nat.not_le.mpr (Nat.lt_trans less (by decide))
  have kept : c.toNat % Nat.pow 2 32 = c.toNat := Nat.mod_eq_of_lt (Nat.lt_trans less (by decide))
  rw [numbered?, if_neg fits, kept, if_pos valid, Char.ofNat_toNat]

end Numerals

/-! ## References -/

/-- What stands between the ampersand and the semicolon of a reference to a character. -/
inductive RefersTo : List Char → Char → Prop
  | name {name : String} {c : Char} :
    (name, c.toNat) ∈ names.flatten → RefersTo name.toList c
  | decimal {digits : List Char} {c : Char} :
    Numeral 10 digits c.toNat → RefersTo ('#' :: digits) c
  | hexadecimal {x : Char} {digits : List Char} {c : Char} :
    x ∈ ['x', 'X'] → Numeral 16 digits c.toNat → RefersTo ('#' :: x :: digits) c

theorem RefersTo.reference? {body : List Char} {c : Char} (refers : RefersTo body c) :
    Entity.reference? body = some c := by
  cases refers with
  | name mem =>
    have named := named?_of_mem mem
    have plain := plain_of_mem mem
    unfold Entity.reference?
    split
    case h_4 => rwa [String.ofList_toList]
    all_goals
      rename_i starts
      exact absurd rfl (plain '#' (starts ▸ List.mem_cons_self)).1
  | decimal numeral =>
    have read := numeral.positiveLength? (by decide)
    rw [Entity.reference?, read, Option.bind_some, numbered?_toNat]
    -- A decimal digit is neither of the marks of a hexadecimal numeral.
    all_goals
      rintro rest rfl
      exact numeral.ne_of_mem (by decide) List.mem_cons_self (by decide) rfl
  | hexadecimal mark numeral =>
    have read := numeral.positiveLength? (by decide)
    rcases List.mem_pair.mp mark with rfl | rfl
    all_goals rw [Entity.reference?, read, Option.bind_some, numbered?_toNat]

/-- A reference ends where it is meant to end. -/
theorem RefersTo.closed {body : List Char} {c : Char} (refers : RefersTo body c) :
    ∀ d ∈ body, d ≠ '&' ∧ d ≠ ';' := by
  cases refers with
  | name mem => exact fun d memName => (plain_of_mem mem d memName).2
  | decimal numeral =>
    exact List.forall_mem_cons.mpr ⟨by decide, numeral.closed (by decide)⟩
  | hexadecimal mark numeral =>
    refine List.forall_mem_cons.mpr ⟨by decide,
      List.forall_mem_cons.mpr ⟨?_, numeral.closed (by decide)⟩⟩
    rcases List.mem_pair.mp mark with rfl | rfl <;> decide

/-! ## Texts -/

/-- A piece of text that a character can be written as. -/
inductive Writes : Char → List Char → Prop
  | raw {c : Char} : c ≠ '&' → Writes c [c]
  | reference {c : Char} {body : List Char} : RefersTo body c → Writes c ('&' :: body ++ [';'])

theorem foldl_step_opened {body : List Char} (closed : ∀ d ∈ body, d ≠ '&' ∧ d ≠ ';')
    (done opened : List Char) :
    body.foldl Scan.step ⟨done, some opened⟩ = ⟨done, some (body.reverse ++ opened)⟩ := by
  induction body generalizing opened with
  | nil => rfl
  | cons d body ih =>
    obtain ⟨⟨noOpen, noClose⟩, closed⟩ := List.forall_mem_cons.mp closed
    rw [List.foldl_cons, Scan.step]
    simp only [if_neg noOpen, if_neg noClose]
    rw [ih closed, List.reverse_cons, List.append_assoc, List.singleton_append]

/-- One written character is decoded, and no reference is open before or after it. -/
theorem Writes.foldl_step {c : Char} {piece : List Char} (writes : Writes c piece)
    (done : List Char) : piece.foldl Scan.step ⟨done, none⟩ = ⟨c :: done, none⟩ := by
  cases writes with
  | raw noOpen => simp [Scan.step, noOpen]
  | reference refers =>
    -- The body is read while the reference is open, and the semicolon closes it.
    have opens : Scan.step ⟨done, none⟩ '&' = ⟨done, some []⟩ := rfl
    have reads := foldl_step_opened refers.closed done []
    rw [List.cons_append, List.foldl_cons, opens, List.foldl_append, reads, List.foldl_cons,
      List.foldl_nil, Scan.step]
    simp [refers.reference?]

theorem foldl_step_written {s : List Char} {pieces : List (List Char)}
    (written : List.Forall₂ Writes s pieces) (done : List Char) :
    pieces.flatten.foldl Scan.step ⟨done, none⟩ = ⟨s.reverse ++ done, none⟩ := by
  -- Between two pieces nothing is open, which is what the next piece needs.
  induction written generalizing done with
  | nil => rfl
  | cons writes _ ih =>
    rw [List.flatten_cons, List.foldl_append, writes.foldl_step, ih, List.reverse_cons,
      List.append_assoc, List.singleton_append]

theorem decode_flatten {s : String} {pieces : List (List Char)}
    (written : List.Forall₂ Writes s.toList pieces) :
    decode (String.ofList pieces.flatten) = s := by
  rw [decode, String.toList_ofList, foldl_step_written written, Scan.finish]
  simp

/-- A character as it is, or as a reference if it cannot stand for itself. -/
def escape (c : Char) : List Char :=
  if c = '&' then "&amp;".toList else [c]

theorem writes_escape (c : Char) : Writes c (escape c) := by
  rw [escape]
  split
  next ampersand =>
    have entry : ("amp", c.toNat) ∈ names.flatten := by
      rw [ampersand]
      exact List.mem_flatten.mpr ⟨smallA, by simp [names], by decide +kernel⟩
    exact .reference (.name entry)
  next other => exact .raw other

/-- A text can be read back however it is written. Each character has a decimal and a hexadecimal
reference, and a text in which only the ampersands are written as references is decoded once. -/
theorem decode_written :
    (∀ (s : String) (pieces : List (List Char)), List.Forall₂ Writes s.toList pieces →
        decode (String.ofList pieces.flatten) = s) ∧
      (∀ c : Char, Writes c ('&' :: '#' :: Nat.toDigits 10 c.toNat ++ [';']) ∧
        ∀ x ∈ ['x', 'X'], Writes c ('&' :: '#' :: x :: Nat.toDigits 16 c.toNat ++ [';'])) ∧
      ∀ s : String, decode (String.ofList (s.toList.flatMap escape)) = s := by
  refine ⟨fun s pieces written => decode_flatten written, fun c => ⟨?_, fun x mark => ?_⟩,
    fun s => ?_⟩
  · exact .reference (.decimal (numeral_toDigits (by decide) _))
  · exact .reference (.hexadecimal mark (numeral_toDigits (by decide) _))
  · have written : List.Forall₂ Writes s.toList (s.toList.map escape) :=
      List.forall₂_map_right_iff.mpr (List.forall₂_same.mpr fun c _ => writes_escape c)
    exact decode_flatten written

/-- Pieces with references of two kinds, and semicolons after them. -/
def samplePieces : List (List Char) :=
  [['&', '#', '0', '3', '8', ';'], ['l'], ['t'], [';'], ['&', '#', 'x', '3', 'C', ';'], [';']]

/-- The text that they write looks like a reference itself. -/
theorem decode_written_samplePieces :
    List.Forall₂ Writes "&lt;<;".toList samplePieces ∧
      decode "&#038;lt;&#x3C;;" = "&lt;<;" ∧ decode "&amp;lt;" = "&lt;" := by
  have ampersand : Numeral 10 ['0', '3', '8'] '&'.toNat :=
    .append (n := 3) (.append (n := 0) (.one (.small (by decide : 0 < 10)))
      (.small (by decide : 3 < 10))) (.small (by decide : 8 < 10))
  have less : Numeral 16 ['3', 'C'] '<'.toNat :=
    .append (n := 3) (.one (.small (by decide : 3 < 16))) (.capital (by decide : 12 < 16))
  have chars : "&lt;<;".toList = ['&', 'l', 't', ';', '<', ';'] := by decide
  have written : List.Forall₂ Writes "&lt;<;".toList samplePieces := by
    rw [chars]
    exact .cons (.reference (.decimal ampersand)) <| .cons (.raw (by decide)) <|
      .cons (.raw (by decide)) <| .cons (.raw (by decide)) <|
      .cons (.reference (.hexadecimal List.mem_cons_self less)) <| .cons (.raw (by decide)) .nil
  have spelled : "&#038;lt;&#x3C;;" = String.ofList samplePieces.flatten := by decide
  have escaped : "&amp;lt;" = String.ofList ("&lt;".toList.flatMap escape) := by decide
  rw [spelled, escaped]
  exact ⟨written, decode_written.1 _ _ written, decode_written.2.2 _⟩

end JsxFactory.Text.Entity
