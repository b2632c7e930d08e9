/-
# Writing out arguments

Arguments can be written out as words in many ways. A setting stands with its long
name and its value in one word; a flag stands with its long name, or with its letter
in a cluster, alone or among others. The words come in any order, and after them, behind
a double dash, the entry point. Whichever way is taken, reading the words gives the
arguments back, and a value can be any text.

Reading is followed from word to word: what has been read so far is what the words
so far have given, and nothing waits for a value. A name that comes twice would be
refused, but arguments give each of their names once.
-/

import JsxFactory.CommandLine.Arguments
import Mathlib.Data.List.Forall2
import Mathlib.Data.List.Nodup
import Mathlib.Data.List.TakeWhile

namespace JsxFactory.CommandLine

/-! ## Names -/

/-- The long name of a setting. -/
def Setting.longName : Setting → String
  | .output => "output"
  | .factory => "factory"
  | .options => "options"

/-- The long name of a flag, if it has one. -/
def Flag.longName? : Flag → Option String
  | .noQuotePropNames => some "no-quote-prop-names"
  | .noQuoteIntrinsic => some "no-quote-intrinsic"
  | .keepComments => some "keep-comments"
  | .estree => some "estree"
  | .typescript => some "typescript"
  | .compact => some "compact"
  | .warningsAsErrors => none

/-- The letter of a flag, if it has one. -/
def Flag.letter? : Flag → Option Char
  | .estree => some 'E'
  | .typescript => some 'T'
  | .compact => some 'c'
  | .warningsAsErrors => some 'W'
  | .noQuotePropNames | .noQuoteIntrinsic | .keepComments => none

/-- All settings. -/
def Setting.all : List Setting :=
  [.output, .factory, .options]

/-- All flags. -/
def Flag.all : List Flag :=
  [.noQuotePropNames, .noQuoteIntrinsic, .keepComments, .estree, .typescript, .compact,
    .warningsAsErrors]

theorem Setting.mem_all (setting : Setting) : setting ∈ Setting.all := by
  cases setting <;> decide

theorem Flag.mem_all (flag : Flag) : flag ∈ Flag.all := by
  cases flag <;> decide

theorem Setting.lookup_longName (setting : Setting) :
    longNames.lookup setting.longName = some (.setting setting) := by
  cases setting <;> rfl

theorem Flag.lookup_longName {flag : Flag} {name : String} (named : flag.longName? = some name) :
    longNames.lookup name = some (.flag flag) := by
  cases flag <;> cases named <;> rfl

theorem Flag.lookup_letter {flag : Flag} {letter : Char} (named : flag.letter? = some letter) :
    shortNames.lookup letter = some (.flag flag) := by
  cases flag <;> cases named <;> rfl

theorem Flag.letter_ne_dash {flag : Flag} {letter : Char} (named : flag.letter? = some letter) :
    letter ≠ '-' := by
  cases flag <;> cases named <;> decide

-- A value begins at the first equals sign, so no name may have one.

theorem Setting.longName_ne_equals (setting : Setting) :
    ∀ c ∈ setting.longName.toList, c ≠ '=' := by
  have all : setting.longName.toList.all (· ≠ '=') = true := by cases setting <;> rfl
  simpa using all

theorem Flag.longName_ne_equals {flag : Flag} {name : String} (named : flag.longName? = some name) :
    ∀ c ∈ name.toList, c ≠ '=' := by
  have all : name.toList.all (· ≠ '=') = true := by cases flag <;> cases named <;> rfl
  simpa using all

/-! ## What arguments give -/

/-- A setting with its value, or a flag. -/
inductive Given
  | setting (setting : Setting) (value : String)
  | flag (flag : Flag)
deriving DecidableEq, Repr

/-- The name under which something is given. -/
def Given.name : Given → Name
  | .setting which _ => .setting which
  | .flag which => .flag which

namespace Arguments

variable {arguments : Arguments}

/-- All that arguments give before the entry point. -/
def givens (arguments : Arguments) : List Given :=
  Setting.all.filterMap (fun setting => (arguments.value? setting).map (.setting setting)) ++
    (Flag.all.filter arguments.has).map .flag

/-- The words that close a command line: the entry point behind a double dash. -/
def entryWords (arguments : Arguments) : List String :=
  match arguments.entryPoint with
  | none => []
  | some entryPoint => ["--", entryPoint]

theorem setting_mem_givens {setting : Setting} {value : String} :
    .setting setting value ∈ arguments.givens ↔ arguments.value? setting = some value := by
  simp [givens, Setting.mem_all]

theorem flag_mem_givens {flag : Flag} :
    .flag flag ∈ arguments.givens ↔ arguments.has flag = true := by
  simp [givens, Flag.mem_all]

/-- Each name is given once. -/
theorem nodup_givens (arguments : Arguments) : (arguments.givens.map Given.name).Nodup := by
  rw [givens, List.map_append, List.map_filterMap, List.map_map]
  apply List.Nodup.append
  · -- A setting is found in its name, so two settings have two names.
    apply List.Nodup.filterMap
    · intro first second name mem again
      simp only [Option.map_map, Option.mem_def, Option.map_eq_some_iff] at mem again
      obtain ⟨_, _, rfl⟩ := mem
      obtain ⟨_, _, same⟩ := again
      exact (Name.setting.inj same).symm
    · decide
  · apply List.Nodup.map
    · intro first second same
      exact Name.flag.inj same
    · exact List.Nodup.filter _ (by decide)
  · -- No setting has the name of a flag.
    intro name mem again
    obtain ⟨flag, _, rfl⟩ := List.mem_map.mp again
    obtain ⟨setting, _, same⟩ := List.mem_filterMap.mp mem
    simp [Given.name] at same

/-- Arguments are told apart by their flags, their settings and their entry points. -/
theorem eq_of_has_eq {others : Arguments} (flags : ∀ flag, arguments.has flag = others.has flag)
    (settings : ∀ setting, arguments.value? setting = others.value? setting)
    (entryPoints : arguments.entryPoint = others.entryPoint) : arguments = others := by
  cases arguments
  cases others
  rw [Arguments.mk.injEq]
  exact ⟨settings .output, settings .factory, flags .noQuotePropNames, flags .noQuoteIntrinsic,
    flags .keepComments, settings .options, flags .estree, flags .typescript, flags .compact,
    flags .warningsAsErrors, entryPoints⟩

/-! ### One more argument -/

@[simp] theorem has_raise {flag other : Flag} :
    (arguments.raise flag).has other = true ↔ arguments.has other = true ∨ other = flag := by
  cases flag <;> cases other <;> simp [raise, has]

@[simp] theorem value?_raise {flag : Flag} {setting : Setting} :
    (arguments.raise flag).value? setting = arguments.value? setting := by
  cases flag <;> cases setting <;> rfl

@[simp] theorem entryPoint_raise {flag : Flag} :
    (arguments.raise flag).entryPoint = arguments.entryPoint := by
  cases flag <;> rfl

@[simp] theorem has_assign {value : String} {setting : Setting} {flag : Flag} :
    (arguments.assign value setting).has flag = arguments.has flag := by
  cases setting <;> cases flag <;> rfl

@[simp] theorem value?_assign {value : String} {setting other : Setting} :
    (arguments.assign value setting).value? other =
      if other = setting then some value else arguments.value? other := by
  cases setting <;> cases other <;> rfl

@[simp] theorem entryPoint_assign {value : String} {setting : Setting} :
    (arguments.assign value setting).entryPoint = arguments.entryPoint := by
  cases setting <;> rfl

end Arguments

/-! ## Words -/

/-- A word of a command line, and what it gives. -/
inductive Gives : String → List Given → Prop
  /-- A setting and its value. -/
  | setting (setting : Setting) (value : String) :
    Gives ("--" ++ setting.longName ++ "=" ++ value) [.setting setting value]
  /-- A flag with its long name. -/
  | long {flag : Flag} {name : String} : flag.longName? = some name →
    Gives ("--" ++ name) [.flag flag]
  /-- The letters of one flag or more. -/
  | cluster {flags : List Flag} {letters : List Char} : flags ≠ [] →
    List.Forall₂ (fun flag letter => flag.letter? = some letter) flags letters →
    Gives ("-" ++ String.ofList letters) (flags.map .flag)

/-- The words of a command line up to its entry point, and what they give, in their
order. -/
inductive Spells : List String → List Given → Prop
  | nil : Spells [] []
  | cons {word : String} {words : List String} {givens rest : List Given} :
    Gives word givens → Spells words rest → Spells (word :: words) (givens ++ rest)

/-- The words in another order give the same in another order. -/
theorem Spells.of_perm {words others : List String} {givens : List Given}
    (spells : Spells words givens) (reordered : words.Perm others) :
    ∃ givens', givens.Perm givens' ∧ Spells others givens' := by
  induction reordered generalizing givens with
  | nil => exact ⟨givens, .rfl, spells⟩
  | cons word _ ih =>
    cases spells with
    | cons gives spells =>
      obtain ⟨rest, perm, spelled⟩ := ih spells
      exact ⟨_, perm.append_left _, .cons gives spelled⟩
  | swap first second words =>
    cases spells with
    | @cons _ _ givens₁ _ gives₁ spells =>
      cases spells with
      | @cons _ _ givens₂ rest gives₂ spells =>
        refine ⟨givens₂ ++ (givens₁ ++ rest), ?_, .cons gives₂ (.cons gives₁ spells)⟩
        rw [← List.append_assoc, ← List.append_assoc]
        exact List.perm_append_comm.append_right rest
  | trans _ _ ih₁ ih₂ =>
    obtain ⟨_, perm₁, spells⟩ := ih₁ spells
    obtain ⟨_, perm₂, spells⟩ := ih₂ spells
    exact ⟨_, perm₁.trans perm₂, spells⟩

/-! ### A plain way of writing -/

/-- A word that gives one thing: a letter stands for a flag without a long name. -/
def Given.word : Given → String
  | .setting which value => "--" ++ which.longName ++ "=" ++ value
  | .flag which =>
    match which.longName? with
    | some name => "--" ++ name
    | none => "-" ++ String.ofList which.letter?.toList

theorem gives_word (given : Given) : Gives given.word [given] := by
  cases given with
  | setting setting value => exact .setting setting value
  | flag flag =>
    cases named : flag.longName? with
    | some name =>
      rw [Given.word, named]
      exact .long named
    | none =>
      -- Only one flag has to be written with its letter.
      cases flag <;> cases named
      exact .cluster (List.cons_ne_nil _ _) (.cons rfl .nil)

theorem spells_word (givens : List Given) : Spells (givens.map Given.word) givens := by
  induction givens with
  | nil => exact .nil
  | cons given rest ih => exact .cons (gives_word given) ih

/-! ## Reading -/

namespace Progress

variable {progress : Progress} {done givens : List Given} {given : Given}

/-- Reads one thing that is given. -/
def take (progress : Progress) : Given → Except UsageError Progress
  | .setting which value => progress.attached which value.toList
  | .flag which => progress.name (.flag which)

theorem foldlM_take_singleton (progress : Progress) (given : Given) :
    [given].foldlM take progress = progress.take given := by
  rw [List.foldlM_cons]
  exact bind_pure _

theorem long_setting (progress : Progress) (setting : Setting) (value : List Char) :
    progress.long (setting.longName.toList ++ '=' :: value) =
      progress.attached setting value := by
  have plain : ∀ c ∈ setting.longName.toList, decide (c ≠ '=') = true := fun c mem =>
    decide_eq_true (setting.longName_ne_equals c mem)
  -- The first equals sign is the one behind the name, whatever the value is.
  have before : (setting.longName.toList ++ '=' :: value).takeWhile (· ≠ '=') =
      setting.longName.toList := by
    rw [List.takeWhile_append_of_pos plain, List.takeWhile_cons_of_neg (by decide),
      List.append_nil]
  have after : (setting.longName.toList ++ '=' :: value).dropWhile (· ≠ '=') = '=' :: value := by
    rw [List.dropWhile_append_of_pos plain, List.dropWhile_cons_of_neg (by decide)]
  rw [Progress.long, before, after, String.ofList_toList, setting.lookup_longName]

theorem long_flag (progress : Progress) {flag : Flag} {name : String}
    (named : flag.longName? = some name) :
    progress.long name.toList = progress.name (.flag flag) := by
  have plain : ∀ c ∈ name.toList, decide (c ≠ '=') = true := fun c mem =>
    decide_eq_true (Flag.longName_ne_equals named c mem)
  rw [Progress.long, List.takeWhile_eq_self_iff.mpr plain, List.dropWhile_eq_nil_iff.mpr plain,
    String.ofList_toList, Flag.lookup_longName named]

/-- A cluster is read letter by letter. -/
theorem cluster_of_forall₂ {flags : List Flag} {letters : List Char}
    (named : List.Forall₂ (fun flag letter => flag.letter? = some letter) flags letters)
    (progress : Progress) :
    progress.cluster letters = (flags.map Given.flag).foldlM take progress := by
  induction named generalizing progress with
  | nil => rfl
  | cons letter _ ih =>
    rw [Progress.cluster, Flag.lookup_letter letter, List.map_cons, List.foldlM_cons]
    dsimp only
    apply congrArg
    funext progress'
    exact ih progress'

theorem word_letters (progress : Progress) {c : Char} (ne : c ≠ '-') (rest : List Char) :
    progress.word ('-' :: c :: rest) = progress.cluster (c :: rest) := by
  rw [Progress.word]
  exact ne

/-- A word is read as what it gives. -/
theorem word_of_gives {word : String} (gives : Gives word givens) (progress : Progress) :
    progress.word word.toList = givens.foldlM take progress := by
  cases gives with
  | setting setting value =>
    have spelled : ("--" ++ setting.longName ++ "=" ++ value).toList =
        '-' :: '-' :: (setting.longName.toList ++ '=' :: value.toList) := by simp
    rw [spelled, foldlM_take_singleton]
    exact long_setting progress setting value.toList
  | @long flag name named =>
    have spelled : ("--" ++ name).toList = '-' :: '-' :: name.toList := String.toList_append
    rw [spelled, foldlM_take_singleton]
    exact long_flag progress named
  | @cluster flags letters nonempty named =>
    have spelled : ("-" ++ String.ofList letters).toList = '-' :: letters := by simp
    rw [spelled, ← cluster_of_forall₂ named]
    cases named with
    | nil => exact absurd rfl nonempty
    | cons letter _ => exact word_letters progress (Flag.letter_ne_dash letter) _

theorem ne_doubleDash_of_gives {word : String} (gives : Gives word givens) : word ≠ "--" := by
  intro same
  have letters := congrArg String.toList same
  cases gives with
  | setting setting value => simp at letters
  | @long flag name named =>
    cases flag <;> cases named <;> simp at letters
  | cluster nonempty named =>
    cases named with
    | nil => exact absurd rfl nonempty
    | @cons flag c _ rest letter _ =>
      have dash : c = '-' ∧ rest = [] := by simpa using letters
      exact Flag.letter_ne_dash letter dash.1

/-- Words are read as what they give, one after the other. -/
theorem words_of_spells {words : List String} (spells : Spells words givens)
    (progress : Progress) (rest : List String) :
    progress.words (words ++ rest) = givens.foldlM take progress >>= fun p => p.words rest := by
  induction spells generalizing progress with
  | nil => rfl
  | @cons word words givens others gives spells ih =>
    rw [List.cons_append, Progress.words, if_neg (ne_doubleDash_of_gives gives),
      word_of_gives gives, List.foldlM_append, bind_assoc]
    apply congrArg
    funext progress'
    exact ih progress'

/-- What has been read so far is what has been given so far. -/
structure Holds (progress : Progress) (done : List Given) : Prop where
  pending : progress.pending = none
  entryPoint : progress.arguments.entryPoint = none
  flags : ∀ flag, progress.arguments.has flag = true ↔ .flag flag ∈ done
  settings : ∀ setting value,
    progress.arguments.value? setting = some value ↔ .setting setting value ∈ done

theorem holds_nil : ({} : Progress).Holds [] where
  pending := rfl
  entryPoint := rfl
  flags flag := by cases flag <;> simp [Arguments.has]
  settings setting value := by cases setting <;> simp [Arguments.value?]

theorem Holds.settle (holds : progress.Holds done) : progress.settle = .ok progress := by
  rw [Progress.settle, holds.pending]

theorem Holds.has_eq_false (holds : progress.Holds done) {flag : Flag}
    (fresh : Name.flag flag ∉ done.map Given.name) : progress.arguments.has flag = false := by
  rw [Bool.eq_false_iff, ne_eq, holds.flags]
  intro mem
  exact fresh (List.mem_map_of_mem mem)

theorem Holds.value?_eq_none (holds : progress.Holds done) {setting : Setting}
    (fresh : Name.setting setting ∉ done.map Given.name) :
    progress.arguments.value? setting = none := by
  rw [Option.eq_none_iff_forall_ne_some]
  intro value found
  exact fresh (List.mem_map_of_mem ((holds.settings setting value).mp found))

/-- What has not been given before is read, and nothing else changes. -/
theorem Holds.take (holds : progress.Holds done) (fresh : given.name ∉ done.map Given.name) :
    ∃ progress', progress.take given = .ok progress' ∧ progress'.Holds (done ++ [given]) := by
  cases given with
  | setting setting value =>
    refine ⟨{ progress with arguments := progress.arguments.assign value setting }, ?_, ?_⟩
    · rw [Progress.take, Progress.attached, holds.settle, String.ofList_toList]
      change progress.assign setting value = _
      rw [Progress.assign, holds.value?_eq_none fresh]
      rfl
    · refine ⟨holds.pending, ?_, fun flag => ?_, fun other value' => ?_⟩
      · rw [Arguments.entryPoint_assign, holds.entryPoint]
      · simp [holds.flags]
      · by_cases same : other = setting
        · -- The setting had no value before, so this is its only one.
          subst same
          have nowhere : .setting other value' ∉ done := fun mem =>
            fresh (List.mem_map.mpr ⟨_, mem, rfl⟩)
          simp [nowhere, eq_comm]
        · simp [same, holds.settings]
  | flag flag =>
    refine ⟨{ progress with arguments := progress.arguments.raise flag }, ?_, ?_⟩
    · rw [Progress.take, Progress.name, holds.settle]
      change progress.raise flag = _
      rw [Progress.raise, holds.has_eq_false fresh]
      rfl
    · refine ⟨holds.pending, ?_, fun other => ?_, fun setting value => ?_⟩
      · rw [Arguments.entryPoint_raise, holds.entryPoint]
      · simp [holds.flags]
      · simp [holds.settings]

/-- If nothing is given twice, all of it is read. -/
theorem Holds.foldlM_take (holds : progress.Holds done)
    (distinct : ((done ++ givens).map Given.name).Nodup) :
    ∃ progress', givens.foldlM Progress.take progress = .ok progress' ∧
      progress'.Holds (done ++ givens) := by
  induction givens generalizing progress done with
  | nil => exact ⟨progress, rfl, by rwa [List.append_nil]⟩
  | cons given rest ih =>
    have fresh : given.name ∉ done.map Given.name := by
      rw [List.map_append, List.map_cons] at distinct
      intro mem
      exact (List.nodup_append.mp distinct).2.2 _ mem _ List.mem_cons_self rfl
    obtain ⟨progress', takes, holds'⟩ := holds.take fresh
    rw [List.append_cons] at distinct ⊢
    obtain ⟨progress'', takesRest, holds''⟩ := ih holds' distinct
    refine ⟨progress'', ?_, holds''⟩
    rw [List.foldlM_cons, takes]
    exact takesRest

/-- All that arguments give, in any order, makes up the arguments but for the entry
point. -/
theorem Holds.arguments_eq {arguments : Arguments} (holds : progress.Holds givens)
    (complete : givens.Perm arguments.givens) :
    progress.arguments = { arguments with entryPoint := none } := by
  apply Arguments.eq_of_has_eq
  · intro flag
    rw [Bool.eq_iff_iff, holds.flags, complete.mem_iff, Arguments.flag_mem_givens]
    rfl
  · intro setting
    ext value
    rw [holds.settings, complete.mem_iff, Arguments.setting_mem_givens]
    rfl
  · exact holds.entryPoint

/-- The entry point is read behind the double dash, whatever it looks like. -/
theorem Holds.words_entryWords {arguments : Arguments} (holds : progress.Holds givens)
    (complete : givens.Perm arguments.givens) :
    progress.words arguments.entryWords = .ok { arguments, pending := none } := by
  have read :
      progress = { arguments := { arguments with entryPoint := none }, pending := none } := by
    rw [← holds.arguments_eq complete, ← holds.pending]
  rw [read]
  unfold Arguments.entryWords
  cases entry : arguments.entryPoint with
  | none =>
    cases arguments
    cases entry
    rfl
  | some entryPoint =>
    rw [Progress.words, if_pos rfl, Progress.verbatim, Progress.positional,
      String.ofList_toList, ← entry]
    rfl

end Progress

theorem parse_of_spells {arguments : Arguments} {words : List String} {givens : List Given}
    (spells : Spells words givens) (complete : givens.Perm arguments.givens) :
    Arguments.parse (words ++ arguments.entryWords) = .ok arguments := by
  have distinct : (([] ++ givens).map Given.name).Nodup :=
    (complete.map Given.name).nodup_iff.mpr arguments.nodup_givens
  obtain ⟨progress, takes, holds⟩ := Progress.holds_nil.foldlM_take distinct
  rw [Arguments.parse, Progress.words_of_spells spells, takes]
  change progress.words arguments.entryWords >>= _ = _
  rw [holds.words_entryWords complete]
  rfl

/-- Arguments can be written out, and in whatever way and order they are, reading the
words gives them back; so neither they nor the options they resolve to depend on the
order. -/
theorem parse_written (arguments : Arguments) :
    Spells (arguments.givens.map Given.word) arguments.givens ∧
    ∀ words givens, Spells words givens → givens.Perm arguments.givens →
      Arguments.parse (words ++ arguments.entryWords) = .ok arguments ∧
      ∀ others, words.Perm others →
        Arguments.parse (others ++ arguments.entryWords) = .ok arguments ∧
        (Arguments.parse (others ++ arguments.entryWords)).map Arguments.resolve =
          .ok arguments.resolve := by
  refine ⟨spells_word arguments.givens, fun words givens spells complete => ?_⟩
  refine ⟨parse_of_spells spells complete, fun others reordered => ?_⟩
  obtain ⟨givens', perm, spells'⟩ := spells.of_perm reordered
  have parses := parse_of_spells spells' (perm.symm.trans complete)
  refine ⟨parses, ?_⟩
  rw [parses]
  rfl

/-- Arguments whose values look like other arguments. -/
def sampleArguments : Arguments where
  output := some "--estree"
  factory := some "-f=g"
  noQuotePropNames := true
  estree := true
  compact := true
  warningsAsErrors := true
  entryPoint := some "--"

theorem parse_written_sampleArguments :
    Arguments.parse ["-WE", "--factory=-f=g", "--compact", "--output=--estree",
      "--no-quote-prop-names", "--", "--"] = .ok sampleArguments := by
  have letters : List.Forall₂ (fun flag letter => flag.letter? = some letter)
      [Flag.warningsAsErrors, Flag.estree] ['W', 'E'] := .cons rfl (.cons rfl .nil)
  have cluster : Gives "-WE" [.flag .warningsAsErrors, .flag .estree] :=
    .cluster (List.cons_ne_nil _ _) letters
  have factory : Gives "--factory=-f=g" [.setting .factory "-f=g"] := .setting .factory "-f=g"
  have compact : Gives "--compact" [.flag .compact] := gives_word (.flag .compact)
  have output : Gives "--output=--estree" [.setting .output "--estree"] :=
    gives_word (.setting .output "--estree")
  have names : Gives "--no-quote-prop-names" [.flag .noQuotePropNames] :=
    gives_word (.flag .noQuotePropNames)
  have spells := Spells.cons cluster (.cons factory (.cons compact (.cons output
    (.cons names .nil))))
  exact ((parse_written sampleArguments).2 _ _ spells (by decide)).1

end JsxFactory.CommandLine
