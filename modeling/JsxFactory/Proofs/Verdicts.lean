/-
# The verdict of a run

A run that has a result has either code or errors, and never both. On its way a
result is pending: there may be warnings in it, but neither code nor an error. Each
stage hands a pending result on, or it ends the run with a result that has failed;
only the last step writes code.

Where every diagnostic counts as an error, a stage hands on only what it was given,
for there was nothing to report. So a run that gets through under this rule gets
through without it, and with the same code.
-/

import JsxFactory.Proofs.Rerunning

namespace JsxFactory

/-! ## No text is empty -/

namespace Number

theorem layout_ne_nil (format : NumberFormat) (digits : List Char) (point : Int) :
    format.layout digits point ≠ [] := by
  -- Every branch has a point or an exponent in it, whatever the digits are.
  unfold NumberFormat.layout
  split_ifs <;> simp

theorem doubleText_ne_nil (x : Double) : doubleText x ≠ [] := by
  unfold doubleText
  dsimp only
  split_ifs
  · exact List.cons_ne_nil _ _
  · exact List.cons_ne_nil _ _
  · exact List.cons_ne_nil _ _
  · exact layout_ne_nil format _ _

theorem text_ne_nil (number : Number) : number.text ≠ [] := by
  cases number with
  | integer value =>
    obtain ⟨c, more, leading, _⟩ := Json.Parser.exists_integerText_eq_cons value
    rw [text, leading]
    exact List.cons_ne_nil c more
  | double value => exact doubleText_ne_nil value

end Number

namespace Json

theorem write_ne_nil (layout : Layout) (level : Nat) (value : Json) (rest : List Char) :
    write layout level value rest ≠ [] := by
  cases value with
  | null => exact List.cons_ne_nil _ _
  | bool value => cases value <;> exact List.cons_ne_nil _ _
  | number value => exact List.append_ne_nil_of_left_ne_nil value.text_ne_nil rest
  | string value => exact List.cons_ne_nil _ _
  | array items => cases items <;> exact List.cons_ne_nil _ _
  | object members => cases members <;> exact List.cons_ne_nil _ _

theorem render_ne_empty (layout : Layout) (value : Json) : value.render layout ≠ "" := by
  intro empty
  apply write_ne_nil layout 0 value []
  rw [← String.toList_ofList (l := write layout 0 value [])]
  exact congrArg String.toList empty

end Json

namespace CommandLine

variable {language : Language} {source : String} {arguments : Arguments} {options : Options}
  {render : Diagnostic → String}

/-! ## Results -/

namespace Compilation

variable {result : Compilation}

/-- There are no warnings where warnings are errors. -/
def Quiet (arguments : Arguments) (result : Compilation) : Prop :=
  arguments.warningsAsErrors = true → result.warnings = []

/-- A result on the way: there is neither code nor an error. -/
structure Pending (arguments : Arguments) (result : Compilation) : Prop where
  code : result.code = ""
  errors : result.errors = []
  quiet : Quiet arguments result

/-- A result with errors, and without code. -/
structure Failed (arguments : Arguments) (result : Compilation) : Prop where
  code : result.code = ""
  errors : result.errors ≠ []
  quiet : Quiet arguments result

/-- A result with code, and without errors. -/
structure Written (arguments : Arguments) (result : Compilation) : Prop where
  code : result.code ≠ ""
  errors : result.errors = []
  quiet : Quiet arguments result

/-- A result at the end of a run: it has failed, or there is code. -/
def Ended (arguments : Arguments) (result : Compilation) : Prop :=
  Failed arguments result ∨ Written arguments result

theorem pending_empty (arguments : Arguments) : Pending arguments {} :=
  ⟨rfl, rfl, fun _ => rfl⟩

theorem Pending.fail (pending : Pending arguments result) (message : String) :
    Failed arguments (result.fail message) :=
  ⟨pending.code, errors_fail_ne_nil result message, pending.quiet⟩

theorem Pending.write (pending : Pending arguments result) (document : Json)
    (layout : Json.Layout) :
    Written arguments { result with code := document.render layout } :=
  ⟨document.render_ne_empty layout, pending.errors, pending.quiet⟩

/-- Where warnings are errors, every diagnostic counts as one. -/
theorem isError_of_warningsAsErrors (strict : arguments.warningsAsErrors = true)
    (diagnostic : Diagnostic) : isError arguments diagnostic = true := by
  rw [isError, adjusted, if_pos strict]
  rfl

theorem Quiet.report (quiet : Quiet arguments result) (diagnostics : List Diagnostic) :
    Quiet arguments (result.report render arguments diagnostics) := by
  intro strict
  -- What is filtered out as a mere warning is nothing here.
  have nothing : (diagnostics.filter fun d => !isError arguments d) = [] := by
    apply List.filter_eq_nil_iff.mpr
    intro diagnostic _
    simp [isError_of_warningsAsErrors strict]
  change result.warnings ++ _ = []
  rw [quiet strict, nothing]
  rfl

/-- Without an error among the diagnostics the result goes on. -/
theorem Pending.report (pending : Pending arguments result) {diagnostics : List Diagnostic}
    (harmless : diagnostics.any (isError arguments) = false) :
    Pending arguments (result.report render arguments diagnostics) where
  code := pending.code
  errors := by
    have nothing : diagnostics.filter (isError arguments) = [] := by
      apply List.filter_eq_nil_iff.mpr
      simpa using harmless
    change result.errors ++ _ = []
    rw [pending.errors, nothing]
    rfl
  quiet := pending.quiet.report diagnostics

/-- With an error among the diagnostics the result has failed. -/
theorem Pending.report_failed (pending : Pending arguments result)
    {diagnostics : List Diagnostic} (harmful : diagnostics.any (isError arguments) = true) :
    Failed arguments (result.report render arguments diagnostics) where
  code := pending.code
  errors := by
    obtain ⟨diagnostic, mem, error⟩ := List.any_eq_true.mp harmful
    apply List.append_ne_nil_of_right_ne_nil
    exact List.ne_nil_of_mem
      (List.mem_map_of_mem (List.mem_filter.mpr ⟨mem, error⟩))
  quiet := pending.quiet.report diagnostics

theorem Ended.errors_eq_nil_iff (ended : Ended arguments result) :
    result.errors = [] ↔ result.code ≠ "" := by
  rcases ended with failed | written
  · exact iff_of_false failed.errors (not_not.mpr failed.code)
  · exact iff_of_true written.errors written.code

theorem Ended.quiet (ended : Ended arguments result) : Quiet arguments result :=
  ended.elim Failed.quiet Written.quiet

end Compilation

open Compilation

/-! ## Stages

What a stage hands on holds a result; `held` says which. -/

/-- A stage that goes on does so with a pending result, and one that ends the run
ends it with a result that has failed. -/
inductive Stage.Sound {α : Type} (arguments : Arguments) (held : α → Compilation) :
    Stage α → Prop
  | goesOn {value : α} : Pending arguments (held value) → Sound arguments held (.ok value)
  | ends {result : Compilation} : Failed arguments result → Sound arguments held (.error result)

theorem Stage.Sound.bind {α β : Type} {held : α → Compilation} {held' : β → Compilation}
    {stage : Stage α} {next : α → Stage β} (sound : Stage.Sound arguments held stage)
    (onward : ∀ value, Pending arguments (held value) → Stage.Sound arguments held' (next value)) :
    Stage.Sound arguments held' (stage >>= next) := by
  cases sound with
  | goesOn pending => exact onward _ pending
  | ends failed => exact .ends failed

theorem reportStage_sound {result : Compilation} (pending : Pending arguments result)
    (diagnostics : List Diagnostic) :
    Stage.Sound arguments id (reportStage render arguments result diagnostics) := by
  unfold reportStage
  by_cases harmful : diagnostics.any (isError arguments) = true
  · rw [if_pos harmful]
    exact .ends (pending.report_failed harmful)
  · rw [if_neg harmful]
    exact .goesOn (pending.report (Bool.eq_false_of_not_eq_true harmful))

theorem programTree_sound (language : Language) (arguments : Arguments) (source : String)
    (parse : Parse) :
    Stage.Sound arguments Prod.snd (programTree language arguments source parse) := by
  apply (reportStage_sound (pending_empty arguments) parse.diagnostics).bind
  intro afterParse pending
  apply (reportStage_sound pending (language.check parse.program)).bind
  intro afterCheck pending
  apply (reportStage_sound pending (Tree.ofProgram parse.program).diagnostics).bind
  intro afterLowering pending
  exact .goesOn pending

/-- Where warnings are errors, a stage goes on only if there is nothing to report,
and then it goes on under any rule. -/
theorem reportStage_of_strict (strict : arguments.warningsAsErrors = true)
    {result result' : Compilation} {diagnostics : List Diagnostic}
    (goesOn : reportStage render arguments result diagnostics = .ok result')
    (others : Arguments) : reportStage render others result diagnostics = .ok result' := by
  cases diagnostics with
  | nil => exact goesOn
  | cons first rest =>
    have harmful : (first :: rest).any (isError arguments) = true := by
      rw [List.any_cons, isError_of_warningsAsErrors strict, Bool.true_or]
    rw [reportStage, if_pos harmful] at goesOn
    cases goesOn

theorem programTree_of_strict (strict : arguments.warningsAsErrors = true) {parse : Parse}
    {value : Tree × Compilation}
    (goesOn : programTree language arguments source parse = .ok value) (others : Arguments) :
    programTree language others source parse = .ok value := by
  -- The stages are gone through once more, each with what it had handed on.
  obtain ⟨afterParse, parsed, goesOn⟩ := Term.ok_of_bind goesOn
  obtain ⟨afterCheck, checked, goesOn⟩ := Term.ok_of_bind goesOn
  obtain ⟨afterLowering, lowered, goesOn⟩ := Term.ok_of_bind goesOn
  unfold programTree
  dsimp only
  rw [reportStage_of_strict strict parsed others]
  change reportStage _ others afterParse _ >>= _ = _
  rw [reportStage_of_strict strict checked others]
  change reportStage _ others afterCheck _ >>= _ = _
  rw [reportStage_of_strict strict lowered others]
  exact goesOn

/-! ## Runs

The two kinds of sources differ in the way to a tree; what comes after it is the
same. -/

/-- The tree of a source, and the warnings on the way to it. -/
def sourceTree (language : Language) (source : String) (arguments : Arguments) :
    Stage (Tree × Compilation) :=
  if arguments.estree then (documentTree source).map (·, {})
  else programTree language arguments source (language.parse arguments.typescript source)

/-- The result of a run, from what there is once the source has been read. -/
def conclude (arguments : Arguments) (options : Options) : Stage (Tree × Compilation) → Compilation
  | .ok (t, result) => emit arguments options t result
  | .error result => result

/-- The source has to be parsed, and the parser gives up without a diagnostic. -/
def GivesUp (language : Language) (source : String) (arguments : Arguments) : Prop :=
  arguments.estree = false ∧ (language.parse arguments.typescript source).panicked = true ∧
    (language.parse arguments.typescript source).diagnostics = []

theorem sourceTree_sound (language : Language) (source : String) (arguments : Arguments) :
    Stage.Sound arguments Prod.snd (sourceTree language source arguments) := by
  unfold sourceTree
  by_cases estree : arguments.estree = true
  · rw [if_pos estree]
    rcases documentTree_cases source with ⟨_, t, _, _, tree⟩ | ⟨message, tree⟩
    · rw [tree]
      exact .goesOn (pending_empty arguments)
    · rw [tree]
      exact .ends ((pending_empty arguments).fail message)
  · rw [if_neg estree]
    exact programTree_sound language arguments source _

theorem sourceTree_of_strict (strict : arguments.warningsAsErrors = true)
    {value : Tree × Compilation} (goesOn : sourceTree language source arguments = .ok value)
    {others : Arguments} (sameForm : others.estree = arguments.estree)
    (sameSyntax : others.typescript = arguments.typescript) :
    sourceTree language source others = .ok value := by
  unfold sourceTree at goesOn ⊢
  rw [sameForm, sameSyntax]
  by_cases estree : arguments.estree = true
  · rw [if_pos estree] at goesOn ⊢
    exact goesOn
  · rw [if_neg estree] at goesOn ⊢
    exact programTree_of_strict strict goesOn others

theorem emit_ended {result : Compilation} (pending : Pending arguments result)
    (options : Options) (t : Tree) : Ended arguments (emit arguments options t result) := by
  rcases emit_cases arguments options t result with ⟨_, document, _, _, code⟩ | ⟨message, failed⟩
  · rw [code]
    exact .inr (pending.write document (layout arguments))
  · rw [failed]
    exact .inl (pending.fail message)

theorem conclude_ended {stage : Stage (Tree × Compilation)}
    (sound : Stage.Sound arguments Prod.snd stage) (options : Options) :
    Ended arguments (conclude arguments options stage) := by
  cases sound with
  | @goesOn value pending => exact emit_ended pending options value.1
  | ends failed => exact .inl failed

instance : Decidable (GivesUp language source arguments) :=
  inferInstanceAs (Decidable (_ ∧ _ ∧ _))

theorem givesUp_iff (parsed : arguments.estree = false) :
    GivesUp language source arguments ↔
      ((language.parse arguments.typescript source).panicked &&
        (language.parse arguments.typescript source).diagnostics.isEmpty) = true := by
  rw [Bool.and_eq_true, List.isEmpty_iff]
  exact and_iff_right parsed

/-- A run resolves its options, gives up with the parser, or comes to a conclusion. -/
theorem run_eq_conclude (language : Language) (source : String) (arguments : Arguments) :
    run language source arguments = arguments.resolve.mapError .invalidOptions >>= fun options =>
      if GivesUp language source arguments then .error .parserPanicked
      else .ok (conclude arguments options (sourceTree language source arguments)) := by
  unfold run sourceTree
  apply congrArg
  funext options
  by_cases estree : arguments.estree = true
  · -- A document is not given to the parser, so the parser cannot give up.
    have goesOn : ¬GivesUp language source arguments := by
      rintro ⟨parsed, _⟩
      cases estree.symm.trans parsed
    rw [if_pos estree, if_pos estree, if_neg goesOn]
    cases documentTree source <;> rfl
  · rw [if_neg estree, if_neg estree]
    by_cases givesUp : GivesUp language source arguments
    · rw [if_pos givesUp]
      exact if_pos ((givesUp_iff (Bool.eq_false_of_not_eq_true estree)).mp givesUp)
    · rw [if_neg givesUp]
      apply (if_neg (mt (givesUp_iff (Bool.eq_false_of_not_eq_true estree)).mpr givesUp)).trans
      cases programTree language arguments source
        (language.parse arguments.typescript source) <;> rfl

theorem resolve_eq_error_iff {error : Options.ReadError} :
    arguments.resolve = .error error ↔
      ∃ text, arguments.options = some text ∧ Options.ofText text = .error error := by
  unfold Arguments.resolve
  cases arguments.options with
  | none =>
    constructor
    · rintro ⟨⟩
    · rintro ⟨_, ⟨⟩, _⟩
  | some text =>
    dsimp only
    constructor
    · intro fails
      refine ⟨text, rfl, ?_⟩
      cases reads : Options.ofText text with
      | error problem =>
        rw [reads] at fails
        cases fails
        rfl
      | ok options =>
        rw [reads] at fails
        cases fails
    · rintro ⟨_, ⟨⟩, fails⟩
      rw [fails]
      rfl

/-- A run that has a result has come to its conclusion. -/
theorem run_eq_ok_iff {result : Compilation} :
    run language source arguments = .ok result ↔
      ¬GivesUp language source arguments ∧ ∃ options, arguments.resolve = .ok options ∧
        conclude arguments options (sourceTree language source arguments) = result := by
  rw [run_eq_conclude]
  cases arguments.resolve with
  | error problem =>
    constructor
    · rintro ⟨⟩
    · rintro ⟨_, _, ⟨⟩, _⟩
  | ok options =>
    change ite _ _ _ = _ ↔ _
    by_cases givesUp : GivesUp language source arguments
    · rw [if_pos givesUp]
      exact iff_of_false (by rintro ⟨⟩) fun succeeds => succeeds.1 givesUp
    · rw [if_neg givesUp]
      constructor
      · rintro ⟨⟩
        exact ⟨givesUp, options, rfl, rfl⟩
      · rintro ⟨_, _, ⟨⟩, rfl⟩
        rfl

/-- A run without a result has found its options or its parser at fault. -/
theorem run_eq_error_iff {fatal : Fatal} :
    run language source arguments = .error fatal ↔
      (∃ error, arguments.resolve = .error error ∧ fatal = .invalidOptions error) ∨
      (∃ options, arguments.resolve = .ok options) ∧ GivesUp language source arguments ∧
        fatal = .parserPanicked := by
  rw [run_eq_conclude]
  cases arguments.resolve with
  | error problem =>
    constructor
    · rintro ⟨⟩
      exact .inl ⟨problem, rfl, rfl⟩
    · rintro (⟨_, ⟨⟩, rfl⟩ | ⟨⟨_, ⟨⟩⟩, _⟩)
      rfl
  | ok options =>
    change ite _ _ _ = _ ↔ _
    by_cases givesUp : GivesUp language source arguments
    · rw [if_pos givesUp]
      constructor
      · rintro ⟨⟩
        exact .inr ⟨⟨options, rfl⟩, givesUp, rfl⟩
      · rintro (⟨_, ⟨⟩, _⟩ | ⟨_, _, rfl⟩)
        rfl
    · rw [if_neg givesUp]
      constructor
      · rintro ⟨⟩
      · rintro (⟨_, ⟨⟩, _⟩ | ⟨_, gaveUp, _⟩)
        exact absurd gaveUp givesUp

theorem run_ended {result : Compilation} (runs : run language source arguments = .ok result) :
    Ended arguments result := by
  obtain ⟨_, options, _, rfl⟩ := run_eq_ok_iff.mp runs
  exact conclude_ended (sourceTree_sound language source arguments) options

/-- A run without errors where warnings are errors has the same result where they
are not. -/
theorem run_of_strict {result : Compilation}
    (runs : run language source { arguments with warningsAsErrors := true } = .ok result)
    (clean : result.errors = []) :
    run language source { arguments with warningsAsErrors := false } = .ok result := by
  obtain ⟨goesOn, options, resolves, rfl⟩ := run_eq_ok_iff.mp runs
  apply run_eq_ok_iff.mpr
  refine ⟨goesOn, options, resolves, ?_⟩
  -- Nothing was reported on the way to the tree, or else there would be an error.
  cases tree : sourceTree language source { arguments with warningsAsErrors := true } with
  | error result =>
    have sound := sourceTree_sound language source { arguments with warningsAsErrors := true }
    rw [tree] at sound clean
    cases sound with
    | ends failed => exact absurd clean failed.errors
  | ok value =>
    have again : sourceTree language source { arguments with warningsAsErrors := false } =
        .ok value := sourceTree_of_strict rfl tree rfl rfl
    rw [again]
    rfl

/-- A run is all or nothing: its result has code exactly if it has no errors. Where
warnings are errors there are no warnings, and a run without errors has the same code,
and nothing to report, where they are not. A run without a result had options that
cannot be read, or a parser that gave up without a diagnostic. -/
theorem run_all_or_nothing (language : Language) (source : String) (arguments : Arguments) :
    (∀ result, run language source arguments = .ok result →
      (result.errors = [] ↔ result.code ≠ "") ∧
        (arguments.warningsAsErrors = true → result.warnings = [])) ∧
    (∀ result, run language source { arguments with warningsAsErrors := true } = .ok result →
      result.errors = [] →
        run language source { arguments with warningsAsErrors := false } =
          .ok { code := result.code, warnings := [], errors := [] }) ∧
    (∀ fatal, run language source arguments = .error fatal ↔
      (∃ error, (∃ text, arguments.options = some text ∧ Options.ofText text = .error error) ∧
        fatal = .invalidOptions error) ∨
      (∃ options, arguments.resolve = .ok options) ∧ GivesUp language source arguments ∧
        fatal = .parserPanicked) := by
  refine ⟨fun result runs => ?_, fun result runs clean => ?_, fun fatal => ?_⟩
  · have ended := run_ended runs
    exact ⟨ended.errors_eq_nil_iff, ended.quiet⟩
  · have quiet : result.warnings = [] := (run_ended runs).quiet rfl
    obtain ⟨code, warnings, errors⟩ := result
    cases quiet
    cases clean
    exact run_of_strict runs rfl
  · rw [run_eq_error_iff]
    apply or_congr_left
    simp only [resolve_eq_error_iff]

/-- Every source is taken for `<a />`, with a warning if there may be types in it, and
a diagnostic is shown after its severity. -/
def warningLanguage : Language where
  parse typescript _ :=
    { panicked := false
      diagnostics := if typescript then [{ severity := .warning, message := "unused" }] else []
      program := ⟨.module, [.expression ⟨0, 5⟩ (.element
        (.mk ⟨0, 5⟩ (.dotted (.simple ⟨1, 2⟩ "a")) [] [] false))]⟩ }
  check _ := []
  render _ diagnostic :=
    (if diagnostic.severity = .error then "error: " else "warning: ") ++ diagnostic.message

theorem run_all_or_nothing_warningLanguage :
    (∃ result, run warningLanguage "" { typescript := true } = .ok result ∧
      result.warnings = ["warning: unused"] ∧ result.code ≠ "") ∧
    (∃ result, run warningLanguage "" { typescript := true, warningsAsErrors := true } =
      .ok result ∧ result.errors = ["error: unused"] ∧ result.warnings = []) ∧
    (∃ result, run warningLanguage "" { warningsAsErrors := true } = .ok result ∧
      result.errors = [] ∧ run warningLanguage "" {} = .ok { code := result.code }) ∧
    ∃ error, run warningLanguage "" { options := some "?" } = .error (.invalidOptions error) := by
  have warned : ((run warningLanguage "" { typescript := true }).toOption.any fun result =>
      result.warnings = ["warning: unused"] ∧ result.errors = []) = true := by decide +kernel
  have silent : ((run warningLanguage "" { warningsAsErrors := true }).toOption.any fun result =>
      result.errors = []) = true := by decide +kernel
  refine ⟨?_, ⟨_, rfl, rfl, ?_⟩, ?_, ?_⟩
  · cases runs : run warningLanguage "" { typescript := true } with
    | error fatal =>
      rw [runs] at warned
      cases warned
    | ok result =>
      rw [runs] at warned
      obtain ⟨warnings, errors⟩ := of_decide_eq_true warned
      have ended := (run_all_or_nothing warningLanguage "" { typescript := true }).1 result runs
      exact ⟨result, rfl, warnings, ended.1.mp errors⟩
  · have ended := run_all_or_nothing warningLanguage ""
      { typescript := true, warningsAsErrors := true }
    exact (ended.1 _ rfl).2 rfl
  · cases runs : run warningLanguage "" { warningsAsErrors := true } with
    | error fatal =>
      rw [runs] at silent
      cases silent
    | ok result =>
      rw [runs] at silent
      have errors : result.errors = [] := of_decide_eq_true silent
      exact ⟨result, rfl, errors,
        (run_all_or_nothing warningLanguage "" {}).2.1 result runs errors⟩
  · exact ⟨_, ((run_all_or_nothing warningLanguage "" { options := some "?" }).2.2 _).mpr
      (.inl ⟨_, ⟨"?", rfl, rfl⟩, rfl⟩)⟩

end CommandLine

end JsxFactory
