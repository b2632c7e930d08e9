/-
# A run

A run takes a source text and arguments to a result. The parser of the source
language, the checks that follow it and the way diagnostics are shown are
parameters: a syntax tree comes with diagnostics of any severity, and each is shown
together with the source. A run that finds errors has no code, and a run that has
code has no errors. Only two things keep a run from having a result at
all: options that cannot be read, and a parser that gives up without a reason.
-/

import JsxFactory.CommandLine.Arguments
import JsxFactory.Desugar
import JsxFactory.Json.Printer
import JsxFactory.Tree.Lowering
import JsxFactory.Tree.Reader
import JsxFactory.Tree.Term

namespace JsxFactory.CommandLine

/-- What a parser delivers. -/
structure Parse where
  /-- The parser gave up. -/
  panicked : Bool
  diagnostics : List Diagnostic
  program : Program

/-- A source language: its parser, with type annotations or without, the checks on a
parsed program, and how a diagnostic about a source is shown. -/
structure Language where
  parse : Bool → String → Parse
  check : Program → List Diagnostic
  render : String → Diagnostic → String

/-- The result of a run. -/
structure Compilation where
  code : String := ""
  warnings : List String := []
  errors : List String := []
deriving DecidableEq, Repr, Inhabited

/-- Why a run has no result. -/
inductive Fatal
  | invalidOptions (error : Options.ReadError)
  | parserPanicked
deriving DecidableEq, Repr, Inhabited

/-- The wording of a fatal problem. -/
def Fatal.message : Fatal → String
  | .invalidOptions error => error.message
  | .parserPanicked => "parser panicked, but no errors were reported"

/-- The wording of why a tree cannot be desugared. -/
def stopMessage : Walk.Stop DesugarError → String
  | .failed error => error.message
  | .outOfFuel => "the tree has no end"

namespace Compilation

/-- A diagnostic as it is reported: with warnings as errors, it is an error. -/
def adjusted (arguments : Arguments) (diagnostic : Diagnostic) : Diagnostic :=
  if arguments.warningsAsErrors then { diagnostic with severity := .error } else diagnostic

/-- Whether a diagnostic counts as an error. -/
def isError (arguments : Arguments) (diagnostic : Diagnostic) : Bool :=
  (adjusted arguments diagnostic).severity = .error

/-- Adds diagnostics to a result as they are shown: as errors or as warnings. -/
def report (render : Diagnostic → String) (arguments : Arguments) (result : Compilation)
    (diagnostics : List Diagnostic) : Compilation :=
  let shown (diagnostic : Diagnostic) : String := render (adjusted arguments diagnostic)
  { result with
    errors := result.errors ++ (diagnostics.filter (isError arguments)).map shown
    warnings := result.warnings ++ (diagnostics.filter fun d => !isError arguments d).map shown }

/-- Adds an error to a result. -/
def fail (result : Compilation) (message : String) : Compilation :=
  { result with errors := result.errors ++ [message] }

end Compilation

/-- A stage of a run: the value to go on with, or the result if it ends there. -/
abbrev Stage (α : Type) := Except Compilation α

/-- Adds diagnostics to a result and ends the run if one of them is an error. -/
def reportStage (render : Diagnostic → String) (arguments : Arguments) (result : Compilation)
    (diagnostics : List Diagnostic) : Stage Compilation :=
  let result' := result.report render arguments diagnostics
  if diagnostics.any (Compilation.isError arguments) then .error result' else .ok result'

/-- The tree of an ESTree document given as text. -/
def documentTree (source : String) : Stage Tree :=
  match Json.parse source with
  | .error error => .error (({} : Compilation).fail ("invalid JSON input: " ++ error.message))
  | .ok document =>
    match Tree.ofEstree document with
    | .error error => .error (({} : Compilation).fail ("invalid ESTree input: " ++ error.message))
    | .ok t => .ok t

/-- The tree of a parsed source, and the warnings on the way to it. -/
def programTree (language : Language) (arguments : Arguments) (source : String) (parse : Parse) :
    Stage (Tree × Compilation) := do
  let render := language.render source
  let result ← reportStage render arguments {} parse.diagnostics
  let result ← reportStage render arguments result (language.check parse.program)
  let lowered := Tree.ofProgram parse.program
  let result ← reportStage render arguments result lowered.diagnostics
  return (lowered.value, result)

/-- The layout of the code. -/
def layout (arguments : Arguments) : Json.Layout :=
  if arguments.compact then .compact else .pretty

/-- Desugars a tree and writes the code. -/
def emit (arguments : Arguments) (options : Options) (t : Tree) (result : Compilation) :
    Compilation :=
  match t.desugar options with
  | .error stop => result.fail ("rewrite failed: " ++ stopMessage stop)
  | .ok t =>
    match t.toEstree? with
    | none => result.fail ("rewrite failed: " ++ stopMessage .outOfFuel)
    | some document => { result with code := document.render (layout arguments) }

/-- Runs with a source text and arguments. -/
def run (language : Language) (source : String) (arguments : Arguments) :
    Except Fatal Compilation := do
  let options ← arguments.resolve.mapError .invalidOptions
  if arguments.estree then
    match documentTree source with
    | .error result => return result
    | .ok t => return emit arguments options t {}
  else
    let parse := language.parse arguments.typescript source
    if parse.panicked && parse.diagnostics.isEmpty then throw .parserPanicked
    match programTree language arguments source parse with
    | .error result => return result
    | .ok (t, result) => return emit arguments options t result

end JsxFactory.CommandLine
