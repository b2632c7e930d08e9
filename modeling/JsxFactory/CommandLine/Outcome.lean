/-
# What the program does

The command line program as a function: from its words, its standard input and
its working directory to its exit status, its standard output and the file it
writes.
-/

import JsxFactory.CommandLine.Directory
import JsxFactory.CommandLine.Run

namespace JsxFactory.CommandLine

/-- What the program leaves behind. -/
structure Outcome where
  exit : Nat
  stdout : String := ""
  stderr : List String := []
  /-- The file that was written: its path and its contents. -/
  written : Option (String × String) := none
deriving DecidableEq, Repr, Inhabited

/-- The answer to a question for the version. -/
def versionText : String := "hyperjsx 0.0.0\n"

/-- The answer to a question for help. -/
def helpText : String :=
  String.intercalate "\n"
    ["Usage: hyperjsx [OPTIONS] [ENTRY_POINT]", "",
      "  -o, --output <OUTPUT>      where to write the result (standard output by default)",
      "  -f, --factory <FACTORY>    the function that every element becomes a call of",
      "      --no-quote-prop-names  write attribute names as identifiers",
      "      --no-quote-intrinsic   write lowercase tag names as identifiers",
      "      --keep-comments        reserved",
      "      --options <OPTIONS>    options as a JSON object",
      "  -E, --estree               the input is an ESTree document",
      "  -T, --typescript           allow type annotations in the input",
      "  -c, --compact              write the result without blanks",
      "  -W                         treat warnings as errors",
      "  -h, --help                 print this help",
      "  -V, --version              print the version", ""]

/-- The outcome of words that are no arguments of a run. -/
def usageOutcome : UsageError → Outcome
  | .displayHelp => { exit := 0, stdout := helpText }
  | .displayVersion => { exit := 0, stdout := versionText }
  | _ => { exit := 2 }

/-- The last line about a run with errors. -/
def exitSummary (errors : List String) : String :=
  "exiting due to " ++ String.ofList (Nat.toDigits 10 errors.length) ++ " errors"

/-- The outcome of a run. -/
def runOutcome (arguments : Arguments) : Except Fatal Compilation → Outcome
  | .error fatal => { exit := 1, stderr := ["error: " ++ fatal.message] }
  | .ok result =>
    if result.errors.isEmpty then
      match arguments.output with
      | some name =>
        { exit := 0, stderr := result.warnings, written := some (name, result.code ++ "\n") }
      | none => { exit := 0, stdout := result.code ++ "\n", stderr := result.warnings }
    else
      { exit := 1
        stderr := result.warnings ++ result.errors ++ ["", exitSummary result.errors] }

/-- The last line on standard error, if the program failed. -/
def Outcome.summary? (outcome : Outcome) : Option String :=
  if outcome.exit = 1 then outcome.stderr.getLast? else none

/-- The outcome in which a file that is standard output joins it. -/
def Outcome.deliver (outcome : Outcome) : Outcome :=
  match outcome.written with
  | some (path, contents) =>
    if Place.ofPath path = .standardOutput then
      { outcome with stdout := outcome.stdout ++ contents, written := none }
    else outcome
  | none => outcome

/-- The file that the program brought into being, if it did. -/
def Outcome.created? (outcome : Outcome) (directory : Directory) : Option (String × String) :=
  outcome.written.bind fun (path, contents) => directory.created? path contents

/-- Runs the program in a working directory. -/
def execute (language : Language) (argv : List String) (stdin : String)
    (directory : Directory) : Outcome :=
  match Arguments.parse argv with
  | .error error => usageOutcome error
  | .ok arguments =>
    let source := match arguments.entryPoint with
      | some path => directory.read stdin path
      | none => stdin
    (runOutcome arguments (run language source arguments)).deliver

end JsxFactory.CommandLine
