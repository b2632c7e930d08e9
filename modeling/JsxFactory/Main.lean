/-
# The command line program

Reads the entry point or standard input, runs, and writes what the run leaves
behind. Without `-E` the input is the document of a parsed program.
-/

import JsxFactory.CommandLine.Outcome
import JsxFactory.CommandLine.Prepared

namespace JsxFactory.CommandLine

/-- The text that the arguments name: a file or standard input. -/
def readSource (arguments : Arguments) : IO String := do
  match arguments.entryPoint with
  | some name => IO.FS.readFile name
  | none => (← IO.getStdin).readToEnd

/-- Writes what the program leaves behind. -/
def leave (outcome : Outcome) : IO UInt32 := do
  for line in outcome.stderr do
    IO.eprintln line
  match outcome.written with
  | some (name, text) => IO.FS.writeFile name text
  | none => IO.print outcome.stdout
  return outcome.exit.toUInt32

end JsxFactory.CommandLine

open JsxFactory.CommandLine in
def main (argv : List String) : IO UInt32 := do
  match Arguments.parse argv with
  | .error error => leave (usageOutcome error)
  | .ok arguments =>
    let source ← readSource arguments
    leave (runOutcome arguments (run .documents source arguments))
