/-
# Sources that are already parsed

A run needs a parser. Where the parser is another program, its syntax tree comes
as a document, and parsing only means to read that document. What is no document
of a program is a source with a syntax error. Diagnostics are shown by their
messages.
-/

import JsxFactory.CommandLine.Run
import JsxFactory.Json.Parser
import JsxFactory.Program.Reader

namespace JsxFactory.CommandLine

/-- The parse of a source that was rejected. -/
def Parse.rejected : Parse :=
  ⟨true, [{ message := "syntax error" }], ⟨.module, []⟩⟩

/-- The parse that a document stands for. -/
def Parse.ofDocument (document : Json) : Parse :=
  match Program.ofJson? document with
  | some program => ⟨false, [], program⟩
  | none => Parse.rejected

/-- The language whose every source parses to the given document. -/
def Language.constant (document : Json) : Language where
  parse _ _ := Parse.ofDocument document
  check _ := []
  render _ diagnostic := diagnostic.message

/-- The language whose sources are documents of parsed programs. -/
def Language.documents : Language where
  parse _ source :=
    match Json.parse source with
    | .ok document => Parse.ofDocument document
    | .error _ => Parse.rejected
  check _ := []
  render _ diagnostic := diagnostic.message

end JsxFactory.CommandLine
