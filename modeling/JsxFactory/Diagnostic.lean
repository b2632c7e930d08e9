/-
# Diagnostics

A diagnostic says what is wrong with a source text and where.
-/

namespace JsxFactory

/-- A stretch of source text, in bytes: from `start` up to, but not including,
`stop`. -/
structure Span where
  start : Nat
  stop : Nat
deriving DecidableEq, Repr, Inhabited

/-- How serious a diagnostic is. -/
inductive Severity
  | error
  | warning
  | advice
deriving DecidableEq, Repr, Inhabited

/-- A message about some stretches of source text. -/
structure Diagnostic where
  severity : Severity := .error
  message : String
  labels : List Span := []
deriving DecidableEq, Repr, Inhabited

/-- The diagnostic about a construct that has no counterpart in a tree. -/
def Diagnostic.unsupported (what : String) (span : Span) : Diagnostic where
  message := what ++ " is not supported in JSX lowering"
  labels := [span]

/-- A value together with the diagnostics that came up while it was made, in
order. -/
structure Reported (α : Type) where
  value : α
  diagnostics : List Diagnostic
deriving Repr

namespace Reported

instance : Monad Reported where
  pure value := ⟨value, []⟩
  bind first next :=
    let second := next first.value
    ⟨second.value, first.diagnostics ++ second.diagnostics⟩

end Reported

end JsxFactory
