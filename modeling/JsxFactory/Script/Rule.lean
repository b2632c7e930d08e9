/-
# Walks by rules

A session can walk its tree with a visitor made of rules. Of the rules that fit
an entered node the first is applied: it may overwrite nodes and a sequence, and
then it says how the walk goes on. A rule can be limited in how often it applies.
What a rule writes is looked into only when the rule is applied, part by part; a
part that cannot be read ends the walk there.
-/

import JsxFactory.Script.Form

namespace JsxFactory.Script

/-- How a walk goes on after a rule was applied. -/
inductive Verdict
  | act (action : Walk.Action)
  | fail
deriving DecidableEq, Repr, Inhabited

/-- A rule of a visitor. -/
structure Rule where
  /-- The kind of node that the rule fits, if it asks for one. What is not a text
  is the kind of no node. -/
  kind : Option (Option String)
  /-- The name that a node must have, if the rule asks for one. What is not a text
  asks for a node without a name. -/
  name : Option (Option String)
  /-- How often the rule may still be applied. -/
  times : Option Nat
  /-- What to put in place of the entered node: a form. -/
  replace : Option Json
  /-- A node to overwrite: its handle and a form. -/
  replaceNode : Option Json
  /-- A sequence to overwrite: its handle and the handles of its items. -/
  setList : Option Json
  verdict : Verdict
deriving Repr

/-- Why a walk by rules fails. -/
inductive RuleFailure
  /-- A rule says so, for a node of this kind. -/
  | verdict (kind : String)
  /-- A rule cannot be applied. -/
  | badRule (error : StepError)
deriving DecidableEq, Repr

/-- Reads how a walk goes on. -/
def readVerdict (json : Json) : Verdict :=
  match textOf "action" json with
  | "skip" => .act .skip
  | "remove" => .act .remove
  | "fail" => .fail
  | _ => .act .continue

/-- Reads a rule. -/
def readRule (json : Json) : Rule where
  kind := (json.get? "kind").map Json.asString?
  name := (json.get? "name").map Json.asString?
  times := (json.get? "times").bind index?
  replace := json.get? "replace"
  replaceNode := json.get? "replaceNode"
  setList := json.get? "setList"
  verdict := readVerdict json

/-- The items of a value that is an array; none if it is not. -/
def arrayItems : Json → List Json
  | .array items => items
  | _ => []

/-- The name of an identifier. -/
def nameOf? : Slot → Option String
  | .identifier name | .jsxIdentifier name => some name
  | _ => none

/-- How an entered node is noted. -/
def note (node : Slot) : String :=
  match nameOf? node with
  | some name => node.kind ++ ":" ++ name
  | none => node.kind

/-- Whether a rule fits a node and may still be applied. -/
def Rule.fits (rule : Rule) (node : Slot) : Bool :=
  rule.kind.all (· = some node.kind) && rule.name.all (· = nameOf? node) &&
    rule.times ≠ some 0

/-- The rule after it was applied once more. -/
def Rule.spend (rule : Rule) : Rule :=
  { rule with times := rule.times.map (· - 1) }

/-- What a walk by rules remembers: the nodes it entered, last one first, and
the rules as far as they may still be applied. -/
structure Memory where
  seen : List String
  rules : List Rule
deriving Repr

/-- Takes the first rule that fits, and marks it as applied. -/
def takeRule (node : Slot) : List Rule → Option (Rule × List Rule)
  | [] => none
  | rule :: rest =>
    if rule.fits node then some (rule, rule.spend :: rest)
    else (takeRule node rest).map fun (found, rest) => (found, rule :: rest)

/-- Applying a rule. -/
abbrev Application := EStateM RuleFailure (Walk.State Memory)

/-- What was read or not, as part of applying a rule. -/
def readable {α : Type} : Except StepError α → Application α
  | .ok value => return value
  | .error error => throw (.badRule error)

/-- Overwrites what a rule says for the entered node. -/
def Rule.edit (session : Session) (rule : Rule) (id : NodeId) : Application Unit := do
  match rule.replace with
  | none => pure ()
  | some form =>
    let node ← readable (readForm session form)
    Walk.change (·.replace id node)
  match rule.replaceNode with
  | none => pure ()
  | some pair =>
    let other ← readable (session.nodeOf (pairOf pair).1)
    let node ← readable (readForm session (pairOf pair).2)
    Walk.change (·.replace other node)
  match rule.setList with
  | none => pure ()
  | some pair =>
    let list ← readable (session.listOf (pairOf pair).1)
    let items ← readable (session.nodesOf (arrayItems (pairOf pair).2))
    Walk.change (·.setList list items)

/-- The visitor of the rules. Handles are those of the session. -/
def visitor (session : Session) : Walk.Visitor Memory RuleFailure where
  enter id := do
    let state ← get
    let node := state.tree.node id
    let seen := note node :: state.memory.seen
    match takeRule node state.memory.rules with
    | none =>
      set { state with memory := { state.memory with seen } }
      return .continue
    | some (rule, rules) =>
      set ({ state with memory := ⟨seen, rules⟩ } : Walk.State Memory)
      rule.edit session id
      match rule.verdict with
      | .act action => return action
      | .fail => throw (.verdict node.kind)

end JsxFactory.Script
