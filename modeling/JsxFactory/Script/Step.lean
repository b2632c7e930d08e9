/-
# Steps of a script

A script is a list of steps on one session. Each step gives an answer or fails;
after a failure the script goes on, and what the step had changed stays changed.
-/

import JsxFactory.Script.Rule
import JsxFactory.Tree.Reader

namespace JsxFactory.Script

/-- Why a step fails. -/
inductive Failure
  | badStep (error : StepError)
  | unreadable (error : Estree.ReadError)
  | invalidOptions (error : Options.ReadError)
  | stopped (stop : Walk.Stop DesugarError)
deriving DecidableEq, Repr

/-- A step: its answer or its failure, and the session after it. -/
abbrev Action := EStateM Failure Session

/-- What was found or not, as part of a step. -/
def check {α : Type} : Except StepError α → Action α
  | .ok value => return value
  | .error error => throw (.badStep error)

/-- The node that a field of a step names. -/
def nodeField (key : String) (json : Json) : Action NodeId := do
  check ((← get).nodeOf (field key json))

/-- The sequence that a field of a step names. -/
def listField (key : String) (json : Json) : Action ListId := do
  check ((← get).listOf (field key json))

/-- Answers with a node, which gets a handle. -/
def answerNode (id : NodeId) : Action Json := do
  let handle ← modifyGet fun session => session.meetNode id
  return .object [("node", number handle)]

/-- Answers with a sequence, which gets a handle. -/
def answerList (id : ListId) : Action Json := do
  let handle ← modifyGet fun session => session.meetList id
  return .object [("list", number handle)]

/-- Overwrites a node and answers with the one that was there. -/
def exchange (id : NodeId) (node : Slot) : Action Json := do
  let session ← get
  let old := session.tree.node id
  set { session with tree := session.tree.replace id node }
  return form session old

/-- The document of what is below a node. -/
def document (t : Tree) (id : NodeId) : Json :=
  (t.nodeToEstree? id).getD .null

/-- Goes to a child: along an edge, or to one item of a sequence. -/
def child (json : Json) : Action Json := do
  let id ← nodeField "node" json
  let t := (← get).tree
  let edge := (index? (field "edge" json)).bind fun n => (t.node id).edges[n]?
  match edge, json.get? "index" with
  | some (.node child), none => answerNode child
  | some (.list children), none => answerList children
  | some (.list children), some position =>
    match (index? position).bind fun n => (t.list children)[n]? with
    | some item => answerNode item
    | none => return .null
  | _, _ => return .null

/-- Desugars the tree of the session. -/
def desugar (json : Json) : Action Json := do
  let options ← match json.get? "options" with
    | none => pure {}
    | some value =>
      match Options.ofJson value with
      | .ok options => pure options
      | .error error => throw (.invalidOptions error)
  let session ← get
  match Desugar.run options session.tree with
  | .ok _ state =>
    set { session with tree := state.tree }
    return document state.tree state.tree.root
  | .error stop state =>
    set { session with tree := state.tree }
    throw (.stopped stop)

/-- Steps of a walk by rules: more than any script gets to. -/
def fuel : Nat := 1000000000000

/-- What is told of a failure of a walk. -/
def ruleFailure : RuleFailure → Json
  | .verdict kind => .object [("error", .string "Visitor"), ("message", .string kind)]
  | .badRule error =>
    .object [("error", .string "BadStep"), ("message", .string error.message)]

/-- Walks the tree of the session by rules. -/
def walk (json : Json) : Action Json := do
  let session ← get
  let rules := (itemsOf "rules" json).map readRule
  let (ending, state) : List (String × Json) × Walk.State Memory :=
    match (Walk.walk (visitor session) fuel).run ⟨session.tree, ⟨[], rules⟩⟩ with
    | .ok _ state => ([("doc", document state.tree state.tree.root)], state)
    | .error (.failed failure) state => ([("failed", ruleFailure failure)], state)
    | .error .outOfFuel state => ([], state)
  set { session with tree := state.tree }
  return .object (("seen", .array (state.memory.seen.reverse.map .string)) :: ending)

/-- Performs a step. -/
def perform (json : Json) : Action Json := do
  match textOf "do" json with
  | "new" =>
    set ({} : Session)
    return .null
  | "read" =>
    match Tree.ofEstree (field "doc" json) with
    | .error error => throw (.unreadable error)
    | .ok t =>
      set ({ tree := t } : Session)
      answerNode t.root
  | "push" =>
    let node ← check (readForm (← get) (field "node" json))
    let id ← modifyGet fun session =>
      let (id, t) := session.tree.push node
      (id, { session with tree := t })
    answerNode id
  | "pushList" =>
    let items ← check ((← get).nodesOf (itemsOf "items" json))
    let id ← modifyGet fun session =>
      let (id, t) := session.tree.pushList items
      (id, { session with tree := t })
    answerList id
  | "setRoot" =>
    let id ← nodeField "node" json
    modify fun session => { session with tree := session.tree.setRoot id }
    return .null
  | "root" => answerNode (← get).tree.root
  | "get" =>
    let id ← nodeField "node" json
    let session ← get
    return form session (session.tree.node id)
  | "kind" =>
    let id ← nodeField "node" json
    return .string ((← get).tree.node id).kind
  | "edges" =>
    let id ← nodeField "node" json
    let session ← get
    return .array ((session.tree.node id).edges.map (edgeForm session))
  | "child" => child json
  | "list" =>
    let id ← listField "list" json
    let session ← get
    return .array ((session.tree.list id).map session.nodeHandle)
  | "setList" =>
    let id ← listField "list" json
    let items ← check ((← get).nodesOf (itemsOf "items" json))
    modify fun session => { session with tree := session.tree.setList id items }
    return .null
  | "field" =>
    let id ← nodeField "node" json
    let session ← get
    match session.tree.node id with
    | .generic _ fields =>
      return ((fields.lookup (textOf "name" json)).map (fieldForm session)).getD .null
    | _ => throw (.badStep .genericNodeExpected)
  | "replace" =>
    let id ← nodeField "node" json
    let node ← check (readForm (← get) (field "with" json))
    exchange id node
  | "take" =>
    let id ← nodeField "node" json
    exchange id .hole
  | "same" =>
    let a ← nodeField "a" json
    let b ← nodeField "b" json
    let t := (← get).tree
    return .bool ((t.node a).same (t.node b))
  | "estree" =>
    let t := (← get).tree
    match json.get? "node" with
    | none => return document t t.root
    | some _ =>
      let id ← nodeField "node" json
      return document t id
  | "transform" => desugar json
  | "walk" => walk json
  | _ => throw (.badStep .unknownStep)

/-- Performs the steps of a script one after another. -/
def play (session : Session) : List Json → List (Except Failure Json)
  | [] => []
  | step :: rest =>
    match (perform step).run session with
    | .ok answer session => .ok answer :: play session rest
    | .error failure session => .error failure :: play session rest

end JsxFactory.Script
