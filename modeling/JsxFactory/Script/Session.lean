/-
# Sessions

A session works on one tree. It speaks of nodes and sequences by handles:
numbers that it gives out in the order in which it meets them. Places that it has
not met have no handle.
-/

import JsxFactory.Desugar
import JsxFactory.Options.Reader
import JsxFactory.Tree.Term

namespace JsxFactory.Script

/-- A tree and the places that have a handle: the handle of a place is its
position in the list. -/
structure Session where
  tree : Tree := Tree.empty
  nodes : List NodeId := []
  lists : List ListId := []
deriving Repr, Inhabited

/-- What is wrong with a step. -/
inductive StepError
  | nodeHandleExpected
  | listHandleExpected
  | unknownNodeHandle
  | unknownListHandle
  | unknownNodeKind
  | primitiveExpected
  | genericNodeExpected
  | unknownStep
deriving DecidableEq, Repr, Inhabited

/-- The wording of what is wrong with a step. -/
def StepError.message : StepError → String
  | .nodeHandleExpected => "node handle expected"
  | .listHandleExpected => "list handle expected"
  | .unknownNodeHandle => "unknown node handle"
  | .unknownListHandle => "unknown list handle"
  | .unknownNodeKind => "unknown node kind"
  | .primitiveExpected => "primitive expected"
  | .genericNodeExpected => "generic node expected"
  | .unknownStep => "unknown step"

/-- A number as a JSON value. -/
def number (n : Nat) : Json := .number (.integer n)

/-- The whole number that a JSON value is. -/
def index? : Json → Option Nat
  | .number (.integer (.ofNat n)) => some n
  | _ => none

namespace Session

/-- The handle of a node, given out now if there is none yet. -/
def meetNode (session : Session) (id : NodeId) : Nat × Session :=
  match session.nodes.findIdx? (· = id) with
  | some handle => (handle, session)
  | none => (session.nodes.length, { session with nodes := session.nodes ++ [id] })

/-- The handle of a sequence, given out now if there is none yet. -/
def meetList (session : Session) (id : ListId) : Nat × Session :=
  match session.lists.findIdx? (· = id) with
  | some handle => (handle, session)
  | none => (session.lists.length, { session with lists := session.lists ++ [id] })

/-- The handle of a node as a JSON value; `null` if there is none. -/
def nodeHandle (session : Session) (id : NodeId) : Json :=
  match session.nodes.findIdx? (· = id) with
  | some handle => number handle
  | none => .null

/-- The handle of a sequence as a JSON value; `null` if there is none. -/
def listHandle (session : Session) (id : ListId) : Json :=
  match session.lists.findIdx? (· = id) with
  | some handle => number handle
  | none => .null

/-- The node of a handle. -/
def nodeOf (session : Session) (handle : Json) : Except StepError NodeId :=
  match index? handle with
  | none => .error .nodeHandleExpected
  | some n =>
    match session.nodes[n]? with
    | some id => .ok id
    | none => .error .unknownNodeHandle

/-- The sequence of a handle. -/
def listOf (session : Session) (handle : Json) : Except StepError ListId :=
  match index? handle with
  | none => .error .listHandleExpected
  | some n =>
    match session.lists[n]? with
    | some id => .ok id
    | none => .error .unknownListHandle

/-- The nodes of some handles, from first to last. -/
def nodesOf (session : Session) : List Json → Except StepError (List NodeId)
  | [] => .ok []
  | handle :: rest => do
    let first ← session.nodeOf handle
    let others ← session.nodesOf rest
    return first :: others

end Session

/-- A field of a step or a form; `null` if it is not there. -/
def field (key : String) (json : Json) : Json :=
  (json.get? key).getD .null

/-- A field that is a string; empty if it is not there. -/
def textOf (key : String) (json : Json) : String :=
  (field key json).asString?.getD ""

/-- A field that is a truth value; false if it is not there. -/
def flagOf (key : String) (json : Json) : Bool :=
  match field key json with
  | .bool value => value
  | _ => false

/-- A field that is an array; empty if it is not there. -/
def itemsOf (key : String) (json : Json) : List Json :=
  match field key json with
  | .array items => items
  | _ => []

end JsxFactory.Script
