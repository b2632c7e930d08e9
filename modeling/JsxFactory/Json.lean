/-
# JSON values

Objects keep their members in order, so a value carries everything that its
text shows apart from blanks. An object built member by member holds each key
once: a repeated key keeps its first position and takes its last value.
-/

import JsxFactory.Number

namespace JsxFactory

/-- A JSON value. -/
inductive Json
  | null
  | bool (value : Bool)
  | number (value : Number)
  | string (value : String)
  | array (items : List Json)
  | object (members : List (String × Json))
deriving Repr, Inhabited

namespace Json

/-- The members with `key` set to `value`: in place if the key is there already,
else at the end. -/
def insert (key : String) (value : Json) : List (String × Json) → List (String × Json)
  | [] => [(key, value)]
  | (other, old) :: rest =>
    if other = key then (key, value) :: rest else (other, old) :: insert key value rest

/-- The object with the given members, inserted one after another. -/
def ofMembers (members : List (String × Json)) : Json :=
  .object (members.foldl (fun done (key, value) => insert key value done) [])

/-- The value of an object's member, if the value is an object that has it. -/
def get? (key : String) : Json → Option Json
  | .object members => members.lookup key
  | _ => none

/-- Whether a value is `null`. -/
def isNull : Json → Bool
  | .null => true
  | _ => false

/-- The text of a string value. -/
def asString? : Json → Option String
  | .string value => some value
  | _ => none

mutual

/-- How many values are nested in one another. -/
def depth : Json → Nat
  | .array items => depthItems items + 1
  | .object members => depthMembers members + 1
  | _ => 1
termination_by structural value => value

/-- The depth of the deepest of some values. -/
def depthItems : List Json → Nat
  | [] => 0
  | item :: rest => max (depth item) (depthItems rest)

/-- The depth of the deepest member. -/
def depthMembers : List (String × Json) → Nat
  | [] => 0
  | (_, value) :: rest => max (depth value) (depthMembers rest)

end

mutual

/-- Whether two values are the same: numbers by value, objects without regard
to the order of their members. -/
def same : Json → Json → Bool
  | .null, .null => true
  | .bool x, .bool y => x == y
  | .number x, .number y => x.sameValue y
  | .string x, .string y => x == y
  | .array xs, .array ys => sameItems xs ys
  | .object xs, .object ys => xs.length == ys.length && sameMembers xs ys
  | _, _ => false
termination_by structural value => value

/-- Whether two lists of values are the same, item by item. -/
def sameItems : List Json → List Json → Bool
  | [], [] => true
  | x :: xs, y :: ys => same x y && sameItems xs ys
  | _, _ => false

/-- Whether each member has a counterpart of the same key and value. -/
def sameMembers : List (String × Json) → List (String × Json) → Bool
  | [], _ => true
  | (key, value) :: rest, others =>
    (match others.lookup key with
      | some other => same value other
      | none => false) && sameMembers rest others

end

end Json

end JsxFactory
