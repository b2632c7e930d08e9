/-
# Options

What the desugaring leaves open: the function that elements call, and whether
names are written as string literals or as identifiers.
-/

namespace JsxFactory

/-- The options of the desugaring. -/
structure Options where
  /-- The function that every element becomes a call of. -/
  factory : String := "h"
  /-- Write attribute names as string literals, not as identifiers. -/
  quotePropNames : Bool := true
  /-- Write tag names that do not start with a capital as string literals, not
  as identifiers. -/
  quoteIntrinsic : Bool := true
  /-- Reserved; no result depends on it. -/
  keepComments : Bool := false
deriving DecidableEq, Repr, Inhabited

namespace Options

/-- The options that have a name. -/
inductive Key
  | factory
  | quotePropNames
  | quoteIntrinsic
  | keepComments
deriving DecidableEq, Repr, Inhabited

/-- All names of options, in their order. -/
def Key.all : List Key :=
  [.factory, .quotePropNames, .quoteIntrinsic, .keepComments]

/-- The spelling of an option's name. -/
def Key.name : Key → String
  | .factory => "factory"
  | .quotePropNames => "quotePropNames"
  | .quoteIntrinsic => "quoteIntrinsic"
  | .keepComments => "keepComments"

/-- The option of a spelling. -/
def Key.ofName? (s : String) : Option Key :=
  Key.all.find? (·.name = s)

theorem Key.ofName?_name (key : Key) : ofName? key.name = some key := by
  cases key <;> rfl

end Options

end JsxFactory
