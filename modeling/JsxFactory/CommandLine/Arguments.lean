/-
# Command line arguments

The words of a command line are read from left to right. A word with one dash is
a cluster of one-letter names, a word with two dashes is a long name, possibly
with a value after an equals sign, and any other word is the value that an option
waits for, or else the entry point. After a bare double dash every word is taken
as it is.

An option whose value is the next word is only complete when something else
begins; a value that is missing, or an option that was given before, comes to
light then. A word that is no argument at all is reported first.
-/

import JsxFactory.Options.Reader

namespace JsxFactory.CommandLine

/-- The arguments of a run. -/
structure Arguments where
  /-- Where to write the result, if not to standard output. -/
  output : Option String := none
  /-- The factory function; it overrides the options. -/
  factory : Option String := none
  noQuotePropNames : Bool := false
  noQuoteIntrinsic : Bool := false
  keepComments : Bool := false
  /-- The options as JSON text. -/
  options : Option String := none
  /-- The input is an ESTree document. -/
  estree : Bool := false
  /-- The input may contain type annotations. -/
  typescript : Bool := false
  /-- Write the result without blanks. -/
  compact : Bool := false
  /-- Treat every diagnostic as an error. -/
  warningsAsErrors : Bool := false
  /-- The file to read, if not standard input. -/
  entryPoint : Option String := none
deriving DecidableEq, Repr, Inhabited

/-- The arguments that are there or not. -/
inductive Flag
  | noQuotePropNames
  | noQuoteIntrinsic
  | keepComments
  | estree
  | typescript
  | compact
  | warningsAsErrors
deriving DecidableEq, Repr, Inhabited

/-- The arguments that have a value. -/
inductive Setting
  | output
  | factory
  | options
deriving DecidableEq, Repr, Inhabited

/-- What a name stands for. -/
inductive Name
  | flag (flag : Flag)
  | setting (setting : Setting)
  | help
  | version
deriving DecidableEq, Repr, Inhabited

/-- The long names. -/
def longNames : List (String × Name) :=
  [("output", .setting .output), ("factory", .setting .factory),
    ("no-quote-prop-names", .flag .noQuotePropNames),
    ("no-quote-intrinsic", .flag .noQuoteIntrinsic), ("keep-comments", .flag .keepComments),
    ("options", .setting .options), ("estree", .flag .estree),
    ("typescript", .flag .typescript), ("compact", .flag .compact), ("help", .help),
    ("version", .version)]

/-- The one-letter names. -/
def shortNames : List (Char × Name) :=
  [('o', .setting .output), ('f', .setting .factory), ('E', .flag .estree),
    ('T', .flag .typescript), ('c', .flag .compact), ('W', .flag .warningsAsErrors),
    ('h', .help), ('V', .version)]

/-- Why the words of a command line are not arguments of a run. -/
inductive UsageError
  /-- There is no such argument, or no room for another word. -/
  | unknownArgument
  /-- An option lacks its value. -/
  | invalidValue
  /-- A flag has a value. -/
  | tooManyValues
  /-- A flag or an option is given twice. -/
  | argumentConflict
  /-- Help is asked for. -/
  | displayHelp
  /-- The version is asked for. -/
  | displayVersion
deriving DecidableEq, Repr, Inhabited

namespace Arguments

/-- Whether a flag is set. -/
def has (arguments : Arguments) : Flag → Bool
  | .noQuotePropNames => arguments.noQuotePropNames
  | .noQuoteIntrinsic => arguments.noQuoteIntrinsic
  | .keepComments => arguments.keepComments
  | .estree => arguments.estree
  | .typescript => arguments.typescript
  | .compact => arguments.compact
  | .warningsAsErrors => arguments.warningsAsErrors

/-- The arguments with a flag set. -/
def raise (arguments : Arguments) : Flag → Arguments
  | .noQuotePropNames => { arguments with noQuotePropNames := true }
  | .noQuoteIntrinsic => { arguments with noQuoteIntrinsic := true }
  | .keepComments => { arguments with keepComments := true }
  | .estree => { arguments with estree := true }
  | .typescript => { arguments with typescript := true }
  | .compact => { arguments with compact := true }
  | .warningsAsErrors => { arguments with warningsAsErrors := true }

/-- The value of a setting. -/
def value? (arguments : Arguments) : Setting → Option String
  | .output => arguments.output
  | .factory => arguments.factory
  | .options => arguments.options

/-- The arguments with the value of a setting. -/
def assign (arguments : Arguments) (value : String) : Setting → Arguments
  | .output => { arguments with output := some value }
  | .factory => { arguments with factory := some value }
  | .options => { arguments with options := some value }

/-- The options of a run: those given as text, then the single arguments on top
of them. -/
def resolve (arguments : Arguments) : Except Options.ReadError Options := do
  let options ← match arguments.options with
    | some text => Options.ofText text
    | none => .ok {}
  return {
    factory := arguments.factory.getD options.factory
    quotePropNames := options.quotePropNames && !arguments.noQuotePropNames
    quoteIntrinsic := options.quoteIntrinsic && !arguments.noQuoteIntrinsic
    keepComments := options.keepComments || arguments.keepComments }

end Arguments

/-- Arguments being read. -/
structure Progress where
  arguments : Arguments := {}
  /-- The last setting, while it is not complete, and its value once it is
  there. -/
  pending : Option (Setting × Option String) := none
deriving DecidableEq, Repr, Inhabited

namespace Progress

/-- Sets a flag, which must not be set already. -/
def raise (progress : Progress) (flag : Flag) : Except UsageError Progress :=
  if progress.arguments.has flag then .error .argumentConflict
  else .ok { progress with arguments := progress.arguments.raise flag }

/-- Sets a value, which must not be set already. -/
def assign (progress : Progress) (setting : Setting) (value : String) :
    Except UsageError Progress :=
  if (progress.arguments.value? setting).isSome then .error .argumentConflict
  else .ok { progress with arguments := progress.arguments.assign value setting }

/-- Completes the last setting. -/
def settle (progress : Progress) : Except UsageError Progress :=
  match progress.pending with
  | none => .ok progress
  | some (_, none) => .error .invalidValue
  | some (setting, some value) => { progress with pending := none }.assign setting value

/-- Reads a name that stands without a value. -/
def name (progress : Progress) : Name → Except UsageError Progress
  | .flag flag => do (← progress.settle).raise flag
  | .setting setting => do return { ← progress.settle with pending := some (setting, none) }
  | .help => do
    let _ ← progress.settle
    throw .displayHelp
  | .version => do
    let _ ← progress.settle
    throw .displayVersion

/-- Reads a setting that stands with its value. -/
def attached (progress : Progress) (setting : Setting) (value : List Char) :
    Except UsageError Progress := do
  (← progress.settle).assign setting (String.ofList value)

/-- Reads the letters of a cluster. A setting takes the rest of the cluster as
its value, without an equals sign in front. -/
def cluster (progress : Progress) : List Char → Except UsageError Progress
  | [] => .ok progress
  | c :: rest =>
    match shortNames.lookup c with
    | none => .error .unknownArgument
    | some (.setting setting) =>
      match rest with
      | [] => progress.name (.setting setting)
      | '=' :: value => progress.attached setting value
      | value => progress.attached setting value
    | some other => do (← progress.name other).cluster rest

/-- Reads a long name, and the value after its equals sign if there is one. -/
def long (progress : Progress) (word : List Char) : Except UsageError Progress :=
  match longNames.lookup (String.ofList (word.takeWhile (· ≠ '='))) with
  | none => .error .unknownArgument
  | some name =>
    match word.dropWhile (· ≠ '='), name with
    | [], name => progress.name name
    | _ :: value, .setting setting => progress.attached setting value
    | _ :: _, _ => .error .tooManyValues

/-- Takes a word as the entry point, of which there is one. -/
def positional (progress : Progress) (word : List Char) : Except UsageError Progress :=
  if progress.arguments.entryPoint.isSome then .error .unknownArgument
  else do
    let progress ← progress.settle
    let arguments := { progress.arguments with entryPoint := some (String.ofList word) }
    return { progress with arguments }

/-- Reads a word that is no double dash. -/
def word (progress : Progress) : List Char → Except UsageError Progress
  | '-' :: '-' :: rest => progress.long rest
  | '-' :: c :: rest => progress.cluster (c :: rest)
  | other =>
    match progress.pending with
    | some (setting, none) =>
      .ok { progress with pending := some (setting, some (String.ofList other)) }
    | _ => progress.positional other

/-- Reads the words after a double dash. -/
def verbatim (progress : Progress) : List String → Except UsageError Progress
  | [] => .ok progress
  | word :: rest => do (← progress.positional word.toList).verbatim rest

/-- Reads the words of a command line. -/
def words (progress : Progress) : List String → Except UsageError Progress
  | [] => .ok progress
  | word :: rest =>
    if word = "--" then progress.verbatim rest
    else do (← progress.word word.toList).words rest

end Progress

/-- Reads the arguments of a run. -/
def Arguments.parse (argv : List String) : Except UsageError Arguments := do
  let progress ← ({} : Progress).words argv
  return (← progress.settle).arguments

end JsxFactory.CommandLine
