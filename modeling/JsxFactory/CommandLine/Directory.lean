/-
# The working directory

The program names files by paths. A path leads from the working directory part by
part: empty parts and single dots stay where they are, two dots go back up. What
lies above the working directory, or is named from the root, is out of sight; of
it only the standard streams matter.
-/

namespace JsxFactory.CommandLine

/-- What a path leads to. -/
inductive Place
  /-- A file below the working directory, by the parts of its path. -/
  | file (parts : List String)
  | standardInput
  | standardOutput
  /-- Something out of sight: it reads as empty, and writing to it leaves no
  trace. -/
  | elsewhere
deriving DecidableEq, Repr, Inhabited

namespace Place

/-- The parts of a path between its slashes. -/
def parts : List Char → List (List Char)
  | [] => [[]]
  | c :: rest =>
    if c = '/' then [] :: parts rest
    else
      match parts rest with
      | [] => [[c]]
      | first :: others => (c :: first) :: others

/-- Goes on by one part. `way` holds the parts so far, last one first; it is
`none` above the start. -/
def follow (way : Option (List String)) (part : List Char) : Option (List String) :=
  match way with
  | none => none
  | some done =>
    if part = [] ∨ part = ['.'] then some done
    else if part = ['.', '.'] then
      match done with
      | [] => none
      | _ :: before => some before
    else some (String.ofList part :: done)

/-- The parts of a path without detours, unless it leads above its start. -/
def route? (path : List Char) : Option (List String) :=
  ((parts path).foldl follow (some [])).map List.reverse

/-- The paths from the root that lead to standard streams. -/
def streams : List (List String × Place) :=
  [(["dev", "stdin"], .standardInput), (["dev", "fd", "0"], .standardInput),
    (["proc", "self", "fd", "0"], .standardInput), (["dev", "stdout"], .standardOutput),
    (["dev", "fd", "1"], .standardOutput), (["proc", "self", "fd", "1"], .standardOutput)]

/-- What a path leads to. -/
def ofPath (path : String) : Place :=
  match path.toList with
  | '/' :: rest => ((route? rest).bind (streams.lookup ·)).getD .elsewhere
  | relative =>
    match route? relative with
    | some parts => .file parts
    | none => .elsewhere

/-- The path of a file below the working directory. -/
def pathOf (parts : List String) : String :=
  String.intercalate "/" parts

end Place

/-- A working directory: its files by the parts of their paths. -/
structure Directory where
  files : List (List String × String)
deriving DecidableEq, Repr, Inhabited

namespace Directory

/-- The directory that holds files of the given paths and contents. -/
def ofFiles (files : List (String × String)) : Directory :=
  ⟨files.filterMap fun (path, contents) =>
    match Place.ofPath path with
    | .file parts => some (parts, contents)
    | _ => none⟩

/-- What is read at a path. -/
def read (directory : Directory) (stdin path : String) : String :=
  match Place.ofPath path with
  | .file parts => (directory.files.lookup parts).getD ""
  | .standardInput => stdin
  | .standardOutput | .elsewhere => ""

/-- The file that comes into being when a path is written to, if it is a new
one. -/
def created? (directory : Directory) (path contents : String) : Option (String × String) :=
  match Place.ofPath path with
  | .file parts =>
    if (directory.files.lookup parts).isSome then none else some (Place.pathOf parts, contents)
  | _ => none

end Directory

end JsxFactory.CommandLine
