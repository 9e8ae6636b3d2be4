/-
This file holds the surroundings of a run. All that a run can find out about them is what
reading a source gives, and it may be anything.

One set of contents is put together here from a few files and a text on standard input,
so that runs can be tried out. The files lie in the working directory; a path is walked
component by component from there, or from the root if it starts with a slash. Of what
lies outside the working directory only the usual paths to standard input and the device
that is always empty are known.
-/

import SelectorLexemes.Source
import SelectorLexemes.Text.Utf8

namespace SelectorLexemes

/-- What reading each source gives. -/
abbrev Contents := Source → Except ReadFailure Text.Bytes

/-! ### Contents of a working directory -/

/-- Where the walk along a path begins. -/
inductive Anchor where
  /-- The working directory. -/
  | working
  /-- The root of all directories. -/
  | root
  /-- Directories above the working directory, about which nothing is known. -/
  | above
deriving DecidableEq

/-- A place in the tree of directories: where the walk began and the names it followed. -/
structure Place where
  /-- Where the walk began. -/
  anchor : Anchor
  /-- The names followed from there. -/
  names : List (List Char)
deriving DecidableEq

/-- A working directory and a text on standard input. -/
structure Surroundings where
  /-- The files in the working directory, with their names and contents. -/
  files : List (String × Text.Bytes) := []
  /-- The content of standard input. -/
  standardInput : Text.Bytes := []

namespace Place

/-- The directory above a directory. There is none above the root. -/
def parent (place : Place) : Place :=
  match place.anchor, place.names with
  | .working, [] => ⟨.above, []⟩
  | anchor, names => ⟨anchor, names.dropLast⟩

/-- The place that one more stretch of a path leads to. An empty stretch and a dot stay
where they are, and two dots go up. -/
def follow (place : Place) (stretch : List Char) : Place :=
  if stretch = [] ∨ stretch = ['.'] then
    place
  else if stretch = ['.', '.'] then
    place.parent
  else
    ⟨place.anchor, place.names ++ [stretch]⟩

/-- Where the walk along a path begins, with the stretches that it follows. -/
def route (path : String) : Place × List (List Char) :=
  match pathStretches path.toList with
  | [] :: stretches => (⟨.root, []⟩, stretches)
  | stretches => (⟨.working, []⟩, stretches)

/-- The place that a path leads to, when everything along it exists. -/
def ofPath (path : String) : Place :=
  (route path).2.foldl follow (route path).1

end Place

namespace Surroundings

/-! ### What exists -/

/-- The paths by which a run can reach its standard input like a file. -/
def standardInputPaths : List String :=
  ["/dev/stdin", "/dev/fd/0", "/proc/self/fd/0", "/proc/thread-self/fd/0"]

/-- The files of which the content is known. Of two at the same place the later one
counts. -/
def knownFiles (surroundings : Surroundings) : List (Place × Text.Bytes) :=
  (surroundings.files.reverse.map fun (name, content) => (Place.ofPath name, content)) ++
    (standardInputPaths.map fun path => (Place.ofPath path, surroundings.standardInput)) ++
    [(Place.ofPath "/dev/null", [])]

/-- The content of the file at a place, if a file is there. -/
def fileAt? (surroundings : Surroundings) (place : Place) : Option Text.Bytes :=
  surroundings.knownFiles.lookup place

/-- A file or a directory is at the place. -/
def holds (surroundings : Surroundings) (place : Place) : Bool :=
  surroundings.knownFiles.any fun (known, _) =>
    known.anchor = place.anchor && place.names.isPrefixOf known.names

/-! ### Walking along a path -/

/-- The longest name of a file, in bytes. -/
def nameLimit : Nat := 255

/-- The longest path, in bytes. -/
def pathLimit : Nat := 4095

/-- Follows one more stretch of a path, if the place is a directory and something is at
the next one. -/
def enter (surroundings : Surroundings) (place : Place) (stretch : List Char) :
    Except ReadFailure Place :=
  if (surroundings.fileAt? place).isSome then
    .error .notDirectory
  else if nameLimit < (String.ofList stretch).utf8ByteSize then
    .error .nameTooLong
  else if stretch ∈ [[], ['.'], ['.', '.']] ∨ surroundings.holds (place.follow stretch) then
    .ok (place.follow stretch)
  else
    .error .notFound

/-- The place that a path leads to. -/
def walk (surroundings : Surroundings) (path : String) : Except ReadFailure Place :=
  if pathLimit < path.utf8ByteSize then
    .error .nameTooLong
  else
    (Place.route path).2.foldlM surroundings.enter (Place.route path).1

/-- The content of the file at a path. -/
def fileContent (surroundings : Surroundings) (path : String) :
    Except ReadFailure Text.Bytes :=
  if path = "" then
    .error .notFound
  else
    match surroundings.walk path with
    | .error failure => .error failure
    | .ok place =>
      match surroundings.fileAt? place with
      | none => .error .isDirectory
      | some content => .ok content

/-- What reading each source gives in the working directory. -/
def contents (surroundings : Surroundings) : Contents
  | .standardInput => .ok surroundings.standardInput
  | .file path => surroundings.fileContent path

end Surroundings

end SelectorLexemes
