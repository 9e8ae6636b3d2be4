/-
This file holds the places that selectors are read from and the reasons why reading one
can fail. A path names standard input when it consists of a single component, a dash.
Empty stretches between slashes are no components, and neither is a dot unless the path
starts with it: a dash with slashes behind it still names standard input, while a dash
behind a leading dot and a slash names a file.
-/

import SelectorLexemes.Text.Lines

namespace SelectorLexemes

/-! ### Paths -/

/-- The stretches of a path between its slashes. A path that starts with a slash starts
with an empty stretch, and one that ends with a slash ends with one. -/
def pathStretches (path : List Char) : List (List Char) :=
  path.splitOn '/'

/-- Where selectors are read from. -/
inductive Source where
  /-- Standard input. -/
  | standardInput
  /-- The file at a path. -/
  | file (path : String)
deriving DecidableEq

/-- The path consists of the single component `-`. -/
def isDash (path : String) : Bool :=
  match pathStretches path.toList with
  | first :: rest => first == ['-'] && rest.all fun stretch => stretch == [] || stretch == ['.']
  | [] => false

/-- The source that a path names. -/
def Source.ofPath (path : String) : Source :=
  if isDash path then .standardInput else .file path

/-! ### Failures to read -/

/-- Why a source could not be read. -/
inductive ReadFailure where
  /-- Nothing is at the path. -/
  | notFound
  /-- The path leads through something that is not a directory. -/
  | notDirectory
  /-- The path leads to a directory. -/
  | isDirectory
  /-- The path or one of its components is longer than the system allows. -/
  | nameTooLong
  /-- The content is not well-formed UTF-8. -/
  | invalidUtf8
  /-- Another reason, in the words of the system. -/
  | other (description : String)
deriving DecidableEq

/-- The reason in words. -/
def ReadFailure.message : ReadFailure → String
  | .notFound => "No such file or directory (os error 2)"
  | .notDirectory => "Not a directory (os error 20)"
  | .isDirectory => "Is a directory (os error 21)"
  | .nameTooLong => "File name too long (os error 36)"
  | .invalidUtf8 => "stream did not contain valid UTF-8"
  | .other description => description

end SelectorLexemes
