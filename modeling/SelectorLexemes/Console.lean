/-
This file holds the console that a session writes to: the text printed so far, the text
of the warnings printed so far and the labels of the warnings that are remembered. A
remembered warning is not printed again until the console forgets.
-/

import SelectorLexemes.Warning

namespace SelectorLexemes

/-- What has been written, and which warnings are remembered. -/
structure Console where
  /-- The text printed to standard output. -/
  out : String := ""
  /-- The text printed to standard error. -/
  err : String := ""
  /-- The labels of the warnings printed since the console last forgot. -/
  remembered : List String := []

namespace Console

/-- Prints a text. -/
def print (console : Console) (text : String) : Console :=
  { console with out := console.out ++ text }

/-- Prints a warning and remembers it, unless it is remembered already. -/
def warn (console : Console) (warning : Warning) : Console :=
  if warning.label ∈ console.remembered then
    console
  else
    { console with
      err := console.err ++ warning.line
      remembered := warning.label :: console.remembered }

/-- Forgets all warnings. -/
def forget (console : Console) : Console :=
  { console with remembered := [] }

/-- A fresh console that remembers the same warnings. -/
def flushed (console : Console) : Console :=
  { remembered := console.remembered }

end Console

end SelectorLexemes
