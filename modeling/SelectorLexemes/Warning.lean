/-
This file holds warnings and their texts. Two warnings count as the same when their
labels are the same text. The label does not keep its two halves apart, so warnings with
different components can share one.
-/

import SelectorLexemes.Text.Emphasis

namespace SelectorLexemes

/-- Something that the user should know. -/
structure Warning where
  /-- The part of the program that warns. -/
  component : String
  /-- What it has to say. -/
  message : String
deriving DecidableEq

namespace Warning

/-- What a warning is remembered by. -/
def label (warning : Warning) : String :=
  "[" ++ warning.component ++ "] " ++ warning.message

/-- The line that a warning is printed as, always in yellow. -/
def line (warning : Warning) : String :=
  Text.Emphasis.yellow.wrap ("[selcat " ++ warning.component ++ "] ⚠ " ++ warning.message) ++ "\n"

/-- The warning about a selector in which no lexeme was found. -/
def noLexemes (selector : String) : Warning :=
  ⟨"Selector", "no lexemes found in `" ++ selector ++ "`"⟩

end Warning

end SelectorLexemes
