/-
This file compares texts with the case of ASCII letters ignored. Letters outside
ASCII keep their case, so a dotless i is never taken for an i.
-/

namespace SelectorLexemes.Text

/-- The text with the letters A to Z replaced by a to z and all else unchanged. -/
def foldCase (text : List Char) : List Char :=
  text.map Char.toLower

/-- Two texts are equal up to the case of ASCII letters. -/
def equalIgnoringCase (first second : List Char) : Bool :=
  foldCase first == foldCase second

end SelectorLexemes.Text
