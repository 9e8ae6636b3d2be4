/-
This file marks text for a terminal. An emphasis is switched on by a control sequence
before the text and off by one behind it; the text in between is left as it is, even when
it is empty or holds control sequences of its own.
-/

namespace SelectorLexemes.Text

/-- A way to make text stand out. -/
inductive Emphasis where
  /-- Heavy letters. -/
  | bold
  /-- Cyan letters. -/
  | cyan
  /-- Yellow letters. -/
  | yellow
deriving DecidableEq

/-- The control sequence that selects a graphic rendition. -/
def controlSequence (code : String) : String :=
  "\x1b[" ++ code ++ "m"

namespace Emphasis

/-- The code that switches the emphasis on. -/
def onCode : Emphasis → String
  | bold => "1"
  | cyan => "36"
  | yellow => "33"

/-- The code that switches the emphasis off: bold ends with all renditions, and a colour
gives way to the default colour. -/
def offCode : Emphasis → String
  | bold => "0"
  | cyan => "39"
  | yellow => "39"

/-- The text with the emphasis. -/
def wrap (emphasis : Emphasis) (text : String) : String :=
  controlSequence emphasis.onCode ++ text ++ controlSequence emphasis.offCode

end Emphasis

end SelectorLexemes.Text
