/-
This file reads selectors from text, one on each line. Blanks around a selector do not
belong to it, and a line of blanks holds no selector. A carriage return before a line
break is a blank, so both common line endings read alike.
-/

import SelectorLexemes.Failure
import SelectorLexemes.Text.Blank
import SelectorLexemes.Text.Utf8

namespace SelectorLexemes

/-- The selectors in a text: its lines, trimmed, without those that are then empty. -/
def SelectorList.ofText (text : String) : List String :=
  (((Text.lines '\n' text.toList).map Text.trim).filter (· ≠ [])).map String.ofList

/-- The selectors in what was read from a source. -/
def Source.selectors (source : Source) (content : Except ReadFailure Text.Bytes) :
    Except Failure (List String) :=
  match content with
  | .error cause => .error (.unreadableSource source cause)
  | .ok bytes =>
    match Text.decode? bytes with
    | none => .error (.unreadableSource source .invalidUtf8)
    | some text => .ok (SelectorList.ofText text)

end SelectorLexemes
