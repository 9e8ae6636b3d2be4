/-
This file cuts a sequence into lines. A line ends at a mark, and the mark belongs to
no line; what follows the last mark is a line of its own unless it is empty. The
elements may be characters or bytes, so one definition serves decoded text and raw
input alike.
-/

namespace SelectorLexemes.Text

/-- The lines of a sequence, each without the mark that ends it. -/
def lines {Element : Type} [DecidableEq Element] (mark : Element) :
    List Element → List (List Element)
  | [] => []
  | element :: rest =>
    if element = mark then
      [] :: lines mark rest
    else
      match lines mark rest with
      | [] => [[element]]
      | line :: more => (element :: line) :: more

/-- The byte that ends a line of raw input. -/
def newlineByte : UInt8 := 10

end SelectorLexemes.Text
