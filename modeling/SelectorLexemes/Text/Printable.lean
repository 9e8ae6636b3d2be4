/-
This file reduces a text to what a terminal would show of it. Control characters other
than line breaks and tabs are dropped, and so are control sequences: the short ones that
begin with an escape character, those with parameters, and those that carry a command or
a string of their own. A sequence that is not finished takes the text behind it along.
-/

namespace SelectorLexemes.Text

/-! ### Kinds of characters -/

/-- The code point of the character lies between two others, or is one of them. -/
def isBetween (first last : Nat) (mark : Char) : Bool :=
  decide (first ≤ mark.toNat) && decide (mark.toNat ≤ last)

/-- A control character that moves the text on and is kept: a tab, a line feed, a form
feed or a carriage return. -/
def isLayoutControl (mark : Char) : Bool :=
  mark == '\t' || mark == '\n' || mark == '\x0c' || mark == '\r'

/-- A character that is kept outside of control sequences. -/
def isShown (mark : Char) : Bool :=
  isLayoutControl mark || decide (0x20 ≤ mark.toNat) && mark != '\x7f'

/-! ### Control sequences -/

/-- The part of a control sequence that the next character belongs to. -/
inductive ControlPart where
  /-- None: the character is text. -/
  | outside
  /-- What follows the escape character. -/
  | escape
  /-- What follows the escape character and some intermediate characters. -/
  | intermediate
  /-- The parameters of a sequence, or the character that ends it. -/
  | parameters
  /-- The text of a command, which a bell ends. -/
  | command
  /-- A string, which the byte 0x9C ends, also within the encoding of a character. -/
  | string
deriving DecidableEq

namespace ControlPart

/-- The part that follows a character of a control sequence. An escape character begins
a new sequence in every part, and the characters for cancelling end any sequence. -/
def next (part : ControlPart) (mark : Char) : ControlPart :=
  if mark = '\x1b' then .escape
  else if mark = '\x18' ∨ mark = '\x1a' then .outside
  else
    match part with
    | .outside => .outside
    | .escape =>
      if mark = '[' then .parameters
      else if mark = ']' then .command
      else if mark = 'P' ∨ mark = 'X' ∨ mark = '^' ∨ mark = '_' then .string
      else if isBetween 0x20 0x2F mark then .intermediate
      else if isBetween 0x30 0x7E mark then .outside
      else .escape
    | .intermediate => if isBetween 0x30 0x7E mark then .outside else .intermediate
    | .parameters => if isBetween 0x40 0x7E mark then .outside else .parameters
    | .command => if mark = '\x07' then .outside else .command
    | .string => if (String.utf8EncodeChar mark).contains 0x9C then .outside else .string

/-- Layout controls are kept inside of short sequences and among parameters. -/
def keepsLayout : ControlPart → Bool
  | .escape | .intermediate | .parameters => true
  | .outside | .command | .string => false

end ControlPart

/-! ### Showing a text -/

/-- How a terminal stands to the text that comes next. -/
structure Display where
  /-- The part of a control sequence that the next character belongs to. -/
  part : ControlPart := .outside
  /-- A layout control has interrupted the sequence. Text is then shown again, up to the
  first character that is not shown; there the sequence goes on, unless a character
  outside ASCII has come between. -/
  interrupted : Bool := false
deriving DecidableEq

namespace Display

/-- The character is shown. -/
def shows (display : Display) (mark : Char) : Bool :=
  match display.part with
  | .outside => isShown mark
  | part => part.keepsLayout && (isLayoutControl mark || display.interrupted && isShown mark)

/-- How the terminal stands to the text behind a character. -/
def next (display : Display) (mark : Char) : Display :=
  if display.shows mark then
    if display.part = .outside ∨ 0x80 ≤ mark.toNat then {} else ⟨display.part, true⟩
  else
    ⟨display.part.next mark, false⟩

/-- What the terminal shows of a text. -/
def shown (display : Display) : List Char → List Char
  | [] => []
  | mark :: rest =>
    if display.shows mark then
      mark :: (display.next mark).shown rest
    else
      (display.next mark).shown rest

end Display

/-- What a terminal shows of a text. -/
def printable (text : String) : String :=
  String.ofList (({} : Display).shown text.toList)

end SelectorLexemes.Text
