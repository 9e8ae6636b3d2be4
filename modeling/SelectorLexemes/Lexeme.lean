/-
This file holds lexemes, the texts lifted out of a selector. Named parts give a plain
text; an attribute selector gives a pair of a key and a value. A pair is built from the
two sides of the brackets' content: both are trimmed, and there is no pair when either
side is blank.
-/

import SelectorLexemes.Text.Blank

namespace SelectorLexemes

/-- The key and the value of an attribute selector. -/
structure Attribute where
  /-- The name of the attribute. -/
  key : String
  /-- The value asked for, or the key again when none was written. -/
  value : String
deriving DecidableEq

namespace Attribute

/-- The pair with both sides trimmed, unless one of them is blank. -/
def ofSides? (key value : String) : Option Attribute :=
  if Text.trimmed key = "" ∨ Text.trimmed value = "" then
    none
  else
    some ⟨Text.trimmed key, Text.trimmed value⟩

/-- Key and value are equal. This holds for `[disabled]` and equally for `[a=a]`: once
read, the two ways of writing a pair cannot be told apart. -/
def sidesAgree (pair : Attribute) : Bool :=
  pair.key == pair.value

end Attribute

/-- What a selector part contributes. -/
inductive Lexeme where
  /-- The name of an element, class, id, pseudo-element or pseudo-class. -/
  | text (name : String)
  /-- The pair of an attribute selector. -/
  | attribute (pair : Attribute)
deriving DecidableEq

namespace Lexeme

/-- The name, if the lexeme is a text. -/
def text? : Lexeme → Option String
  | .text name => some name
  | .attribute _ => none

/-- The pair, if the lexeme is an attribute. -/
def pair? : Lexeme → Option Attribute
  | .text _ => none
  | .attribute pair => some pair

end Lexeme

end SelectorLexemes
