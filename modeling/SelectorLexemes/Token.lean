/-
This file holds tokens: a lexeme together with the category it belongs to. A name is
trimmed and gives no token when nothing is left of it; an attribute with a blank side
gives none either.
-/

import SelectorLexemes.Category
import SelectorLexemes.Lexeme

namespace SelectorLexemes

/-- A recognised part of a selector. -/
structure Token where
  /-- Where the part is listed. -/
  category : Category
  /-- What the part contributes. -/
  lexeme : Lexeme
deriving DecidableEq

namespace Token

/-- The token of a named part, unless the name is blank. -/
def named? (category : Category) (name : List Char) : Option Token :=
  if Text.trim name = [] then
    none
  else
    some ⟨category, .text (String.ofList (Text.trim name))⟩

/-- The token of an attribute selector, unless a side is blank. -/
def attribute? (key value : List Char) : Option Token :=
  (Attribute.ofSides? (String.ofList key) (String.ofList value)).map fun pair =>
    ⟨.attributes, .attribute pair⟩

end Token

end SelectorLexemes
