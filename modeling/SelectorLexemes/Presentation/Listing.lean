/-
This file lists inventories as indented text: the selector on the first line, the names
of the categories two spaces in and their lexemes four spaces in. A category without
lexemes is left out, and when that leaves nothing a line says so.
-/

import SelectorLexemes.Inventory
import SelectorLexemes.Text.Emphasis

namespace SelectorLexemes

/-- How a lexeme is listed. A pair with equal sides is listed by its key alone. -/
def Lexeme.listing : Lexeme → String
  | .text name => name
  | .attribute pair =>
    if pair.sidesAgree then pair.key else pair.key ++ " = " ++ pair.value

namespace Listing

/-- The text, emphasised if colours are wanted. -/
def paint (colored : Bool) (emphasis : Text.Emphasis) (text : String) : String :=
  if colored then emphasis.wrap text else text

/-- The heading of a category and the lines of its lexemes. -/
def block (colored : Bool) (category : Category) (lexemes : List Lexeme) : List String :=
  ("  " ++ paint colored .cyan category.name) ::
    lexemes.map fun lexeme => "    " ++ lexeme.listing

/-- The blocks of the categories that have lexemes. -/
def blocks (colored : Bool) (categories : List Category) (inventory : Inventory) :
    List (List String) :=
  (categories.filter fun category => !(inventory.lexemes category).isEmpty).map fun category =>
    block colored category (inventory.lexemes category)

/-- The line that stands for an empty list of blocks. -/
def emptyLine : String := "  (no lexemes)"

/-- The lines of the listing of a selector. -/
def listingLines (colored : Bool) (categories : List Category) (selector : String)
    (inventory : Inventory) : List String :=
  paint colored .bold selector ::
    match blocks colored categories inventory with
    | [] => [emptyLine]
    | first :: rest => (first :: rest).flatten

/-- The listing of a selector, without a line break at its end. -/
def render (colored : Bool) (categories : List Category) (selector : String)
    (inventory : Inventory) : String :=
  "\n".intercalate (listingLines colored categories selector inventory)

end Listing

end SelectorLexemes
