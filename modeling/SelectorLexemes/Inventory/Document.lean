/-
This file turns inventories into JSON documents. An inventory becomes an object with one
member for each category asked for, in the order of the request; a text lexeme becomes a
string and an attribute an object with its key and its value.
-/

import SelectorLexemes.Inventory
import SelectorLexemes.Json

namespace SelectorLexemes

/-- The document of a lexeme. -/
def Lexeme.document : Lexeme → Json
  | .text name => .string name
  | .attribute pair => .object [("key", .string pair.key), ("value", .string pair.value)]

/-- The document of an inventory, with the members of the given categories. -/
def Inventory.document (inventory : Inventory) (categories : List Category) : Json :=
  .object (categories.map fun category =>
    (category.name, .array ((inventory.lexemes category).map Lexeme.document)))

/-- The whole inventory on one line of JSON. -/
def Inventory.json (inventory : Inventory) : String :=
  (inventory.document Category.all).write .compact

end SelectorLexemes
