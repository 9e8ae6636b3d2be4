/-
This file holds presentations, the choices on how inventories are shown: as JSON or as a
listing, restricted to some categories or not, with or without colours. The restriction
is a set: neither the order nor the repetition of its categories matters, and an empty
one shows everything. Colours exist in listings only.
-/

import SelectorLexemes.Inventory.Document
import SelectorLexemes.Presentation.Listing

namespace SelectorLexemes

/-- What inventories are written as. -/
inductive Format where
  /-- An indented JSON document. -/
  | json
  /-- An indented listing. -/
  | text
deriving DecidableEq

/-- How inventories are shown. -/
structure Presentation where
  /-- What inventories are written as. -/
  format : Format := .json
  /-- The categories to show, or none for all of them. -/
  only : List Category := []
  /-- Whether listings are coloured. -/
  colored : Bool := false

namespace Presentation

/-- The category is shown. -/
def shows (presentation : Presentation) (category : Category) : Bool :=
  presentation.only.isEmpty || presentation.only.contains category

/-- The categories that are shown, in their fixed order. -/
def categories (presentation : Presentation) : List Category :=
  Category.all.filter presentation.shows

/-- The inventory of a selector as it is shown, without a line break at its end. -/
def render (presentation : Presentation) (selector : String) (inventory : Inventory) : String :=
  match presentation.format with
  | .json => (inventory.document presentation.categories).write .indented
  | .text => Listing.render presentation.colored presentation.categories selector inventory

end Presentation

end SelectorLexemes
