/-
This file holds the six categories that the parts of a selector fall into. Their order
is part of every answer: results list the categories in it. A category is named by its
plural; when a name is read, the singular is accepted too and the case of ASCII letters
does not matter.
-/

import SelectorLexemes.Text.AsciiCase

namespace SelectorLexemes

/-- A category of selector parts. -/
inductive Category where
  /-- Type selectors, such as `div`. -/
  | elements
  /-- Class selectors, such as `.menu`. -/
  | classes
  /-- Id selectors, such as `#nav`. -/
  | ids
  /-- Pseudo-elements, such as `::before`. -/
  | pseudoElements
  /-- Pseudo-classes, such as `:hover`. -/
  | pseudoClasses
  /-- Attribute selectors, such as `[type=checkbox]`. -/
  | attributes
deriving DecidableEq

namespace Category

/-- The categories in their fixed order. -/
def all : List Category :=
  [elements, classes, ids, pseudoElements, pseudoClasses, attributes]

/-- The place of a category in the fixed order, counted from zero. -/
def index : Category → Nat
  | elements => 0
  | classes => 1
  | ids => 2
  | pseudoElements => 3
  | pseudoClasses => 4
  | attributes => 5

/-- The name that is printed. -/
def name : Category → String
  | elements => "elements"
  | classes => "classes"
  | ids => "ids"
  | pseudoElements => "pseudoElements"
  | pseudoClasses => "pseudoClasses"
  | attributes => "attributes"

/-- The second name that is accepted when a category is read. -/
def singular : Category → String
  | elements => "element"
  | classes => "class"
  | ids => "id"
  | pseudoElements => "pseudoElement"
  | pseudoClasses => "pseudoClass"
  | attributes => "attribute"

/-- The text names the category, by its plural or its singular. -/
def isNamedBy (category : Category) (text : String) : Bool :=
  Text.equalIgnoringCase text.toList category.name.toList ||
    Text.equalIgnoringCase text.toList category.singular.toList

/-- The category that a text names, if any. -/
def ofName? (text : String) : Option Category :=
  all.find? fun category => category.isNamedBy text

theorem mem_all (category : Category) : category ∈ all := by
  cases category <;> decide

/-- The order is the one that the indices give. -/
theorem all_getElem?_index (category : Category) : all[category.index]? = some category := by
  cases category <;> rfl

end Category

end SelectorLexemes
