/-
This file holds inventories, the lexemes of a selector sorted by category. Every category
has its bucket, empty or not, and inside a bucket the lexemes keep the order of the
selector. Repeated lexemes are either all kept or collapsed into their first occurrence;
lexemes of different categories never count as repetitions of one another.
-/

import SelectorLexemes.Scan

namespace SelectorLexemes

/-- What happens to a lexeme that its bucket already holds. -/
inductive Duplicates where
  /-- Every occurrence is kept. -/
  | keep
  /-- Only the first occurrence is kept. -/
  | collapse
deriving DecidableEq

/-- The lexemes of a selector by category. -/
structure Inventory where
  /-- The names of the type selectors. -/
  elements : Array Lexeme := #[]
  /-- The names of the class selectors. -/
  classes : Array Lexeme := #[]
  /-- The names of the id selectors. -/
  ids : Array Lexeme := #[]
  /-- The names of the pseudo-elements. -/
  pseudoElements : Array Lexeme := #[]
  /-- The names of the pseudo-classes. -/
  pseudoClasses : Array Lexeme := #[]
  /-- The pairs of the attribute selectors. -/
  attributes : Array Lexeme := #[]
deriving DecidableEq

namespace Inventory

/-! ### Buckets -/

/-- The inventory without lexemes. -/
def empty : Inventory := {}

/-- The lexemes in the bucket of a category. -/
def bucket (inventory : Inventory) : Category → Array Lexeme
  | .elements => inventory.elements
  | .classes => inventory.classes
  | .ids => inventory.ids
  | .pseudoElements => inventory.pseudoElements
  | .pseudoClasses => inventory.pseudoClasses
  | .attributes => inventory.attributes

/-- The inventory with one more lexeme at the end of a bucket. -/
def push (inventory : Inventory) (category : Category) (lexeme : Lexeme) : Inventory :=
  match category with
  | .elements => { inventory with elements := inventory.elements.push lexeme }
  | .classes => { inventory with classes := inventory.classes.push lexeme }
  | .ids => { inventory with ids := inventory.ids.push lexeme }
  | .pseudoElements => { inventory with pseudoElements := inventory.pseudoElements.push lexeme }
  | .pseudoClasses => { inventory with pseudoClasses := inventory.pseudoClasses.push lexeme }
  | .attributes => { inventory with attributes := inventory.attributes.push lexeme }

/-- The lexemes of a category, in the order of the selector. -/
def lexemes (inventory : Inventory) (category : Category) : List Lexeme :=
  (inventory.bucket category).toList

@[simp] theorem lexemes_empty (category : Category) : empty.lexemes category = [] := by
  cases category <;> rfl

@[simp] theorem lexemes_push_self (inventory : Inventory) (category : Category)
    (lexeme : Lexeme) :
    (inventory.push category lexeme).lexemes category = inventory.lexemes category ++ [lexeme] := by
  cases category <;> simp [push, lexemes, bucket]

theorem lexemes_push_other (inventory : Inventory) {category other : Category}
    (distinct : other ≠ category) (lexeme : Lexeme) :
    (inventory.push category lexeme).lexemes other = inventory.lexemes other := by
  cases category <;> cases other <;> first | rfl | exact absurd rfl distinct

/-- Inventories are equal when they list the same lexemes for every category. -/
theorem ext_lexemes {first second : Inventory}
    (same : ∀ category, first.lexemes category = second.lexemes category) : first = second := by
  cases first
  cases second
  simp only [mk.injEq]
  exact ⟨Array.toList_inj.mp (same .elements), Array.toList_inj.mp (same .classes),
    Array.toList_inj.mp (same .ids), Array.toList_inj.mp (same .pseudoElements),
    Array.toList_inj.mp (same .pseudoClasses), Array.toList_inj.mp (same .attributes)⟩

/-! ### Taking stock -/

/-- The inventory with one more token, unless the token repeats a lexeme of its bucket
and repetitions are collapsed. -/
def add (duplicates : Duplicates) (inventory : Inventory) (token : Token) : Inventory :=
  match duplicates with
  | .keep => inventory.push token.category token.lexeme
  | .collapse =>
    if token.lexeme ∈ inventory.bucket token.category then
      inventory
    else
      inventory.push token.category token.lexeme

/-- The inventory of a sequence of tokens. -/
def ofTokens (duplicates : Duplicates) (tokens : List Token) : Inventory :=
  tokens.foldl (add duplicates) empty

/-- The inventory of several selectors, each scanned on its own. -/
def ofSelectors (duplicates : Duplicates) (selectors : List String) : Inventory :=
  ofTokens duplicates (selectors.flatMap scan)

/-- The inventory of a selector. -/
def ofSelector (duplicates : Duplicates) (selector : String) : Inventory :=
  ofTokens duplicates (scan selector)

/-! ### Questions -/

/-- The names in the bucket of a category; attributes have none. -/
def texts (inventory : Inventory) (category : Category) : List String :=
  (inventory.lexemes category).filterMap Lexeme.text?

/-- The pairs in the bucket of a category; only attributes have any. -/
def pairs (inventory : Inventory) (category : Category) : List Attribute :=
  (inventory.lexemes category).filterMap Lexeme.pair?

/-- Every category with its lexemes, in the fixed order. -/
def entries (inventory : Inventory) : List (Category × List Lexeme) :=
  Category.all.map fun category => (category, inventory.lexemes category)

/-- The number of lexemes in all buckets. -/
def size (inventory : Inventory) : Nat :=
  Category.all.foldr (fun category total => (inventory.bucket category).size + total) 0

/-- No bucket holds a lexeme. -/
def isEmpty (inventory : Inventory) : Bool :=
  Category.all.all fun category => (inventory.bucket category).isEmpty

end Inventory

end SelectorLexemes
