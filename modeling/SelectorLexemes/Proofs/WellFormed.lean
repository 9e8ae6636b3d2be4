/-
This file says when a token is well formed and proves that scanning gives no other. A name is
not empty and is made of name characters, so that trimming leaves it alone. The sides of a
pair are not empty, have a blank at neither end and hold no closing bracket; the key holds no
equals sign either, and so a value with one is never the key again. Pairs stand among the
attributes and names never do.

The last point is also a promise about the way there: a scan that refuses to put a name among
the attributes, even a name that is dropped because it is empty, comes to the same tokens.
Inventories hold nothing but the tokens of a scan, so all of this goes for their buckets.
-/

import SelectorLexemes.Proofs.Lexemes

namespace SelectorLexemes

/-! ### Well-formed tokens -/

/-- A text that may be a side of a pair. -/
structure IsSide (side : String) : Prop where
  nonempty : side ≠ ""
  unindented : side.toList.head?.any Text.isBlank = false
  untrailed : side.toList.getLast?.any Text.isBlank = false
  unclosed : ']' ∉ side.toList

/-- The sides of a pair are as they are behind the first equals sign and in front of it. -/
structure Attribute.IsWellFormed (pair : Attribute) : Prop where
  key : IsSide pair.key
  value : IsSide pair.value
  unsplit : '=' ∉ pair.key.toList
  differs : '=' ∈ pair.value.toList → pair.value ≠ pair.key

/-- The token has the lexeme that its category asks for. -/
structure Token.IsWellFormed (token : Token) : Prop where
  sorted : token.category = .attributes ↔ ∃ pair, token.lexeme = .attribute pair
  name : ∀ name, token.lexeme = .text name →
    name ≠ "" ∧ IsName name.toList ∧ Text.trimmed name = name
  pair : ∀ pair, token.lexeme = .attribute pair → pair.IsWellFormed

theorem isSide_trim {side : List Char} (solid : Text.trim side ≠ []) (unclosed : ']' ∉ side) :
    IsSide (String.ofList (Text.trim side)) := by
  constructor
  · exact mt String.ofList_eq_empty_iff.mp solid
  · rw [String.toList_ofList]
    exact Text.head?_trim side
  · rw [String.toList_ofList]
    exact Text.getLast?_trim side
  · rw [String.toList_ofList]
    exact fun member => unclosed ((Text.trim_infix side).subset member)

theorem Attribute.isWellFormed_of_hasSides {content key value : List Char}
    (sides : HasSides content key value) (unclosed : ']' ∉ content)
    (solid : ¬(Text.trim key = [] ∨ Text.trim value = [])) :
    Attribute.IsWellFormed
      ⟨String.ofList (Text.trim key), String.ofList (Text.trim value)⟩ := by
  obtain ⟨keySolid, valueSolid⟩ := not_or.mp solid
  have unsplit : '=' ∉ Text.trim key := fun member => sides.1 ((Text.trim_infix key).subset member)
  constructor
  · exact isSide_trim keySolid fun member => unclosed (sides.key_infix.subset member)
  · exact isSide_trim valueSolid fun member => unclosed (sides.value_infix.subset member)
  · rwa [String.toList_ofList]
  · intro split same
    rw [same, String.toList_ofList] at split
    exact unsplit split

/-- What is taken from a selector is well formed. -/
theorem Token.TakenFrom.isWellFormed {selector : List Char} {token : Token}
    (taken : token.TakenFrom selector) : token.IsWellFormed := by
  cases taken with
  | name elsewhere nonempty isName _ =>
    constructor
    · constructor
      · intro among
        exact absurd among elsewhere
      · rintro ⟨pair, given⟩
        cases given
    · rintro _ ⟨⟩
      rw [Text.trimmed, String.toList_ofList, trim_name _ isName]
      exact ⟨mt String.ofList_eq_empty_iff.mp nonempty, isName, rfl⟩
    · intro pair given
      cases given
  | pair _ unclosed sides solid =>
    constructor
    · exact ⟨fun _ => ⟨_, rfl⟩, fun _ => rfl⟩
    · intro name given
      cases given
    · rintro _ ⟨⟩
      exact Attribute.isWellFormed_of_hasSides sides unclosed solid

theorem isWellFormed_of_mem_scan {selector : String} {token : Token}
    (member : token ∈ scan selector) : token.IsWellFormed :=
  (takenFrom_of_mem_scan member).isWellFormed

/-! ### A scan that refuses to put names among the attributes -/

/-- The token of a named part, which must not be asked for among the attributes. -/
def Token.strictlyNamed? (category : Category) (name : List Char) : Option (Option Token) :=
  if category = .attributes then none else some (Token.named? category name)

/-- The token that the segment gives, unless its name would be put among the attributes. -/
def Segment.strictToken? (segment : Segment) : Option (Option Token) :=
  match segment.naming? with
  | some (category, name) => Token.strictlyNamed? category name
  | none => some segment.token?

/-- The tokens of a selector, unless one of its names would be put among the attributes. -/
def strictScan? (selector : String) : Option (List Token) :=
  ((Segment.ofSelector selector).mapM Segment.strictToken?).map (List.filterMap id)

theorem Segment.strictToken?_eq_some (segment : Segment) :
    segment.strictToken? = some segment.token? := by
  unfold strictToken?
  cases naming : segment.naming? with
  | none => rfl
  | some parts =>
    obtain ⟨category, name⟩ := parts
    dsimp only
    rw [Token.strictlyNamed?, if_neg (category_ne_attributes naming), token?_of_naming? naming]

theorem strictScan?_eq_some (selector : String) : strictScan? selector = some (scan selector) := by
  have strict : Segment.strictToken? = fun segment => some segment.token? :=
    funext Segment.strictToken?_eq_some
  have all : (Segment.ofSelector selector).mapM (m := Option) (fun segment => some segment.token?) =
      some ((Segment.ofSelector selector).map Segment.token?) := List.mapM_pure
  rw [strictScan?, strict, all, Option.map_some, List.filterMap_map, scan_eq_filterMap]
  rfl

/-! ### Buckets -/

namespace Inventory

theorem isWellFormed_of_mem_lexemes {duplicates : Duplicates} {selector : String}
    {category : Category} {lexeme : Lexeme}
    (member : lexeme ∈ (ofSelector duplicates selector).lexemes category) :
    Token.IsWellFormed ⟨category, lexeme⟩ :=
  (takenFrom_of_mem_lexemes member).isWellFormed

theorem map_text_texts {duplicates : Duplicates} {selector : String} {category : Category}
    (other : category ≠ .attributes) :
    ((ofSelector duplicates selector).texts category).map Lexeme.text =
      (ofSelector duplicates selector).lexemes category := by
  have named : ∀ lexeme ∈ (ofSelector duplicates selector).lexemes category,
      lexeme.text?.map Lexeme.text = some lexeme := by
    intro lexeme member
    match lexeme, member with
    | .text name, _ => rfl
    | .attribute pair, member =>
      exact absurd ((isWellFormed_of_mem_lexemes member).sorted.mpr ⟨pair, rfl⟩) other
  rw [texts, List.map_filterMap, List.filterMap_congr named, List.filterMap_some]

theorem texts_attributes (duplicates : Duplicates) (selector : String) :
    (ofSelector duplicates selector).texts .attributes = [] := by
  rw [texts, List.filterMap_eq_nil_iff]
  intro lexeme member
  obtain ⟨pair, given⟩ := (isWellFormed_of_mem_lexemes member).sorted.mp rfl
  obtain rfl : lexeme = .attribute pair := given
  rfl

end Inventory

/-! ### All tokens are well formed -/

/-- The tokens of a selector are well formed, and no name is ever put among the attributes.
Whether or not repetitions are kept, the buckets of its inventory hold well-formed lexemes of
their own category: the texts of a bucket are all of it, and those of the attributes are
none of it. -/
theorem scan_wellFormed (selector : String) :
    (∀ token ∈ scan selector, token.IsWellFormed) ∧
    strictScan? selector = some (scan selector) ∧
    ∀ duplicates : Duplicates,
      (∀ category, ∀ lexeme ∈ (Inventory.ofSelector duplicates selector).lexemes category,
        Token.IsWellFormed ⟨category, lexeme⟩) ∧
      (∀ category, category ≠ .attributes →
        ((Inventory.ofSelector duplicates selector).texts category).map Lexeme.text =
          (Inventory.ofSelector duplicates selector).lexemes category) ∧
      (Inventory.ofSelector duplicates selector).texts .attributes = [] := by
  refine ⟨fun token member => isWellFormed_of_mem_scan member, strictScan?_eq_some selector, ?_⟩
  intro duplicates
  refine ⟨?_, ?_, Inventory.texts_attributes duplicates selector⟩
  · intro category lexeme member
    exact Inventory.isWellFormed_of_mem_lexemes member
  · intro category other
    exact Inventory.map_text_texts other

/-- The value of a pair may hold an equals sign and blanks in its middle. -/
theorem scan_wellFormed_pair :
    ⟨.attributes, .attribute ⟨"b", "b = c"⟩⟩ ∈ scan "a[ b = b = c " ∧
      Attribute.IsWellFormed ⟨"b", "b = c"⟩ := by
  have scanned : scan "a[ b = b = c " =
      [⟨.elements, .text "a"⟩, ⟨.attributes, .attribute ⟨"b", "b = c"⟩⟩] :=
    scan_of_isCutOf [.element ['a'],
      .attribute [' ', 'b', ' ', '=', ' ', 'b', ' ', '=', ' ', 'c', ' '] false] _ (by decide)
  have member : ⟨.attributes, .attribute ⟨"b", "b = c"⟩⟩ ∈ scan "a[ b = b = c " := by
    rw [scanned]
    exact List.mem_cons_of_mem _ List.mem_cons_self
  obtain ⟨tokens, _⟩ := scan_wellFormed "a[ b = b = c "
  exact ⟨member, (tokens _ member).pair _ rfl⟩

end SelectorLexemes
