/-
This file says which token a segment stands for, in terms of the segment alone. A name
stands for itself in the category of its segment, unless it is empty. The content of
brackets has two sides, split at the first equals sign or else both the whole content;
it stands for the pair of the trimmed sides, unless one of them is blank. The tokens that
segments give are exactly these.
-/

import SelectorLexemes.Proofs.Grammar

namespace SelectorLexemes

/-! ### Names -/

/-- A name of the grammar is its own token text. -/
theorem Token.named?_name (category : Category) (name : List Char) (isName : IsName name) :
    Token.named? category name =
      if name = [] then none else some ⟨category, .text (String.ofList name)⟩ := by
  rw [Token.named?, trim_name name isName]

/-! ### The sides of an attribute -/

/-- The content of brackets has these two sides: those around the first equals sign, or
the whole content twice if there is none. -/
def HasSides (content key value : List Char) : Prop :=
  '=' ∉ key ∧ (content = key ++ '=' :: value ∨ content = key ∧ value = key)

theorem exists_hasSides (content : List Char) : ∃ key value, HasSides content key value := by
  by_cases split : '=' ∈ content
  · obtain ⟨key, value, rfl, free⟩ := List.eq_append_cons_of_mem split
    exact ⟨key, value, free, Or.inl rfl⟩
  · exact ⟨content, content, split, Or.inr ⟨rfl, rfl⟩⟩

/-! The first equals sign is found behind every text that has none. -/

theorem takeWhile_ne_equals {front : List Char} (back : List Char) (free : '=' ∉ front) :
    (front ++ '=' :: back).takeWhile (· != '=') = front := by
  have plain := forall_bne_of_not_mem free
  rw [List.takeWhile_append_of_pos plain, List.takeWhile_cons_of_neg (by decide), List.append_nil]

theorem dropWhile_ne_equals {front : List Char} (back : List Char) (free : '=' ∉ front) :
    (front ++ '=' :: back).dropWhile (· != '=') = '=' :: back := by
  have plain := forall_bne_of_not_mem free
  rw [List.dropWhile_append_of_pos plain, List.dropWhile_cons_of_neg (by decide)]

theorem dropWhile_ne_equals_eq_nil {text : List Char} (free : '=' ∉ text) :
    text.dropWhile (· != '=') = [] :=
  List.dropWhile_eq_nil_iff.mpr (forall_bne_of_not_mem free)

theorem Segment.attributeToken?_of_hasSides (content key value : List Char)
    (sides : HasSides content key value) :
    Segment.attributeToken? content = Token.attribute? key value := by
  obtain ⟨free, split⟩ := sides
  rcases split with rfl | ⟨rfl, rfl⟩
  · rw [Segment.attributeToken?, dropWhile_ne_equals value free, takeWhile_ne_equals value free]
  · rw [Segment.attributeToken?, dropWhile_ne_equals_eq_nil free]

theorem Token.attribute?_eq (key value : List Char) :
    Token.attribute? key value =
      if Text.trim key = [] ∨ Text.trim value = [] then
        none
      else
        some ⟨.attributes, .attribute
          ⟨String.ofList (Text.trim key), String.ofList (Text.trim value)⟩⟩ := by
  simp only [Token.attribute?, Attribute.ofSides?, Text.trimmed, String.toList_ofList,
    String.ofList_eq_empty_iff]
  split <;> rfl

/-! ### What segments stand for -/

namespace Segment

/-- The category and the name of a segment that consists of a name and its marks. -/
def naming? : Segment → Option (Category × List Char)
  | .separator _ | .attribute _ _ => none
  | .element name => some (.elements, name)
  | .classSelector name => some (.classes, name)
  | .idSelector name => some (.ids, name)
  | .pseudoElement name => some (.pseudoElements, name)
  | .pseudoClass name _ => some (.pseudoClasses, name)

/-- The segment stands for these tokens, which are one or none. -/
inductive Gives : Segment → List Token → Prop
  /-- A separator stands for nothing. -/
  | separator (mark : Char) : Gives (.separator mark) []
  /-- Marks without a name stand for nothing. -/
  | nameless {segment : Segment} {category : Category} :
      segment.naming? = some (category, []) → Gives segment []
  /-- A name stands for itself. -/
  | named {segment : Segment} {category : Category} {name : List Char} :
      segment.naming? = some (category, name) → name ≠ [] →
        Gives segment [⟨category, .text (String.ofList name)⟩]
  /-- Brackets with a blank side stand for nothing. -/
  | blank {content key value : List Char} {closed : Bool} :
      HasSides content key value → Text.trim key = [] ∨ Text.trim value = [] →
        Gives (.attribute content closed) []
  /-- Brackets stand for the pair of their sides, which are trimmed. -/
  | pair {content key value : List Char} {closed : Bool} :
      HasSides content key value → ¬(Text.trim key = [] ∨ Text.trim value = []) →
        Gives (.attribute content closed)
          [⟨.attributes, .attribute
            ⟨String.ofList (Text.trim key), String.ofList (Text.trim value)⟩⟩]

theorem token?_of_naming? {segment : Segment} {category : Category} {name : List Char}
    (naming : segment.naming? = some (category, name)) :
    segment.token? = Token.named? category name := by
  cases segment <;> cases naming <;> rfl

/-- A segment with a name that is not empty gives the name. -/
theorem token?_of_name {segment : Segment} {category : Category} {name : String}
    (naming : segment.naming? = some (category, name.toList)) (isName : IsName name.toList)
    (nonempty : name ≠ "") : segment.token? = some ⟨category, .text name⟩ := by
  rw [token?_of_naming? naming, Token.named?_name category name.toList isName,
    if_neg (mt String.toList_eq_nil_iff.mp nonempty), String.ofList_toList]

theorem isName_of_naming? {segment : Segment} {next : Option Char} {category : Category}
    {name : List Char} (fits : segment.FitsBefore next)
    (naming : segment.naming? = some (category, name)) : IsName name := by
  cases segment <;> cases naming
  · exact fits.2.1
  all_goals exact fits.1

/-- The token of a segment of the grammar is the one that it stands for. -/
theorem gives_iff {segment : Segment} {next : Option Char} (fits : segment.FitsBefore next)
    (tokens : List Token) : segment.Gives tokens ↔ tokens = segment.token?.toList := by
  constructor
  · intro gives
    cases gives with
    | separator mark => rfl
    | nameless naming =>
      rw [token?_of_naming? naming, Token.named?_name _ _ (isName_of_naming? fits naming),
        if_pos rfl]
      rfl
    | named naming nonempty =>
      rw [token?_of_naming? naming, Token.named?_name _ _ (isName_of_naming? fits naming),
        if_neg nonempty]
      rfl
    | blank sides blank =>
      rw [token?, attributeToken?_of_hasSides _ _ _ sides, Token.attribute?_eq, if_pos blank]
      rfl
    | pair sides solid =>
      rw [token?, attributeToken?_of_hasSides _ _ _ sides, Token.attribute?_eq, if_neg solid]
      rfl
  · rintro rfl
    cases naming : segment.naming? with
    | some parts =>
      obtain ⟨category, name⟩ := parts
      rw [token?_of_naming? naming, Token.named?_name _ _ (isName_of_naming? fits naming)]
      by_cases empty : name = []
      · rw [if_pos empty]
        exact .nameless (empty ▸ naming)
      · rw [if_neg empty]
        exact .named naming empty
    | none =>
      match segment, naming with
      | .separator mark, _ => exact .separator mark
      | .attribute content closed, _ =>
        obtain ⟨key, value, sides⟩ := exists_hasSides content
        rw [token?, attributeToken?_of_hasSides _ _ _ sides, Token.attribute?_eq]
        by_cases blank : Text.trim key = [] ∨ Text.trim value = []
        · rw [if_pos blank]
          exact .blank sides blank
        · rw [if_neg blank]
          exact .pair sides blank

/-- A segment that gives a text consists of this name and its marks. -/
theorem naming?_of_token? {segment : Segment} {next : Option Char} (fits : segment.FitsBefore next)
    {category : Category} {name : String}
    (given : segment.token? = some ⟨category, .text name⟩) :
    segment.naming? = some (category, name.toList) ∧ name.toList ≠ [] := by
  have gives : segment.Gives [⟨category, .text name⟩] :=
    (gives_iff fits _).mpr (by rw [given, Option.toList_some])
  cases gives with
  | named naming nonempty =>
    rw [String.toList_ofList]
    exact ⟨naming, nonempty⟩

end Segment

end SelectorLexemes
