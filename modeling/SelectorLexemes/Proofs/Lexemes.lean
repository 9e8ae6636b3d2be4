/-
This file says what the lexemes of a selector are made of. A name is a stretch of name
characters of the selector; the sides of a pair are stretches of the content of its brackets,
trimmed, and the key ends before the first equals sign. Whatever the selector does not hold,
such as a line break, is therefore in none of its lexemes either, and in no bucket of its
inventory.
-/

import SelectorLexemes.Proofs.Inventories
import SelectorLexemes.Proofs.Lines
import SelectorLexemes.Proofs.Segmentation

namespace SelectorLexemes

/-! ### Stretches of a text -/

theorem HasSides.key_infix {content key value : List Char} (sides : HasSides content key value) :
    key <:+: content := by
  rcases sides.2 with rfl | ⟨rfl, rfl⟩
  · exact (List.prefix_append key ('=' :: value)).isInfix
  · exact List.infix_rfl

theorem HasSides.value_infix {content key value : List Char}
    (sides : HasSides content key value) : value <:+: content := by
  rcases sides.2 with rfl | ⟨rfl, rfl⟩
  · exact ((List.suffix_cons '=' value).trans (List.suffix_append key ('=' :: value))).isInfix
  · exact List.infix_rfl

namespace Segment

theorem name_infix_text {segment : Segment} {category : Category} {name : List Char}
    (naming : segment.naming? = some (category, name)) : name <:+: segment.text := by
  match segment, naming with
  | .element _, rfl => exact List.infix_rfl
  | .classSelector _, rfl | .idSelector _, rfl => exact (List.suffix_cons _ name).isInfix
  | .pseudoElement _, rfl =>
    exact ((List.suffix_cons ':' name).trans (List.suffix_cons ':' _)).isInfix
  | .pseudoClass _ argument, rfl =>
    exact (List.prefix_append name argument).isInfix.trans (List.suffix_cons ':' _).isInfix

theorem content_infix_text (content : List Char) (closed : Bool) :
    content <:+: (Segment.attribute content closed).text :=
  (List.prefix_append content _).isInfix.trans (List.suffix_cons '[' _).isInfix

theorem category_ne_attributes {segment : Segment} {category : Category} {name : List Char}
    (naming : segment.naming? = some (category, name)) : category ≠ .attributes := by
  cases segment <;> cases naming <;> exact Category.noConfusion

theorem text_infix_of_mem {segments : List Segment} {selector : List Char}
    (cut : IsCutOf segments selector) {segment : Segment} (member : segment ∈ segments) :
    segment.text <:+: selector := by
  rw [← cut.covers, List.flatMap_def]
  exact List.infix_of_mem_flatten (List.mem_map_of_mem member)

end Segment

/-! ### The tokens of a selector -/

/-- The token is made of stretches of the selector. -/
inductive Token.TakenFrom (selector : List Char) : Token → Prop
  /-- A name is a stretch of name characters. -/
  | name {category : Category} {name : List Char} :
      category ≠ .attributes → name ≠ [] → IsName name → name <:+: selector →
        TakenFrom selector ⟨category, .text (String.ofList name)⟩
  /-- A pair is made of the sides of a stretch without a closing bracket. -/
  | pair {content key value : List Char} :
      content <:+: selector → ']' ∉ content → HasSides content key value →
        ¬(Text.trim key = [] ∨ Text.trim value = []) →
        TakenFrom selector ⟨.attributes, .attribute
          ⟨String.ofList (Text.trim key), String.ofList (Text.trim value)⟩⟩

theorem takenFrom_of_mem_scan {selector : String} {token : Token}
    (member : token ∈ scan selector) : token.TakenFrom selector.toList := by
  have cut := Segment.isCutOf_ofSelector selector
  rw [scan_eq_filterMap] at member
  obtain ⟨segment, read, given⟩ := List.mem_filterMap.mp member
  obtain ⟨follower, fits⟩ := Segment.fitsBefore_of_mem cut.fits read
  have stretch := Segment.text_infix_of_mem cut read
  have gives : segment.Gives [token] := (Segment.gives_iff fits _).mpr (by rw [given]; rfl)
  cases gives with
  | named naming nonempty =>
    exact .name (Segment.category_ne_attributes naming) nonempty
      (Segment.isName_of_naming? fits naming) ((Segment.name_infix_text naming).trans stretch)
  | @pair content key value closed sides solid =>
    exact .pair ((Segment.content_infix_text content closed).trans stretch) fits.1 sides solid

/-- Keeping or collapsing repetitions, an inventory holds nothing but what the scan took from
the selector. -/
theorem Inventory.takenFrom_of_mem_lexemes {duplicates : Duplicates} {selector : String}
    {category : Category} {lexeme : Lexeme}
    (member : lexeme ∈ (ofSelector duplicates selector).lexemes category) :
    Token.TakenFrom selector.toList ⟨category, lexeme⟩ :=
  takenFrom_of_mem_scan ((mem_lexemes_ofTokens duplicates _ category lexeme).mp member)

end SelectorLexemes
