/-
This file proves that taking stock of two sequences of tokens together merges what each of them
gives alone, bucket by bucket. The second bucket is put behind the first; when repetitions are
collapsed, it loses the lexemes that the first one has.

The buckets do not remember how the tokens of different categories lay between one another. Two
sequences that agree on each category give the same inventory, and when every lexeme is kept
the inventory tells no less: it gives the tokens of each category back.
-/

import SelectorLexemes.Proofs.Grouping

namespace SelectorLexemes

/-- The tokens of a category are its lexemes with the category put back. -/
theorem filter_category_eq_map (category : Category) (tokens : List Token) :
    (tokens.filter fun token => token.category = category) =
      (lexemesOf category tokens).map (Token.mk category) := by
  have back : ∀ token ∈ tokens.filter fun token => token.category = category,
      Token.mk category token.lexeme = token := by
    intro token member
    obtain rfl : token.category = category := of_decide_eq_true (List.mem_filter.mp member).2
    rfl
  rw [lexemesOf, List.map_map]
  exact ((List.map_congr_left back).trans (List.map_id _)).symm

/-- Two sequences of tokens agree on a category when they have the same lexemes of it. -/
theorem filter_category_eq_iff (category : Category) (first second : List Token) :
    ((first.filter fun token => token.category = category) =
        second.filter fun token => token.category = category) ↔
      lexemesOf category first = lexemesOf category second := by
  constructor
  · intro same
    rw [lexemesOf, same, lexemesOf]
  · intro same
    rw [filter_category_eq_map, filter_category_eq_map, same]

namespace Inventory

theorem lexemes_ofTokens_keep_append (first second : List Token) (category : Category) :
    (ofTokens .keep (first ++ second)).lexemes category =
      (ofTokens .keep first).lexemes category ++ (ofTokens .keep second).lexemes category := by
  simp only [lexemes_ofTokens_keep, lexemesOf_append]

theorem lexemes_ofTokens_collapse_append (first second : List Token) (category : Category) :
    (ofTokens .collapse (first ++ second)).lexemes category =
      (ofTokens .collapse first).lexemes category ++
        ((ofTokens .collapse second).lexemes category).filter
          (· ∉ (ofTokens .collapse first).lexemes category) := by
  simp only [lexemes_ofTokens_collapse, lexemesOf_append, firstOccurrences_append,
    mem_firstOccurrences]

theorem ofTokens_congr {first second : List Token}
    (same : ∀ category, lexemesOf category first = lexemesOf category second)
    (duplicates : Duplicates) : ofTokens duplicates first = ofTokens duplicates second :=
  ext_lexemes fun category => lexemes_ofTokens_congr (same category) duplicates

/-- Every lexeme that is kept can be read off the inventory. -/
theorem lexemesOf_of_ofTokens_keep {first second : List Token}
    (same : ofTokens .keep first = ofTokens .keep second) (category : Category) :
    lexemesOf category first = lexemesOf category second := by
  rw [← lexemes_ofTokens_keep, same, lexemes_ofTokens_keep]

/-- Taking stock of tokens behind one another merges the buckets. Sequences that have the same
tokens of each category give the same inventory, and when every lexeme is kept no others do. -/
theorem ofTokens_merges :
    (∀ (first second : List Token) (category : Category),
      (ofTokens .keep (first ++ second)).lexemes category =
          (ofTokens .keep first).lexemes category ++ (ofTokens .keep second).lexemes category ∧
        (ofTokens .collapse (first ++ second)).lexemes category =
          (ofTokens .collapse first).lexemes category ++
            ((ofTokens .collapse second).lexemes category).filter
              (· ∉ (ofTokens .collapse first).lexemes category)) ∧
    ∀ first second : List Token,
      ((∀ category, (first.filter fun token => token.category = category) =
          second.filter fun token => token.category = category) →
        ∀ duplicates, ofTokens duplicates first = ofTokens duplicates second) ∧
      (ofTokens .keep first = ofTokens .keep second →
        ∀ category, (first.filter fun token => token.category = category) =
          second.filter fun token => token.category = category) := by
  refine ⟨fun first second category => ?_, fun first second => ?_⟩
  · exact ⟨lexemes_ofTokens_keep_append first second category,
      lexemes_ofTokens_collapse_append first second category⟩
  · simp only [filter_category_eq_iff]
    exact ⟨ofTokens_congr, lexemesOf_of_ofTokens_keep⟩

/-- An element and a class with the same name change places; the two elements do not. -/
theorem ofTokens_merges_interleaved :
    (∀ category,
      ([⟨.elements, .text "a"⟩, ⟨.classes, .text "a"⟩, ⟨.elements, .text "b"⟩] : List Token).filter
          (fun token => token.category = category) =
        [⟨.classes, .text "a"⟩, ⟨.elements, .text "a"⟩, ⟨.elements, .text "b"⟩].filter
          fun token => token.category = category) ∧
    ∀ duplicates,
      ofTokens duplicates
          [⟨.elements, .text "a"⟩, ⟨.classes, .text "a"⟩, ⟨.elements, .text "b"⟩] =
        ofTokens duplicates
          [⟨.classes, .text "a"⟩, ⟨.elements, .text "a"⟩, ⟨.elements, .text "b"⟩] := by
  have same : ∀ category,
      ([⟨.elements, .text "a"⟩, ⟨.classes, .text "a"⟩, ⟨.elements, .text "b"⟩] : List Token).filter
          (fun token => token.category = category) =
        [⟨.classes, .text "a"⟩, ⟨.elements, .text "a"⟩, ⟨.elements, .text "b"⟩].filter
          fun token => token.category = category := by
    intro category
    cases category <;> rfl
  exact ⟨same, (ofTokens_merges.2 _ _).1 same⟩

end Inventory

end SelectorLexemes
