/-
This file proves that taking stock groups tokens as the reference definition says: the buckets
list the lexemes of their categories, all of them or their first occurrences, and the size of
an inventory is the number of tokens or of different tokens.

Taking stock looks for a repetition in the bucket itself. A sorting that enters what it has
taken into a set of its own for each category comes to the same inventory: when repetitions are
collapsed, every set holds exactly what its bucket holds, and otherwise no set is asked.
-/

import Mathlib.Data.Finset.Card
import SelectorLexemes.Proofs.Inventories

namespace SelectorLexemes

namespace Inventory

/-! ### Sizes -/

/-- A token is known to the inventory of some tokens exactly when it is one of them. -/
theorem lexeme_mem_bucket_ofTokens (duplicates : Duplicates) (tokens : List Token) (token : Token) :
    token.lexeme ∈ (ofTokens duplicates tokens).bucket token.category ↔ token ∈ tokens := by
  rw [← Array.mem_toList_iff]
  exact mem_lexemes_ofTokens duplicates tokens token.category token.lexeme

theorem ofTokens_collapse_concat (tokens : List Token) (last : Token) :
    ofTokens .collapse (tokens ++ [last]) =
      if last ∈ tokens then ofTokens .collapse tokens
      else (ofTokens .collapse tokens).push last.category last.lexeme := by
  rw [ofTokens_concat, add]
  simp only [lexeme_mem_bucket_ofTokens]

theorem size_push (inventory : Inventory) (category : Category) (lexeme : Lexeme) :
    (inventory.push category lexeme).size = inventory.size + 1 := by
  cases category <;> simp only [size, Category.all, List.foldr, push, bucket, Array.size_push] <;>
    omega

theorem size_ofTokens_keep (tokens : List Token) : (ofTokens .keep tokens).size = tokens.length := by
  induction tokens using List.reverseRecOn with
  | nil => rfl
  | append_singleton tokens last inductionHypothesis =>
    rw [ofTokens_concat, add, size_push, inductionHypothesis, List.length_append,
      List.length_singleton]

/-- Every pair of a category and a lexeme is counted once. -/
theorem size_ofTokens_collapse (tokens : List Token) :
    (ofTokens .collapse tokens).size = tokens.toFinset.card := by
  induction tokens using List.reverseRecOn with
  | nil => rfl
  | append_singleton tokens last inductionHypothesis =>
    have grown : (tokens ++ [last]).toFinset = insert last tokens.toFinset := by
      ext token
      simp
    rw [ofTokens_collapse_concat, grown]
    split
    · next known =>
      rw [Finset.insert_eq_of_mem (List.mem_toFinset.mpr known), inductionHypothesis]
    · next fresh =>
      rw [Finset.card_insert_of_notMem (mt List.mem_toFinset.mp fresh), size_push,
        inductionHypothesis]

end Inventory

/-! ### A sorting with sets of its own -/

/-- An inventory with a set of lexemes for each category. -/
structure Sorting where
  /-- The buckets filled up to here. -/
  inventory : Inventory := .empty
  /-- The lexemes that were entered up to here. -/
  seen : Category → Finset Lexeme := fun _ => ∅

namespace Sorting

/-- Enters a lexeme into the set of its category. -/
def enter (sorting : Sorting) (token : Token) : Category → Finset Lexeme :=
  Function.update sorting.seen token.category
    (insert token.lexeme (sorting.seen token.category))

/-- Takes up a token. The sets are only used when repetitions are collapsed; the lexeme is
entered then, and dropped if it was there before. -/
def take (duplicates : Duplicates) (sorting : Sorting) (token : Token) : Sorting :=
  match duplicates with
  | .keep => { sorting with inventory := sorting.inventory.push token.category token.lexeme }
  | .collapse =>
    if token.lexeme ∈ sorting.seen token.category then
      { sorting with seen := sorting.enter token }
    else
      ⟨sorting.inventory.push token.category token.lexeme, sorting.enter token⟩

/-- Takes up tokens one after another. -/
def ofTokens (duplicates : Duplicates) (tokens : List Token) : Sorting :=
  tokens.foldl (take duplicates) {}

/-- The sets hold what the buckets hold. -/
def InStep (sorting : Sorting) : Prop :=
  ∀ category, sorting.seen category = (sorting.inventory.lexemes category).toFinset

theorem InStep.take_collapse {sorting : Sorting} (inStep : sorting.InStep) (token : Token) :
    (sorting.take .collapse token).InStep ∧
      (sorting.take .collapse token).inventory = sorting.inventory.add .collapse token := by
  have known : token.lexeme ∈ sorting.seen token.category ↔
      token.lexeme ∈ sorting.inventory.bucket token.category := by
    rw [inStep, List.mem_toFinset, Inventory.lexemes, Array.mem_toList_iff]
  rw [take, Inventory.add]
  split
  · next held =>
    rw [if_pos (known.mp held)]
    refine ⟨fun category => ?_, rfl⟩
    rw [← inStep, enter, Finset.insert_eq_of_mem held, Function.update_eq_self]
  · next fresh =>
    rw [if_neg (mt known.mpr fresh)]
    refine ⟨fun category => ?_, rfl⟩
    show sorting.enter token category = _
    rw [Inventory.lexemes_push, List.toFinset_append, lexemesOf_singleton, ← inStep, enter]
    by_cases same : token.category = category
    · subst same
      rw [if_pos rfl, Function.update_self, Finset.insert_eq, Finset.union_comm]
      rfl
    · rw [if_neg same, Function.update_of_ne (Ne.symm same), List.toFinset_nil,
        Finset.union_empty]

theorem inventory_ofTokens_keep (tokens : List Token) :
    (ofTokens .keep tokens).inventory = Inventory.ofTokens .keep tokens := by
  induction tokens using List.reverseRecOn with
  | nil => rfl
  | append_singleton tokens last inductionHypothesis =>
    rw [Inventory.ofTokens_concat, ← inductionHypothesis, ofTokens, List.foldl_concat]
    rfl

/-- While repetitions are collapsed, the sets stay in step with the buckets, and so the sorting
drops exactly the repetitions. -/
theorem ofTokens_collapse (tokens : List Token) :
    (ofTokens .collapse tokens).InStep ∧
      (ofTokens .collapse tokens).inventory = Inventory.ofTokens .collapse tokens := by
  induction tokens using List.reverseRecOn with
  | nil =>
    refine ⟨fun category => ?_, rfl⟩
    show ∅ = (Inventory.empty.lexemes category).toFinset
    rw [Inventory.lexemes_empty, List.toFinset_nil]
  | append_singleton tokens last inductionHypothesis =>
    obtain ⟨inStep, same⟩ := inductionHypothesis
    rw [Inventory.ofTokens_concat, ← same, ofTokens, List.foldl_concat]
    exact inStep.take_collapse last

theorem inventory_ofTokens (duplicates : Duplicates) (tokens : List Token) :
    (ofTokens duplicates tokens).inventory = Inventory.ofTokens duplicates tokens := by
  cases duplicates with
  | keep => exact inventory_ofTokens_keep tokens
  | collapse => exact (ofTokens_collapse tokens).2

end Sorting

/-! ### The reference definition -/

/-- Taking stock lists for every category the lexemes of its tokens, all of them or only those
that equal no earlier one. What is left when repetitions are collapsed has no duplicates, holds
the same lexemes in the order of their first occurrences, and does not depend on the tokens of
other categories. So the size is the number of tokens or of different tokens, an inventory is
empty when there are no tokens, and a sorting with sets of its own comes to the same. -/
theorem Inventory.ofTokens_groups (tokens : List Token) :
    (∀ category,
      (ofTokens .keep tokens).lexemes category = lexemesOf category tokens ∧
      (ofTokens .collapse tokens).lexemes category =
        firstOccurrences (lexemesOf category tokens) ∧
      ((ofTokens .collapse tokens).lexemes category).Nodup ∧
      (∀ lexeme, lexeme ∈ (ofTokens .collapse tokens).lexemes category ↔
        lexeme ∈ lexemesOf category tokens) ∧
      (((ofTokens .collapse tokens).lexemes category).Pairwise fun earlier later =>
        (lexemesOf category tokens).idxOf earlier < (lexemesOf category tokens).idxOf later) ∧
      ∀ duplicates,
        (ofTokens duplicates (tokens.filter fun token => token.category = category)).lexemes
            category =
          (ofTokens duplicates tokens).lexemes category) ∧
    (ofTokens .keep tokens).size = tokens.length ∧
    (ofTokens .collapse tokens).size = tokens.toFinset.card ∧
    ∀ duplicates,
      ((ofTokens duplicates tokens).isEmpty = true ↔ tokens = []) ∧
        (Sorting.ofTokens duplicates tokens).inventory = ofTokens duplicates tokens := by
  refine ⟨fun category => ?_, size_ofTokens_keep tokens, size_ofTokens_collapse tokens,
    fun duplicates => ?_⟩
  · have collapsed := lexemes_ofTokens_collapse tokens category
    refine ⟨lexemes_ofTokens_keep tokens category, collapsed, ?_, ?_, ?_, ?_⟩
    · rw [collapsed]
      exact nodup_firstOccurrences _
    · intro lexeme
      rw [collapsed, mem_firstOccurrences]
    · rw [collapsed]
      exact pairwise_firstOccurrences _
    · exact lexemes_ofTokens_congr (lexemesOf_filter category tokens)
  · exact ⟨isEmpty_ofTokens duplicates tokens, Sorting.inventory_ofTokens duplicates tokens⟩

end SelectorLexemes
