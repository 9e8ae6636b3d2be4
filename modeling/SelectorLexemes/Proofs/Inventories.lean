/-
This file says what the buckets of an inventory hold. The bucket of a category lists the lexemes
of its tokens in the order of the tokens. When repetitions are collapsed, a lexeme that equals
an earlier one of the same category is left out, whatever the other categories hold.

Collapsing changes how often a lexeme is listed but never whether it is, so membership and
emptiness do not depend on what happens to repetitions.
-/

import Mathlib.Data.List.Basic
import Mathlib.Data.List.Induction
import Mathlib.Data.List.Nodup
import SelectorLexemes.Inventory

namespace SelectorLexemes

/-! ### First occurrences -/

section FirstOccurrences

variable {Entry : Type} [DecidableEq Entry]

/-- The entries that equal no earlier one, in order. -/
def firstOccurrences (entries : List Entry) : List Entry :=
  (entries.zipIdx.filter fun (entry, place) => entry ∉ entries.take place).map Prod.fst

theorem firstOccurrences_concat (entries : List Entry) (last : Entry) :
    firstOccurrences (entries ++ [last]) =
      if last ∈ entries then firstOccurrences entries else firstOccurrences entries ++ [last] := by
  have earlier : ∀ pair ∈ entries.zipIdx,
      decide (pair.1 ∉ (entries ++ [last]).take pair.2) =
        decide (pair.1 ∉ entries.take pair.2) := by
    intro pair member
    have inside : pair.2 ≤ entries.length := Nat.le_of_lt (List.snd_lt_of_mem_zipIdx member)
    rw [List.take_append_of_le_length inside]
  have final : (entries ++ [last]).take entries.length = entries := List.take_left
  rw [firstOccurrences, List.zipIdx_append, List.filter_append, List.filter_congr earlier,
    List.map_append, ← firstOccurrences]
  simp only [Nat.zero_add, List.zipIdx_singleton, List.filter_singleton, final]
  by_cases known : last ∈ entries
  · simp [known]
  · simp [known]

/-- Of two lists behind one another the second adds what the first does not have. -/
theorem firstOccurrences_append (first second : List Entry) :
    firstOccurrences (first ++ second) =
      firstOccurrences first ++ (firstOccurrences second).filter (· ∉ first) := by
  induction second using List.reverseRecOn with
  | nil => simp [firstOccurrences]
  | append_singleton entries last inductionHypothesis =>
    rw [← List.append_assoc, firstOccurrences_concat, firstOccurrences_concat,
      inductionHypothesis]
    by_cases again : last ∈ entries
    · rw [if_pos (List.mem_append_right first again), if_pos again]
    · by_cases known : last ∈ first
      · simp [known, again]
      · simp [known, again]

theorem mem_firstOccurrences (entries : List Entry) (entry : Entry) :
    entry ∈ firstOccurrences entries ↔ entry ∈ entries := by
  induction entries using List.reverseRecOn with
  | nil => rfl
  | append_singleton entries last inductionHypothesis =>
    rw [firstOccurrences_concat, List.mem_append, List.mem_singleton]
    split
    · next known =>
      rw [inductionHypothesis]
      exact ⟨Or.inl, fun given => given.elim id fun same => same ▸ known⟩
    · rw [List.mem_append, List.mem_singleton, inductionHypothesis]

theorem nodup_firstOccurrences (entries : List Entry) : (firstOccurrences entries).Nodup := by
  induction entries using List.reverseRecOn with
  | nil => exact List.nodup_nil
  | append_singleton entries last inductionHypothesis =>
    rw [firstOccurrences_concat]
    split
    · exact inductionHypothesis
    · next fresh =>
      rw [← List.concat_eq_append]
      exact inductionHypothesis.concat (mt (mem_firstOccurrences entries last).mp fresh)

/-- First occurrences stand in the order in which the entries first occur. -/
theorem pairwise_firstOccurrences (entries : List Entry) :
    (firstOccurrences entries).Pairwise fun earlier later =>
      entries.idxOf earlier < entries.idxOf later := by
  induction entries using List.reverseRecOn with
  | nil => exact List.Pairwise.nil
  | append_singleton entries last inductionHypothesis =>
    have place : ∀ entry ∈ firstOccurrences entries,
        (entries ++ [last]).idxOf entry = entries.idxOf entry := fun entry member =>
      List.idxOf_append_of_mem ((mem_firstOccurrences entries entry).mp member)
    have before : (firstOccurrences entries).Pairwise fun earlier later =>
        (entries ++ [last]).idxOf earlier < (entries ++ [last]).idxOf later :=
      inductionHypothesis.imp_of_mem fun memberEarlier memberLater less => by
        rwa [place _ memberEarlier, place _ memberLater]
    rw [firstOccurrences_concat]
    split
    · exact before
    · next fresh =>
      rw [List.pairwise_append]
      refine ⟨before, List.pairwise_singleton _ _, fun entry member other isLast => ?_⟩
      obtain rfl := List.mem_singleton.mp isLast
      rw [place entry member, List.idxOf_append_of_notMem fresh, List.idxOf_cons_self,
        Nat.add_zero]
      exact List.idxOf_lt_length_iff.mpr ((mem_firstOccurrences entries entry).mp member)

example : firstOccurrences [3, 1, 3, 2, 1] = [3, 1, 2] := by decide

end FirstOccurrences

/-! ### The lexemes of a category -/

/-- The lexemes of the tokens of a category, in the order of the tokens. -/
def lexemesOf (category : Category) (tokens : List Token) : List Lexeme :=
  (tokens.filter fun token => token.category = category).map Token.lexeme

theorem lexemesOf_append (category : Category) (first second : List Token) :
    lexemesOf category (first ++ second) = lexemesOf category first ++ lexemesOf category second := by
  rw [lexemesOf, List.filter_append, List.map_append]
  rfl

theorem lexemesOf_singleton (category : Category) (token : Token) :
    lexemesOf category [token] = if token.category = category then [token.lexeme] else [] := by
  by_cases same : token.category = category
  · simp [lexemesOf, same]
  · simp [lexemesOf, same]

theorem mem_lexemesOf (category : Category) (tokens : List Token) (lexeme : Lexeme) :
    lexeme ∈ lexemesOf category tokens ↔ ⟨category, lexeme⟩ ∈ tokens := by
  simp only [lexemesOf, List.mem_map, List.mem_filter, decide_eq_true_eq]
  constructor
  · rintro ⟨token, ⟨member, rfl⟩, rfl⟩
    exact member
  · intro member
    exact ⟨_, ⟨member, rfl⟩, rfl⟩

/-- Tokens of other categories are not looked at. -/
theorem lexemesOf_filter (category : Category) (tokens : List Token) :
    lexemesOf category (tokens.filter fun token => token.category = category) =
      lexemesOf category tokens := by
  rw [lexemesOf, List.filter_filter]
  simp only [Bool.and_self]
  rfl

namespace Inventory

/-! ### Buckets -/

theorem lexemes_push (inventory : Inventory) (token : Token) (category : Category) :
    (inventory.push token.category token.lexeme).lexemes category =
      inventory.lexemes category ++ lexemesOf category [token] := by
  rw [lexemesOf_singleton]
  split
  · next same => rw [← same, lexemes_push_self]
  · next other => rw [lexemes_push_other inventory (Ne.symm other), List.append_nil]

theorem lexemes_add_collapse (inventory : Inventory) (token : Token) (category : Category) :
    (inventory.add .collapse token).lexemes category =
      inventory.lexemes category ++
        (lexemesOf category [token]).filter (· ∉ inventory.lexemes category) := by
  have known : token.lexeme ∈ inventory.bucket token.category ↔
      token.lexeme ∈ inventory.lexemes token.category := Array.mem_toList_iff.symm
  rw [add, lexemesOf_singleton]
  by_cases same : token.category = category
  · subst same
    split
    · next held => simp [known.mp held]
    · next fresh => simp [mt known.mpr fresh]
  · rw [if_neg same, List.filter_nil, List.append_nil]
    split
    · rfl
    · exact lexemes_push_other inventory (Ne.symm same) token.lexeme

theorem ofTokens_concat (duplicates : Duplicates) (tokens : List Token) (last : Token) :
    ofTokens duplicates (tokens ++ [last]) = (ofTokens duplicates tokens).add duplicates last :=
  List.foldl_concat _ _ _ _

theorem lexemes_ofTokens_keep (tokens : List Token) (category : Category) :
    (ofTokens .keep tokens).lexemes category = lexemesOf category tokens := by
  -- Tokens are added at the end, so the induction here and below is on the last one.
  induction tokens using List.reverseRecOn with
  | nil => exact lexemes_empty category
  | append_singleton tokens last inductionHypothesis =>
    rw [ofTokens_concat, add, lexemes_push, inductionHypothesis, lexemesOf_append]

theorem lexemes_ofTokens_collapse (tokens : List Token) (category : Category) :
    (ofTokens .collapse tokens).lexemes category =
      firstOccurrences (lexemesOf category tokens) := by
  induction tokens using List.reverseRecOn with
  | nil => exact lexemes_empty category
  | append_singleton tokens last inductionHypothesis =>
    have single : firstOccurrences (lexemesOf category [last]) = lexemesOf category [last] := by
      rw [lexemesOf_singleton]
      split <;> rfl
    rw [ofTokens_concat, lexemes_add_collapse, inductionHypothesis, lexemesOf_append,
      firstOccurrences_append, single]
    simp only [mem_firstOccurrences]

/-- Buckets are built from the lexemes of their own category alone. -/
theorem lexemes_ofTokens_congr {first second : List Token} {category : Category}
    (same : lexemesOf category first = lexemesOf category second) (duplicates : Duplicates) :
    (ofTokens duplicates first).lexemes category =
      (ofTokens duplicates second).lexemes category := by
  cases duplicates with
  | keep => rw [lexemes_ofTokens_keep, lexemes_ofTokens_keep, same]
  | collapse => rw [lexemes_ofTokens_collapse, lexemes_ofTokens_collapse, same]

/-- The buckets hold the lexemes of the tokens, whether or not repetitions are kept. -/
theorem mem_lexemes_ofTokens (duplicates : Duplicates) (tokens : List Token)
    (category : Category) (lexeme : Lexeme) :
    lexeme ∈ (ofTokens duplicates tokens).lexemes category ↔ ⟨category, lexeme⟩ ∈ tokens := by
  cases duplicates with
  | keep => rw [lexemes_ofTokens_keep, mem_lexemesOf]
  | collapse => rw [lexemes_ofTokens_collapse, mem_firstOccurrences, mem_lexemesOf]

/-! ### Emptiness -/

theorem isEmpty_iff (inventory : Inventory) :
    inventory.isEmpty = true ↔ ∀ category, inventory.lexemes category = [] := by
  simp only [isEmpty, List.all_eq_true, lexemes, Array.isEmpty_iff, Array.toList_eq_nil_iff]
  exact ⟨fun all category => all category (Category.mem_all category),
    fun all category _ => all category⟩

/-- An inventory is empty when there are no tokens, whether or not repetitions are kept. -/
theorem isEmpty_ofTokens (duplicates : Duplicates) (tokens : List Token) :
    (ofTokens duplicates tokens).isEmpty = true ↔ tokens = [] := by
  simp only [isEmpty_iff, List.eq_nil_iff_forall_not_mem, mem_lexemes_ofTokens]
  exact ⟨fun none token => none token.category token.lexeme, fun none category lexeme => none _⟩

theorem isEmpty_ofSelector (duplicates : Duplicates) (selector : String) :
    (ofSelector duplicates selector).isEmpty = true ↔ scan selector = [] :=
  isEmpty_ofTokens duplicates (scan selector)

end Inventory

end SelectorLexemes
