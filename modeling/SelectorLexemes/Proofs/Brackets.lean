/-
This file proves that brackets are opaque up to the first closing one. Brackets begin a segment
behind every selector in which nothing is left open, whatever it ends with, because no name goes
on with a bracket and a bracket is neither a second colon nor a parenthesis. They end at the
first closing bracket or with the selector, and so they stand for the same tokens in every
place: the pair of what is in front of the first equals sign and what is behind it, or nothing.

Writing the same text on both sides of an equals sign is the same as writing it once, and blanks
around either side do not matter.
-/

import SelectorLexemes.Proofs.Arguments
import SelectorLexemes.Proofs.Padding

namespace SelectorLexemes

/-! ### What brackets stand for -/

/-- What brackets with this content stand for. -/
def bracketTokens (content : String) : List Token :=
  (Segment.attributeToken? content.toList).toList

/-- The pair of a key and a value, both trimmed, or nothing if one of them is blank. -/
def pairTokens (key value : String) : List Token :=
  if Text.trimmed key = "" ∨ Text.trimmed value = "" then
    []
  else
    [⟨.attributes, .attribute ⟨Text.trimmed key, Text.trimmed value⟩⟩]

theorem bracketTokens_of_hasSides {content key value : String}
    (sides : HasSides content.toList key.toList value.toList) :
    bracketTokens content = pairTokens key value := by
  rw [bracketTokens, Segment.attributeToken?_of_hasSides _ _ _ sides, Token.attribute?,
    String.ofList_toList, String.ofList_toList, Attribute.ofSides?, pairTokens]
  split <;> rfl

theorem bracketTokens_split {key : String} (unsplit : '=' ∉ key.toList) (value : String) :
    bracketTokens (key ++ "=" ++ value) = pairTokens key value := by
  refine bracketTokens_of_hasSides ⟨unsplit, Or.inl ?_⟩
  rw [String.toList_append, String.toList_append, List.append_assoc]
  rfl

theorem bracketTokens_whole {content : String} (unsplit : '=' ∉ content.toList) :
    bracketTokens content = pairTokens content content :=
  bracketTokens_of_hasSides ⟨unsplit, Or.inr ⟨rfl, rfl⟩⟩

/-! ### Padding -/

theorem Text.trimmed_padded {front back : String} (text : String)
    (blankFront : AllBlank front.toList) (blankBack : AllBlank back.toList) :
    trimmed (front ++ text ++ back) = trimmed text := by
  rw [← String.toList_inj, toList_trimmed, toList_trimmed, String.toList_append,
    String.toList_append, trim_padded _ blankFront blankBack]

theorem Text.equals_not_mem_of_allBlank {gap : List Char} (blank : AllBlank gap) : '=' ∉ gap :=
  fun member => absurd (blank '=' member) (by decide)

theorem equals_not_mem_padded {front key back : String} (blankFront : Text.AllBlank front.toList)
    (unsplit : '=' ∉ key.toList) (blankBack : Text.AllBlank back.toList) :
    '=' ∉ (front ++ key ++ back).toList := by
  rw [String.toList_append, String.toList_append, List.mem_append, List.mem_append]
  rintro ((inFront | inKey) | inBack)
  · exact Text.equals_not_mem_of_allBlank blankFront inFront
  · exact unsplit inKey
  · exact Text.equals_not_mem_of_allBlank blankBack inBack

/-! ### Brackets in a selector -/

/-- Nothing is left open at the end of the selector, neither brackets nor an argument. -/
def EndsComplete (selector : String) : Prop :=
  ∀ segment ∈ Segment.ofSelector selector, ¬segment.CutShort

theorem EndsComplete.of_isCutOf {selector : String} {segments : List Segment}
    (cut : Segment.IsCutOf segments selector.toList)
    (complete : ∀ segment ∈ segments, ¬segment.CutShort) : EndsComplete selector := by
  rwa [EndsComplete, ← (Segment.isCutOf_iff _ _).mp cut]

variable {before content : String}

/-- An opening bracket parts whatever stands in front of it from what follows. -/
theorem EndsComplete.allFitBefore_bracket (complete : EndsComplete before) :
    Segment.AllFitBefore (some '[') (Segment.ofSelector before) := by
  refine Segment.allFitBefore_ofSelector before _ complete (Or.inr fun mark next => ?_)
  obtain rfl : '[' = mark := Option.some.inj next
  exact ⟨by decide, fun _ => by decide, fun _ _ _ => by decide⟩

theorem EndsComplete.scan_closed (complete : EndsComplete before)
    (unclosed : ']' ∉ content.toList) (rest : String) :
    scan (before ++ "[" ++ content ++ "]" ++ rest) =
      scan before ++ bracketTokens content ++ scan rest := by
  have covers : (Segment.attribute content.toList true).text = ("[" ++ content ++ "]").toList := by
    rw [String.toList_append, String.toList_append]
    rfl
  have opens : ("[" ++ content ++ "]").toList.head? = some '[' := by
    rw [← covers]
    rfl
  have scanned := scan_append_segment _ rest covers (opens ▸ complete.allFitBefore_bracket)
    ⟨unclosed, Or.inl rfl⟩
  rw [← String.append_assoc, ← String.append_assoc] at scanned
  exact scanned

theorem EndsComplete.scan_unclosed (complete : EndsComplete before)
    (unclosed : ']' ∉ content.toList) :
    scan (before ++ "[" ++ content) = scan before ++ bracketTokens content := by
  have covers : (Segment.attribute content.toList false).text = ("[" ++ content).toList := by
    rw [String.toList_append, Segment.text, if_neg Bool.false_ne_true, List.append_nil]
    rfl
  have opens : ("[" ++ content).toList.head? = some '[' := by
    rw [← covers]
    rfl
  have scanned := scan_append_segment _ "" covers (opens ▸ complete.allFitBefore_bracket)
    ⟨unclosed, Or.inr rfl⟩
  rw [scan_empty, List.append_nil, String.append_empty, ← String.append_assoc] at scanned
  exact scanned

/-- Brackets stand for the same tokens wherever they are written and whatever else is in them,
up to the first closing bracket or the end of the selector. Their content is split at its first
equals sign and is both sides if it has none, so a text without one may as well be written on
both sides; and blanks around the sides change nothing. -/
theorem scan_brackets_opaque :
    (∀ before content rest : String, EndsComplete before → ']' ∉ content.toList →
      scan (before ++ "[" ++ content ++ "]" ++ rest) =
          scan before ++ bracketTokens content ++ scan rest ∧
        scan (before ++ "[" ++ content) = scan before ++ bracketTokens content) ∧
    (∀ key value : String, '=' ∉ key.toList →
      bracketTokens (key ++ "=" ++ value) = pairTokens key value ∧
        bracketTokens key = pairTokens key key) ∧
    (∀ before content rest : String, EndsComplete before → '=' ∉ content.toList →
      ']' ∉ content.toList →
        scan (before ++ "[" ++ (content ++ "=" ++ content) ++ "]" ++ rest) =
            scan (before ++ "[" ++ content ++ "]" ++ rest) ∧
          scan (before ++ "[" ++ (content ++ "=" ++ content)) =
            scan (before ++ "[" ++ content)) ∧
    ∀ front key back first value last : String, '=' ∉ key.toList →
      (∀ gap ∈ [front, back, first, last], Text.AllBlank gap.toList) →
        bracketTokens (front ++ key ++ back ++ "=" ++ (first ++ value ++ last)) =
            bracketTokens (key ++ "=" ++ value) ∧
          bracketTokens (front ++ key ++ back) = bracketTokens key := by
  refine ⟨?_, ?_, ?_, ?_⟩
  · intro before content rest complete unclosed
    exact ⟨complete.scan_closed unclosed rest, complete.scan_unclosed unclosed⟩
  · intro key value unsplit
    exact ⟨bracketTokens_split unsplit value, bracketTokens_whole unsplit⟩
  · intro before content rest complete unsplit unclosed
    have twice : ']' ∉ (content ++ "=" ++ content).toList := by
      simp [unclosed]
    have same : bracketTokens (content ++ "=" ++ content) = bracketTokens content :=
      (bracketTokens_split unsplit content).trans (bracketTokens_whole unsplit).symm
    rw [complete.scan_closed twice, complete.scan_closed unclosed, complete.scan_unclosed twice,
      complete.scan_unclosed unclosed, same]
    exact ⟨rfl, rfl⟩
  · intro front key back first value last unsplit blanks
    simp only [List.forall_mem_cons] at blanks
    obtain ⟨blankFront, blankBack, blankFirst, blankLast, _⟩ := blanks
    have padded := equals_not_mem_padded blankFront unsplit blankBack
    rw [bracketTokens_split padded, bracketTokens_split unsplit, bracketTokens_whole padded,
      bracketTokens_whole unsplit, pairTokens, pairTokens, pairTokens, pairTokens,
      Text.trimmed_padded key blankFront blankBack, Text.trimmed_padded value blankFirst blankLast]
    exact ⟨rfl, rfl⟩

/-- Brackets behind a colon and a name that takes an argument, with every mark of the grammar in
them and with a blank that is not in ASCII around the key. -/
theorem scan_brackets_opaque_marks :
    EndsComplete ".a:nth" ∧
      scan (".a:nth" ++ "[" ++ "\u00A0k\u2003=.b#c::d[(=\"" ++ "]" ++ "e") =
        scan ".a:nth" ++ [⟨.attributes, .attribute ⟨"k", ".b#c::d[(=\""⟩⟩] ++ scan "e" := by
  have cut : Segment.IsCutOf [.classSelector ['a'], .pseudoClass ['n', 't', 'h'] []]
      ".a:nth".toList := by decide
  have complete : EndsComplete ".a:nth" := .of_isCutOf cut (by decide)
  obtain ⟨closed, sides, _, padding⟩ := scan_brackets_opaque
  have content : bracketTokens "\u00A0k\u2003=.b#c::d[(=\"" =
      [⟨.attributes, .attribute ⟨"k", ".b#c::d[(=\""⟩⟩] := by
    have padded := (padding "\u00A0" "k" "\u2003" "" ".b#c::d[(=\"" "" (by decide) (by decide)).1
    rw [(sides "k" ".b#c::d[(=\"" (by decide)).1] at padded
    exact padded
  refine ⟨complete, ?_⟩
  rw [(closed ".a:nth" "\u00A0k\u2003=.b#c::d[(=\"" "e" complete (by decide)).1, content]

end SelectorLexemes
