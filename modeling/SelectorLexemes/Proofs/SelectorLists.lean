/-
This file gives the laws of reading selectors from text. Texts on either side of a line break
are read apart. What is read from a line is trimmed, not empty and without a line break, so it
is read again when it is written on a line of its own: a list of selectors is a normal form of
the text that it came from.

Many texts have the same normal form. Blanks may be put in at the ends of a text and on either
side of its line breaks, all at once and as many as one likes, line breaks among them. A carriage
return in front of every line break is one way to do so.
-/

import SelectorLexemes.Proofs.Padding

namespace SelectorLexemes

namespace Text

/-! ### Trimmed texts -/

variable {text : List Char}

theorem trimStart_eq_self (unindented : text.head?.any isBlank = false) :
    trimStart text = text := by
  cases text with
  | nil => rfl
  | cons mark rest =>
    have solid : ¬isBlank mark = true := Bool.eq_false_iff.mp unindented
    rw [trimStart, List.dropWhile_cons_of_neg solid]

theorem trimEnd_eq_self (untrailed : text.getLast?.any isBlank = false) :
    trimEnd text = text := by
  have backwards : text.reverse.head?.any isBlank = false := by
    rwa [List.head?_reverse]
  have same := trimStart_eq_self backwards
  rw [trimStart] at same
  rw [trimEnd, same, List.reverse_reverse]

theorem trim_trim (text : List Char) : trim (trim text) = trim text := by
  show trimEnd (trimStart (trim text)) = trim text
  rw [trimStart_eq_self (head?_trim text), trimEnd_eq_self (getLast?_trim text)]

end Text

namespace SelectorList

open Text (AllBlank)

/-! ### What is read -/

theorem isEntry_of_mem_ofText {text selector : String} (member : selector ∈ ofText text) :
    IsEntry selector := by
  have onLine := onLine_of_mem_ofText member
  obtain ⟨line, kept, rfl⟩ := List.mem_map.mp member
  obtain ⟨read, solid⟩ := List.mem_filter.mp kept
  obtain ⟨original, _, rfl⟩ := List.mem_map.mp read
  constructor
  · exact mt String.ofList_eq_empty_iff.mp (of_decide_eq_true solid)
  · rw [Text.trimmed, String.toList_ofList, Text.trim_trim]
  · exact onLine.whole

theorem lists_intercalate (selectors : List String) :
    Lists selectors ("\n".intercalate selectors).toList := by
  have nothing : AllBlank [] := List.forall_mem_nil _
  induction selectors with
  | nil => exact .blank nothing
  | cons selector rest inductionHypothesis =>
    cases rest with
    | nil =>
      have alone : ("\n".intercalate [selector]).toList = [] ++ selector.toList ++ [] := by simp
      rw [alone]
      exact .last nothing nothing
    | cons next others =>
      have broken : ("\n".intercalate (selector :: next :: others)).toList =
          [] ++ selector.toList ++ [] ++ '\n' :: ("\n".intercalate (next :: others)).toList := by
        rw [String.intercalate_cons_cons]
        simp
      rw [broken]
      exact .line nothing nothing inductionHypothesis

/-- Selectors that are written one on each line are read again. -/
theorem ofText_intercalate {selectors : List String}
    (entries : ∀ selector ∈ selectors, IsEntry selector) :
    ofText ("\n".intercalate selectors) = selectors := by
  have read := ofText_of_lists (lists_intercalate selectors) entries
  rwa [String.ofList_toList] at read

/-! ### Wider texts -/

/-- The second text is the first with blanks put in at the ends and beside line breaks. -/
inductive Widened : List Char → List Char → Prop
  /-- Blanks are put in at the start of the text and at its end. -/
  | ends {front text back : List Char} : AllBlank front → AllBlank back →
      Widened text (front ++ text ++ back)
  /-- Blanks are put in at the ends of the texts on either side of a line break, and so directly
  before the line break and directly behind it. -/
  | beside {first wideFirst second wideSecond : List Char} :
      Widened first wideFirst → Widened second wideSecond →
      Widened (first ++ '\n' :: second) (wideFirst ++ '\n' :: wideSecond)

/-- A widened text has the same selectors. -/
theorem inText_widened {text wide : List Char} (widened : Widened text wide) :
    inText wide = inText text := by
  induction widened with
  | ends blankFront blankBack =>
    rw [inText_append_gap _ blankBack, inText_append_of_allBlank blankFront]
  | beside _ _ first second => rw [inText_append_break, inText_append_break, first, second]

/-- The text with every line break replaced by a carriage return and a line break. -/
def withReturns (text : List Char) : List Char :=
  text.flatMap fun mark => if mark = '\n' then ['\r', '\n'] else [mark]

theorem withReturns_of_whole {line : List Char} (whole : '\n' ∉ line) :
    withReturns line = line := by
  have kept : ∀ mark ∈ line, (if mark = '\n' then ['\r', '\n'] else [mark]) = [mark] := by
    intro mark member
    refine if_neg ?_
    rintro rfl
    exact whole member
  rw [withReturns, List.flatMap_congr kept, List.flatMap_singleton']

theorem widened_withReturns (text : List Char) : Widened text (withReturns text) := by
  have nothing : AllBlank [] := List.forall_mem_nil _
  induction text using Text.break_induction with
  | whole line free =>
    have same : withReturns line = [] ++ line ++ [] := by
      rw [withReturns_of_whole free, List.nil_append, List.append_nil]
    rw [same]
    exact .ends nothing nothing
  | broken line rest free inductionHypothesis =>
    have returned : Widened line ([] ++ line ++ ['\r']) := .ends nothing (by decide)
    have written : withReturns (line ++ '\n' :: rest) =
        ([] ++ line ++ ['\r']) ++ '\n' :: withReturns rest := by
      rw [withReturns, List.flatMap_append, ← withReturns, withReturns_of_whole free]
      simp [withReturns]
    rw [written]
    exact .beside returned inductionHypothesis

/-- Selectors are read on either side of a line break apart. What is read is trimmed, not empty
and without a line break, and it is read again when it is written one on each line. Carriage
returns in front of the line breaks change nothing, and neither do blanks at the ends of the text
and on either side of its line breaks. -/
theorem ofText_normalizes :
    (∀ first second : String, ofText (first ++ "\n" ++ second) = ofText first ++ ofText second) ∧
    ∀ text : String,
      (∀ selector ∈ ofText text,
        selector ≠ "" ∧ Text.trimmed selector = selector ∧ '\n' ∉ selector.toList) ∧
      ofText ("\n".intercalate (ofText text)) = ofText text ∧
      ofText (String.ofList (withReturns text.toList)) = ofText text ∧
      ∀ wide : String, Widened text.toList wide.toList → ofText wide = ofText text := by
  have widening : ∀ text wide : String, Widened text.toList wide.toList →
      ofText wide = ofText text := by
    intro text wide widened
    rw [ofText_eq, ofText_eq, inText_widened widened]
  refine ⟨fun first second => ?_, fun text => ⟨fun selector member => ?_, ?_, ?_, widening text⟩⟩
  · have broken : (first ++ "\n" ++ second).toList = first.toList ++ '\n' :: second.toList := by
      simp
    rw [ofText_eq, broken, inText_append_break, List.map_append, ← ofText_eq, ← ofText_eq]
  · obtain ⟨nonempty, trimmed, whole⟩ := isEntry_of_mem_ofText member
    exact ⟨nonempty, trimmed, whole⟩
  · exact ofText_intercalate fun selector => isEntry_of_mem_ofText
  · refine widening text _ ?_
    rw [String.toList_ofList]
    exact widened_withReturns text.toList

/-- Blanks of several kinds, and a blank line among them, stand around two selectors. -/
theorem ofText_normalizes_blankLine :
    "b" ∈ ofText "a\n b" ∧ Text.trimmed "b" = "b" ∧
      Widened "a\n b".toList "\u2003a\t\r\n\n\u00a0 b\u3000".toList ∧
      ofText "\u2003a\t\r\n\n\u00a0 b\u3000" = ["a", "b"] := by
  have read : ofText "a\n b" = ["a", "b"] := rfl
  have member : "b" ∈ ofText "a\n b" := by
    rw [read]
    decide
  have front : Widened ['a'] (['\u2003'] ++ ['a'] ++ "\t\r".toList) :=
    .ends (by decide) (by decide)
  have back : Widened " b".toList ("\n\u00a0".toList ++ " b".toList ++ ['\u3000']) :=
    .ends (by decide) (by decide)
  have widened : Widened "a\n b".toList "\u2003a\t\r\n\n\u00a0 b\u3000".toList :=
    .beside front back
  obtain ⟨_, normal⟩ := ofText_normalizes
  obtain ⟨entries, _, _, widening⟩ := normal "a\n b"
  exact ⟨member, (entries "b" member).2.1, widened, (widening _ widened).trans read⟩

end SelectorList

end SelectorLexemes
