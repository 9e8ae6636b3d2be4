/-
This file says what blanks around a text and between lines are worth, which is nothing. Trimming
takes away whatever blanks are put on either side of a text. A list of selectors falls apart at
every line break, and blanks only ever add lines that hold no selector or lie at the ends of
lines that do.

A text therefore lists selectors as soon as a line break stands somewhere between any two of
them. Line ends that begin with a carriage return, lines of blanks, indented lines and a last
line that is not ended are all of this kind, and they need no cases of their own.
-/

import SelectorLexemes.Proofs.Lines

namespace SelectorLexemes

namespace Text

/-! ### Trimming -/

/-- All characters are blanks. -/
def AllBlank (gap : List Char) : Prop :=
  ∀ mark ∈ gap, isBlank mark = true

instance (gap : List Char) : Decidable (AllBlank gap) :=
  decidable_of_iff (gap.all isBlank = true) List.all_eq_true

variable {front back : List Char}

theorem trimStart_append (blank : AllBlank front) (text : List Char) :
    trimStart (front ++ text) = trimStart text :=
  List.dropWhile_append_of_pos blank

theorem trimEnd_append (text : List Char) (blank : AllBlank back) :
    trimEnd (text ++ back) = trimEnd text := by
  have backwards : ∀ mark ∈ back.reverse, isBlank mark = true := fun mark member =>
    blank mark (List.mem_reverse.mp member)
  rw [trimEnd, List.reverse_append, List.dropWhile_append_of_pos backwards, trimEnd]

theorem trim_eq_nil (blank : AllBlank front) : trim front = [] := by
  rw [trim, trimStart, List.dropWhile_eq_nil_iff.mpr blank]
  rfl

theorem trim_eq_nil_iff (text : List Char) : trim text = [] ↔ AllBlank text := by
  refine ⟨fun empty => ?_, trim_eq_nil⟩
  rw [trim, trimEnd, List.reverse_eq_nil_iff, List.dropWhile_eq_nil_iff] at empty
  have behind : AllBlank (text.dropWhile isBlank) := fun mark member =>
    empty mark (List.mem_reverse.mpr member)
  rw [← List.takeWhile_append_dropWhile (p := isBlank) (l := text)]
  exact List.forall_mem_append.mpr ⟨fun mark member => List.mem_takeWhile_imp member, behind⟩

/-- Blanks on either side of a text are trimmed away. -/
theorem trim_padded (text : List Char) (blankFront : AllBlank front) (blankBack : AllBlank back) :
    trim (front ++ text ++ back) = trim text := by
  rw [List.append_assoc, trim, trimStart_append blankFront, trimStart, List.dropWhile_append]
  split
  · next empty =>
    have nothing : text.dropWhile isBlank = [] := List.isEmpty_iff.mp empty
    rw [← trimStart, ← trim, trim_eq_nil blankBack, trim, trimStart, nothing]
    rfl
  · rw [trimEnd_append _ blankBack]
    rfl

end Text

namespace SelectorList

open Text (AllBlank)

/-! ### Selectors between line breaks -/

/-- The selectors in a text, as texts themselves. -/
def inText (text : List Char) : List (List Char) :=
  ((Text.lines '\n' text).map Text.trim).filter (· ≠ [])

theorem ofText_eq (text : String) : ofText text = (inText text.toList).map String.ofList := rfl

theorem inText_cons_of_lines {text line rest : List Char}
    (cut : Text.lines '\n' text = line :: Text.lines '\n' rest) :
    inText text = (if Text.trim line = [] then [] else [Text.trim line]) ++ inText rest := by
  rw [inText, cut, List.map_cons, List.filter_cons]
  split
  · next solid => rw [if_neg (of_decide_eq_true solid)]; rfl
  · next blank => rw [if_pos (by simpa using blank)]; rfl

theorem inText_of_whole {line : List Char} (whole : '\n' ∉ line) :
    inText line = if Text.trim line = [] then [] else [Text.trim line] := by
  by_cases empty : line = []
  · subst empty
    rfl
  · have cut : Text.lines '\n' line = line :: Text.lines '\n' [] :=
      Text.lines_of_not_mem whole empty
    rw [inText_cons_of_lines cut]
    exact List.append_nil _

/-- The selectors of a text fall apart at every line break. -/
theorem inText_append_break (first second : List Char) :
    inText (first ++ '\n' :: second) = inText first ++ inText second := by
  induction first using Text.break_induction with
  | whole line free =>
    rw [inText_cons_of_lines (Text.lines_append_mark second free), inText_of_whole free]
  | broken line rest free inductionHypothesis =>
    rw [List.append_assoc, List.cons_append,
      inText_cons_of_lines (Text.lines_append_mark _ free), inductionHypothesis,
      inText_cons_of_lines (Text.lines_append_mark rest free), List.append_assoc]

theorem inText_cons_blank {mark : Char} (blank : Text.isBlank mark = true) (text : List Char) :
    inText (mark :: text) = inText text := by
  by_cases lineBreak : mark = '\n'
  · subst lineBreak
    exact inText_append_break [] text
  · have single : AllBlank [mark] := List.forall_mem_singleton.mpr blank
    rw [inText, inText, Text.lines, if_neg lineBreak]
    cases Text.lines '\n' text with
    | nil =>
      have nothing : Text.trim [mark] = [] := Text.trim_eq_nil single
      simp [nothing]
    | cons line rest =>
      have trimmed : Text.trim (mark :: line) = Text.trim line := by
        rw [Text.trim, ← List.singleton_append, Text.trimStart_append single, Text.trim]
      rw [List.map_cons, List.map_cons, trimmed]

theorem inText_append_of_allBlank {gap : List Char} (blank : AllBlank gap) (text : List Char) :
    inText (gap ++ text) = inText text := by
  induction gap with
  | nil => rfl
  | cons mark rest inductionHypothesis =>
    obtain ⟨first, others⟩ := List.forall_mem_cons.mp blank
    rw [List.cons_append, inText_cons_blank first, inductionHypothesis others]

theorem inText_eq_nil {gap : List Char} (blank : AllBlank gap) : inText gap = [] := by
  have padding := inText_append_of_allBlank blank []
  rwa [List.append_nil] at padding

/-- Blanks behind a line belong to it up to the first line break among them, and hold no
selector from there on. -/
theorem inText_append_blank {line gap : List Char} (whole : '\n' ∉ line) (blank : AllBlank gap) :
    inText (line ++ gap) = inText line := by
  have padded : ∀ back, AllBlank back → '\n' ∉ back → inText (line ++ back) = inText line := by
    intro back blankBack wholeBack
    have both : '\n' ∉ line ++ back := by
      rw [List.mem_append, not_or]
      exact ⟨whole, wholeBack⟩
    have nothing : AllBlank [] := List.forall_mem_nil _
    have trimmed := Text.trim_padded line nothing blankBack
    rw [List.nil_append] at trimmed
    rw [inText_of_whole both, inText_of_whole whole, trimmed]
  by_cases broken : '\n' ∈ gap
  · obtain ⟨back, rest, rfl, wholeBack⟩ := List.eq_append_cons_of_mem broken
    obtain ⟨blankBack, blankRest⟩ := List.forall_mem_append.mp blank
    rw [← List.append_assoc, inText_append_break, padded back blankBack wholeBack,
      inText_eq_nil (List.forall_mem_cons.mp blankRest).2, List.append_nil]
  · exact padded gap blank broken

theorem inText_append_gap (text : List Char) {gap : List Char} (blank : AllBlank gap) :
    inText (text ++ gap) = inText text := by
  induction text using Text.break_induction with
  | whole line free => exact inText_append_blank free blank
  | broken line rest free inductionHypothesis =>
    rw [List.append_assoc, List.cons_append, inText_append_break, inductionHypothesis,
      inText_append_break]

/-! ### Texts that list selectors -/

/-- The selector can be read from a line: it has no line break, it is not empty, and blanks are
at neither end of it. -/
structure IsEntry (selector : String) : Prop where
  nonempty : selector ≠ ""
  trimmed : Text.trimmed selector = selector
  whole : '\n' ∉ selector.toList

/-- The text lists the selectors. Blanks may stand in front of them, behind them and between
them, and a line break is among the blanks between any two. -/
inductive Lists : List String → List Char → Prop
  /-- A text of blanks lists nothing. -/
  | blank {gap : List Char} : AllBlank gap → Lists [] gap
  /-- The last line need not be ended. -/
  | last {selector : String} {front back : List Char} : AllBlank front → AllBlank back →
      Lists [selector] (front ++ selector.toList ++ back)
  /-- A line break ends the line of a selector. -/
  | line {selector : String} {others : List String} {front back rest : List Char} :
      AllBlank front → AllBlank back → Lists others rest →
      Lists (selector :: others) (front ++ selector.toList ++ back ++ '\n' :: rest)

theorem inText_entry {selector : String} (entry : IsEntry selector) {front back : List Char}
    (blankFront : AllBlank front) (blankBack : AllBlank back) :
    inText (front ++ selector.toList ++ back) = [selector.toList] := by
  have trimmed : Text.trim selector.toList = selector.toList := by
    rw [← Text.toList_trimmed, entry.trimmed]
  have solid : selector.toList ≠ [] := mt String.toList_eq_nil_iff.mp entry.nonempty
  rw [List.append_assoc, inText_append_of_allBlank blankFront,
    inText_append_gap _ blankBack, inText_of_whole entry.whole, trimmed,
    if_neg solid]

/-- The selectors that a text lists are read from it. -/
theorem ofText_of_lists {selectors : List String} {text : List Char}
    (lists : Lists selectors text) (entries : ∀ selector ∈ selectors, IsEntry selector) :
    ofText (String.ofList text) = selectors := by
  rw [ofText_eq, String.toList_ofList]
  induction lists with
  | blank blank => rw [inText_eq_nil blank, List.map_nil]
  | last blankFront blankBack =>
    rw [inText_entry (List.forall_mem_singleton.mp entries) blankFront blankBack,
      List.map_singleton, String.ofList_toList]
  | line blankFront blankBack _ inductionHypothesis =>
    obtain ⟨entry, others⟩ := List.forall_mem_cons.mp entries
    rw [inText_append_break, inText_entry entry blankFront blankBack, List.map_append,
      inductionHypothesis others, List.map_singleton, String.ofList_toList,
      List.singleton_append]

end SelectorList

end SelectorLexemes
