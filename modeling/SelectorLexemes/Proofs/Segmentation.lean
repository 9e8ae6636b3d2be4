/-
This file proves that scanning a selector is cutting it by the grammar. In front of a
segment of the grammar the reader reads exactly that segment, whatever lies behind the
cursor. Since every text that is not empty begins with such a segment, a selector has
one cut and no other, and the tokens of the scan are what the segments of the cut stand
for, in order.

The cut is also what later proofs work with: instead of following the cursor they say how
the selector is cut and read the tokens off.
-/

import Mathlib.Data.List.Forall2
import SelectorLexemes.Proofs.Tokens
import SelectorLexemes.Scan

namespace SelectorLexemes

namespace Cursor

/-! ### Reading a segment of the grammar -/

theorem takeWhile_run (behind run rest : List Char) (test : Char → Bool)
    (all : ∀ mark ∈ run, test mark = true)
    (stops : ∀ mark, rest.head? = some mark → test mark = false) :
    (⟨behind, run ++ rest⟩ : Cursor).takeWhile test = (run, ⟨run.reverse ++ behind, rest⟩) := by
  have split : rest.takeWhile test = [] ∧ rest.dropWhile test = rest := by
    cases rest with
    | nil => exact ⟨rfl, rfl⟩
    | cons mark more =>
      have stop : ¬test mark = true := Bool.eq_false_iff.mp (stops mark rfl)
      exact ⟨List.takeWhile_cons_of_neg stop, List.dropWhile_cons_of_neg stop⟩
  rw [takeWhile, pass, List.takeWhile_append_of_pos all, List.dropWhile_append_of_pos all,
    split.1, split.2, List.append_nil]

theorem readName_name (behind name rest : List Char) (isName : IsName name)
    (ends : EndsName rest.head?) :
    (⟨behind, name ++ rest⟩ : Cursor).readName = (name, ⟨name.reverse ++ behind, rest⟩) :=
  takeWhile_run behind name rest isNameChar isName ends

theorem readArgument_argument (behind argument rest : List Char)
    (isArgument : Text.IsArgument argument rest.head?) :
    (⟨behind, argument ++ rest⟩ : Cursor).readArgument =
      (argument, ⟨argument.reverse ++ behind, rest⟩) := by
  rw [readArgument, Text.splitBalanced_of_isArgument argument rest isArgument, pass]

theorem readPseudoClass_fits (behind name argument rest : List Char) (isName : IsName name)
    (ends : EndsName (argument.head?.or rest.head?))
    (fits : Segment.FitsArgument name argument rest.head?) :
    (⟨behind, name ++ (argument ++ rest)⟩ : Cursor).readPseudoClass =
      (.pseudoClass name argument, ⟨argument.reverse ++ (name.reverse ++ behind), rest⟩) := by
  rw [← List.head?_append] at ends
  rw [Segment.FitsArgument, ← List.head?_append] at fits
  simp only [readPseudoClass, readName_name behind name (argument ++ rest) isName ends, peek?]
  split
  · next takes =>
    rw [if_pos takes.symm] at fits
    rw [readArgument_argument _ argument rest fits]
  · next takes =>
    rw [if_neg (takes ∘ And.symm)] at fits
    rw [fits]
    rfl

theorem readPseudo_of_head?_ne (behind ahead : List Char) (other : ahead.head? ≠ some ':') :
    (⟨behind, ahead⟩ : Cursor).readPseudo = (⟨behind, ahead⟩ : Cursor).readPseudoClass := by
  unfold readPseudo
  split
  · next afterColon step =>
    have colon : ahead = ':' :: afterColon.ahead := ahead_of_next? step
    rw [colon] at other
    exact absurd rfl other
  · rfl

theorem readAttribute_fits (behind content rest : List Char) (closed : Bool)
    (free : ']' ∉ content) (ends : closed = true ∨ rest.head? = none) :
    (⟨behind, content ++ ((if closed then [']'] else []) ++ rest)⟩ : Cursor).readAttribute =
      (.attribute content closed,
        ⟨(if closed then [']'] else []).reverse ++ (content.reverse ++ behind), rest⟩) := by
  have all := forall_bne_of_not_mem free
  unfold readAttribute
  cases closed with
  | true =>
    rw [takeWhile_run behind content _ _ all fun mark next => by simpa using next.symm]
    rfl
  | false =>
    obtain rfl : rest = [] := List.head?_eq_none_iff.mp (ends.resolve_left Bool.false_ne_true)
    rw [takeWhile_run behind content _ _ all fun mark next => by simp at next]
    rfl

/-- In front of a segment of the grammar the reader reads this segment. -/
theorem readSegment?_of_fitsBefore (behind rest : List Char) (segment : Segment)
    (fits : segment.FitsBefore rest.head?) :
    (⟨behind, segment.text ++ rest⟩ : Cursor).readSegment? =
      some (segment, ⟨segment.text.reverse ++ behind, rest⟩) := by
  match segment, fits with
  | .separator mark, fits =>
    obtain ⟨notName, dot, hash, colon, bracket⟩ := (isSeparator_iff mark).mp fits
    simp [readSegment?, next?, Segment.text, readAfter, dot, hash, colon, bracket, notName]
  | .element name, ⟨nonempty, isName, ends⟩ =>
    obtain ⟨mark, more, rfl⟩ := List.exists_cons_of_ne_nil nonempty
    have named := isName mark List.mem_cons_self
    have read := readName_name behind (mark :: more) rest isName ends
    have back : (⟨mark :: behind, more ++ rest⟩ : Cursor).back =
        ⟨behind, mark :: more ++ rest⟩ := rfl
    simp only [readSegment?, next?, Segment.text, List.cons_append, Option.map_some, readAfter,
      if_neg (ne_of_isNameChar named (by decide : isNameChar '.' = false)),
      if_neg (ne_of_isNameChar named (by decide : isNameChar '#' = false)),
      if_neg (ne_of_isNameChar named (by decide : isNameChar ':' = false)),
      if_neg (ne_of_isNameChar named (by decide : isNameChar '[' = false)), if_pos named]
    rw [back, read]
  | .classSelector name, ⟨isName, ends⟩ =>
    have read := readName_name ('.' :: behind) name rest isName ends
    simp [readSegment?, next?, Segment.text, readAfter, read]
  | .idSelector name, ⟨isName, ends⟩ =>
    have read := readName_name ('#' :: behind) name rest isName ends
    simp [readSegment?, next?, Segment.text, readAfter, read]
  | .pseudoElement name, ⟨isName, ends⟩ =>
    have read := readName_name (':' :: ':' :: behind) name rest isName ends
    simp [readSegment?, next?, Segment.text, readAfter, readPseudo, read]
  | .pseudoClass name argument, ⟨isName, ends, first, fits⟩ =>
    have read := readPseudoClass_fits (':' :: behind) name argument rest isName ends fits
    rw [← List.head?_append, ← List.head?_append] at first
    have pseudo := readPseudo_of_head?_ne (':' :: behind) (name ++ (argument ++ rest)) first
    simp [readSegment?, next?, Segment.text, readAfter, pseudo, read]
  | .attribute content closed, ⟨free, ends⟩ =>
    have read := readAttribute_fits ('[' :: behind) content rest closed free ends
    simp [readSegment?, next?, Segment.text, readAfter, read]

/-- In front of a text the reader reads a segment of the grammar. -/
theorem fitsBefore_of_readSegment? {cursor after : Cursor} {segment : Segment}
    (read : cursor.readSegment? = some (segment, after)) :
    cursor.ahead = segment.text ++ after.ahead ∧ segment.FitsBefore after.ahead.head? := by
  obtain ⟨behind, _ | ⟨mark, more⟩⟩ := cursor
  · cases read
  · obtain ⟨first, rest, parts, fits⟩ := Segment.exists_fitsBefore mark more
    rw [parts, readSegment?_of_fitsBefore behind rest first fits] at read
    cases read
    exact ⟨parts, fits⟩

theorem readSegment?_eq_none_iff (cursor : Cursor) :
    cursor.readSegment? = none ↔ cursor.ahead = [] := by
  obtain ⟨behind, _ | ⟨mark, ahead⟩⟩ := cursor <;> simp [readSegment?, next?]

/-! ### The segments ahead of a cursor -/

/-- The segments that the reader reads from the cursor to the end of the selector. -/
def segments (cursor : Cursor) : List Segment :=
  match _read : cursor.readSegment? with
  | none => []
  | some (segment, after) => segment :: after.segments
termination_by cursor.ahead.length
decreasing_by exact ahead_length_lt_of_readSegment? _read

theorem segments_of_none {cursor : Cursor} (read : cursor.readSegment? = none) :
    cursor.segments = [] := by
  rw [segments]
  split
  · rfl
  · next some => rw [read] at some; cases some

theorem segments_of_some {cursor after : Cursor} {segment : Segment}
    (read : cursor.readSegment? = some (segment, after)) :
    cursor.segments = segment :: after.segments := by
  rw [segments]
  split
  · next none => rw [read] at none; cases none
  · next some => rw [read] at some; cases some; rfl

/-- Segments that fit one after another are read as they are. -/
theorem segments_of_allFitBefore (behind : List Char) (segments : List Segment)
    (fits : Segment.AllFitBefore none segments) :
    (⟨behind, segments.flatMap Segment.text⟩ : Cursor).segments = segments := by
  induction segments generalizing behind with
  | nil => exact segments_of_none ((readSegment?_eq_none_iff _).mpr rfl)
  | cons segment rest inductionHypothesis =>
    obtain ⟨fitsFirst, fitsRest⟩ := fits
    rw [Option.or_none] at fitsFirst
    rw [List.flatMap_cons, segments_of_some (readSegment?_of_fitsBefore _ _ _ fitsFirst),
      inductionHypothesis _ fitsRest]

end Cursor

theorem Segment.filterMap_token?_cons (segment : Segment) (rest : List Segment) :
    (segment :: rest).filterMap token? = segment.token?.toList ++ rest.filterMap token? := by
  rw [List.filterMap_eq_flatMap_toList, List.flatMap_cons, ← List.filterMap_eq_flatMap_toList]

namespace Scan

/-- Running a scan adds the tokens of the segments ahead of its cursor. -/
theorem tokens_run (scan : Scan) :
    scan.run.tokens = scan.tokens ++ scan.cursor.segments.filterMap Segment.token? := by
  fun_induction run scan with
  | case1 scan read =>
    rw [Cursor.segments_of_none read, List.filterMap_nil, List.append_nil]
  | case2 scan segment after read inductionHypothesis =>
    rw [inductionHypothesis, tokens_record, cursor_record, Cursor.segments_of_some read,
      Segment.filterMap_token?_cons, List.append_assoc]

end Scan

namespace Segment

/-- The segments of a selector, in order. -/
def ofSelector (selector : String) : List Segment :=
  (Cursor.start selector.toList).segments

/-- Every text can be cut by the grammar. -/
theorem exists_isCutOf (text : List Char) : ∃ segments, IsCutOf segments text := by
  cases text with
  | nil => exact ⟨[], rfl, trivial⟩
  | cons mark more =>
    obtain ⟨segment, rest, parts, fits⟩ := exists_fitsBefore mark more
    have shorter : rest.length < (mark :: more).length := by
      have positive := List.length_pos_iff.mpr (text_ne_nil fits)
      rw [parts, List.length_append]
      omega
    obtain ⟨segments, cut⟩ := exists_isCutOf rest
    exact ⟨segment :: segments, parts ▸ cut.cons fits⟩
termination_by text.length
decreasing_by exact shorter

/-- The segments that are read cut the selector, and nothing else does. -/
theorem isCutOf_iff (segments : List Segment) (selector : String) :
    IsCutOf segments selector.toList ↔ segments = ofSelector selector := by
  have unique : ∀ other, IsCutOf other selector.toList → ofSelector selector = other := by
    intro other cut
    rw [ofSelector, Cursor.start, ← cut.covers]
    exact Cursor.segments_of_allFitBefore [] other cut.fits
  constructor
  · exact fun cut => (unique segments cut).symm
  · rintro rfl
    obtain ⟨other, cut⟩ := exists_isCutOf selector.toList
    rwa [unique other cut]

theorem isCutOf_ofSelector (selector : String) :
    IsCutOf (ofSelector selector) selector.toList :=
  (isCutOf_iff _ selector).mpr rfl

end Segment

/-- The tokens of a selector are those of its segments. -/
theorem scan_eq_filterMap (selector : String) :
    scan selector = (Segment.ofSelector selector).filterMap Segment.token? := by
  rw [scan, Scan.tokens_run]
  rfl

/-- To scan a selector it is enough to know a cut of it. -/
theorem scan_of_isCutOf (segments : List Segment) (selector : String)
    (cut : Segment.IsCutOf segments selector.toList) :
    scan selector = segments.filterMap Segment.token? := by
  rw [scan_eq_filterMap, (Segment.isCutOf_iff segments selector).mp cut]

/-- Scanning goes on behind a segment as if the selector began there. -/
theorem scan_of_fitsBefore {selector : String} {segment : Segment} {rest : List Char}
    (split : selector.toList = segment.text ++ rest) (fits : segment.FitsBefore rest.head?) :
    scan selector = segment.token?.toList ++ scan (String.ofList rest) := by
  have behind := Segment.isCutOf_ofSelector (String.ofList rest)
  rw [String.toList_ofList] at behind
  have cut : Segment.IsCutOf (segment :: Segment.ofSelector (String.ofList rest))
      selector.toList := split ▸ behind.cons fits
  rw [scan_of_isCutOf _ _ cut, Segment.filterMap_token?_cons, ← scan_eq_filterMap]

/-! ### Scanning is cutting -/

theorem Segment.fitsBefore_of_mem {segments : List Segment} {next : Option Char}
    (fits : AllFitBefore next segments) {segment : Segment} (member : segment ∈ segments) :
    ∃ follower, segment.FitsBefore follower := by
  induction segments with
  | nil => cases member
  | cons first rest inductionHypothesis =>
    rcases List.mem_cons.mp member with rfl | later
    · exact ⟨_, fits.1⟩
    · exact inductionHypothesis fits.2 later

/-- The tokens that segments stand for are the tokens they give. -/
theorem Segment.forall₂_gives_iff {segments : List Segment} {next : Option Char}
    (fits : AllFitBefore next segments) (images : List (List Token)) :
    List.Forall₂ Gives segments images ↔
      images = segments.map fun segment => segment.token?.toList := by
  induction segments generalizing images with
  | nil => exact List.forall₂_nil_left_iff
  | cons segment rest inductionHypothesis =>
    cases images with
    | nil => simp [List.forall₂_nil_right_iff]
    | cons image images =>
      rw [List.forall₂_cons, gives_iff fits.1, inductionHypothesis fits.2, List.map_cons,
        List.cons.injEq]

/-- There is one and only one way to cut a selector into segments of the grammar, none of
which is empty, and scanning gives what these segments stand for, in order. -/
theorem scan_eq_iff_only_cut (selector : String) :
    ∃ segments,
      (∀ others, Segment.IsCutOf others selector.toList ↔ others = segments) ∧
      (∀ segment ∈ segments, segment.text ≠ []) ∧
      ∀ tokens, scan selector = tokens ↔
        ∃ images, List.Forall₂ Segment.Gives segments images ∧ tokens = images.flatten := by
  have cut := Segment.isCutOf_ofSelector selector
  refine ⟨Segment.ofSelector selector, fun others => Segment.isCutOf_iff others selector,
    fun segment member => ?_, fun tokens => ?_⟩
  · obtain ⟨follower, fits⟩ := Segment.fitsBefore_of_mem cut.fits member
    exact Segment.text_ne_nil fits
  · have images : scan selector =
        ((Segment.ofSelector selector).map fun segment => segment.token?.toList).flatten := by
      rw [scan_eq_filterMap, ← List.flatMap_def, List.filterMap_eq_flatMap_toList]
    constructor
    · rintro rfl
      exact ⟨_, (Segment.forall₂_gives_iff cut.fits _).mpr rfl, images⟩
    · rintro ⟨others, gives, rfl⟩
      rw [(Segment.forall₂_gives_iff cut.fits others).mp gives, images]

end SelectorLexemes
