/-
This file splits the output of several selectors back into one JSON document for each of them.
In the indented layout every line break of an object lies inside of it, and a line that lies
inside begins with a space; only the last line does not, and it is a brace alone. Keys and values
cannot add lines, because a line break in a string is written as an escape. So a line with nothing
but a closing brace is the end of a document, whatever the lexemes are and whichever categories
are shown, and there is one such line for each selector.
-/

import SelectorLexemes.Proofs.Documents
import SelectorLexemes.Proofs.Listings

namespace SelectorLexemes

/-! ### Cutting behind marks -/

namespace Text

variable {Element : Type} [DecidableEq Element] {mark : Element}

/-- The parts of a sequence, of which each ends with a mark. What follows the last mark is a part
of its own unless it is empty. -/
def cutBehind (mark : Element) : List Element → List (List Element)
  | [] => []
  | element :: rest =>
    if element = mark then
      [element] :: cutBehind mark rest
    else
      match cutBehind mark rest with
      | [] => [[element]]
      | part :: parts => (element :: part) :: parts

theorem cutBehind_append_mark {front : List Element} (rest : List Element) (free : mark ∉ front) :
    cutBehind mark (front ++ mark :: rest) = (front ++ [mark]) :: cutBehind mark rest := by
  induction front with
  | nil => rw [List.nil_append, cutBehind, if_pos rfl, List.nil_append]
  | cons element more inductionHypothesis =>
    obtain ⟨different, others⟩ := List.ne_and_not_mem_of_not_mem_cons free
    rw [List.cons_append, cutBehind, if_neg different.symm, inductionHypothesis others]
    rfl

/-- The part ends with the mark and does not hold it before. -/
def EndsWith (mark : Element) (part : List Element) : Prop :=
  ∃ front, part = front ++ [mark] ∧ mark ∉ front

variable {parts : List (List Element)}

theorem cutBehind_flatten (ends : ∀ part ∈ parts, EndsWith mark part) :
    cutBehind mark parts.flatten = parts := by
  induction parts with
  | nil => rfl
  | cons part rest inductionHypothesis =>
    obtain ⟨⟨front, rfl, free⟩, others⟩ := List.forall_mem_cons.mp ends
    rw [List.flatten_cons, List.append_assoc, List.singleton_append,
      cutBehind_append_mark _ free, inductionHypothesis others]

theorem count_flatten (ends : ∀ part ∈ parts, EndsWith mark part) :
    parts.flatten.count mark = parts.length := by
  induction parts with
  | nil => rfl
  | cons part rest inductionHypothesis =>
    obtain ⟨⟨front, rfl, free⟩, others⟩ := List.forall_mem_cons.mp ends
    rw [List.flatten_cons, List.count_append, inductionHypothesis others, List.count_append,
      List.count_eq_zero.mpr free, List.count_singleton_self, List.length_cons]
    omega

end Text

/-- The line that holds a closing brace and nothing else. -/
def closingLine : String := "\x7d"

open Listing (linesOf linesOf_join)

namespace Json

/-! ### The lines inside a document -/

/-- The piece lies inside a document: it does not break the line for the outermost level. -/
structure Piece.IsInner (piece : Piece) : Prop where
  proper : piece.IsProper
  indented : piece ≠ .lineBreak 0

mutual

theorem le_of_lineBreak_mem_pieces (document : Json) (depth : Nat) :
    ∀ other, .lineBreak other ∈ document.pieces depth → depth ≤ other := by
  match document with
  | .string text => simp [pieces]
  | .array [] => simp [pieces]
  | .object [] => simp [pieces]
  | .array (item :: items) =>
    have first := le_of_lineBreak_mem_pieces item (depth + 1)
    have others := le_of_lineBreak_mem_itemPieces items (depth + 1)
    simp only [pieces]
    grind
  | .object ((name, value) :: members) =>
    have first := le_of_lineBreak_mem_pieces value (depth + 1)
    have others := le_of_lineBreak_mem_memberPieces members (depth + 1)
    simp only [pieces]
    grind

theorem le_of_lineBreak_mem_itemPieces (items : List Json) (depth : Nat) :
    ∀ other, .lineBreak other ∈ itemPieces depth items → depth ≤ other := by
  match items with
  | [] => simp [itemPieces]
  | item :: items =>
    have first := le_of_lineBreak_mem_pieces item depth
    have others := le_of_lineBreak_mem_itemPieces items depth
    simp only [itemPieces]
    grind

theorem le_of_lineBreak_mem_memberPieces (members : List (String × Json)) (depth : Nat) :
    ∀ other, .lineBreak other ∈ memberPieces depth members → depth ≤ other := by
  match members with
  | [] => simp [memberPieces]
  | (name, value) :: members =>
    have first := le_of_lineBreak_mem_pieces value depth
    have others := le_of_lineBreak_mem_memberPieces members depth
    simp only [memberPieces]
    grind

end

theorem newline_not_mem_chars {piece : Piece} (proper : piece.IsProper)
    (other : ∀ depth, piece ≠ .lineBreak depth) : '\n' ∉ piece.chars .indented := by
  have visible := visible_of_mem_chars proper
  cases piece with
  | symbol mark => exact fun member => absurd (visible '\n' member) (by decide)
  | literal text => exact fun member => absurd (visible '\n' member) (by decide)
  | lineBreak depth => exact absurd rfl (other depth)
  | gap => decide

/-- Pieces inside a document go on with the line that was begun, and every line that they begin
begins with a space. -/
theorem exists_lines_of_inner (pieces : List Piece) (inner : ∀ piece ∈ pieces, piece.IsInner)
    {start : List Char} (whole : '\n' ∉ start) :
    ∃ (first : List Char) (later : List (List Char)),
      start ++ pieces.flatMap (Piece.chars .indented) ++ ['\n'] =
        ((start ++ first) :: later).flatMap (· ++ ['\n']) ∧
      '\n' ∉ start ++ first ∧ ∀ line ∈ later, line.head? = some ' ' ∧ '\n' ∉ line := by
  induction pieces generalizing start with
  | nil =>
    refine ⟨[], [], ?_, ?_, List.forall_mem_nil _⟩
    · simp
    · rwa [List.append_nil]
  | cons piece rest inductionHypothesis =>
    obtain ⟨isInner, others⟩ := List.forall_mem_cons.mp inner
    by_cases breaks : ∃ depth, piece = .lineBreak depth
    · obtain ⟨depth, rfl⟩ := breaks
      obtain ⟨below, rfl⟩ : ∃ below, depth = below + 1 :=
        Nat.exists_eq_succ_of_ne_zero fun outermost => isInner.indented (outermost ▸ rfl)
      have spaces : '\n' ∉ List.replicate (2 * (below + 1)) ' ' := fun member =>
        absurd (List.eq_of_mem_replicate member) (by decide)
      obtain ⟨first, later, text, wholeFirst, indented⟩ := inductionHypothesis others spaces
      refine ⟨[], (List.replicate (2 * (below + 1)) ' ' ++ first) :: later, ?_, ?_, ?_⟩
      · rw [List.flatMap_cons (x := start ++ []), ← text]
        simp [Piece.chars]
      · rwa [List.append_nil]
      · exact List.forall_mem_cons.mpr ⟨⟨rfl, wholeFirst⟩, indented⟩
    · have free := newline_not_mem_chars isInner.proper (not_exists.mp breaks)
      have longer : '\n' ∉ start ++ piece.chars .indented := by
        rw [List.mem_append, not_or]
        exact ⟨whole, free⟩
      obtain ⟨first, later, text, wholeFirst, indented⟩ := inductionHypothesis others longer
      rw [List.append_assoc start] at wholeFirst
      refine ⟨piece.chars .indented ++ first, later, ?_, wholeFirst, indented⟩
      rw [List.flatMap_cons, ← List.append_assoc start, ← List.append_assoc start]
      exact text

theorem exists_inner_of_object {members : List (String × Json)} (full : members ≠ []) :
    ∃ inside : List Piece,
      (Json.object members).pieces 0 = .symbol '{' :: (inside ++ [.lineBreak 0, .symbol '}']) ∧
      ∀ piece ∈ inside, piece.IsInner := by
  obtain ⟨⟨name, value⟩, rest, rfl⟩ := List.exists_cons_of_ne_nil full
  let inside : List Piece := .lineBreak 1 :: .literal name :: .symbol ':' :: .gap ::
    (value.pieces 1 ++ memberPieces 1 rest)
  have parts : (Json.object ((name, value) :: rest)).pieces 0 =
      .symbol '{' :: (inside ++ [.lineBreak 0, .symbol '}']) := by
    simp [pieces, inside]
  refine ⟨inside, parts, fun piece member => ⟨?_, ?_⟩⟩
  · refine isProper_of_mem_pieces (.object ((name, value) :: rest)) 0 piece ?_
    rw [parts]
    exact List.mem_cons_of_mem _ (List.mem_append_left _ member)
  · rintro rfl
    have first := le_of_lineBreak_mem_pieces value 1 0
    have others := le_of_lineBreak_mem_memberPieces rest 1 0
    simp only [inside] at member
    grind

/-- A written object that has members begins with a brace, and the lines behind that begin with a
space up to the last line, which is a brace again. -/
theorem exists_chars_of_object {members : List (String × Json)} (full : members ≠ []) :
    ∃ (first : List Char) (later : List (List Char)),
      ((Json.object members).write .indented ++ "\n").toList =
        ((('{' :: first) :: later) ++ [['}']]).flatMap (· ++ ['\n']) ∧
      '\n' ∉ '{' :: first ∧ ∀ line ∈ later, line.head? = some ' ' ∧ '\n' ∉ line := by
  obtain ⟨inside, parts, inner⟩ := exists_inner_of_object full
  have opening : '\n' ∉ ['{'] := by decide
  obtain ⟨first, later, text, whole, indented⟩ := exists_lines_of_inner inside inner opening
  refine ⟨first, later, ?_, whole, indented⟩
  have written : ((Json.object members).write .indented ++ "\n").toList =
      ['{'] ++ inside.flatMap (Piece.chars .indented) ++ ['\n'] ++ ['}', '\n'] := by
    rw [String.toList_append, write, String.toList_ofList, parts]
    simp [Piece.chars]
  rw [written, text, List.flatMap_append]
  rfl

/-- The lines of a written object that has members: the last is a closing brace, and no other
line is. -/
theorem exists_lines_of_object {members : List (String × Json)} (full : members ≠ []) :
    ∃ lines : List String,
      (Json.object members).write .indented ++ "\n" = String.join (lines.map (· ++ "\n")) ∧
      (∀ line ∈ lines, '\n' ∉ line.toList) ∧ Text.EndsWith closingLine lines := by
  obtain ⟨first, later, written, whole, indented⟩ := exists_chars_of_object full
  refine ⟨((('{' :: first) :: later) ++ [['}']]).map String.ofList, ?_, ?_, ?_⟩
  · rw [← String.toList_inj, written]
    simp [String.toList_join, List.flatMap_map]
  · intro line member
    obtain ⟨marks, inLines, rfl⟩ := List.mem_map.mp member
    rw [String.toList_ofList]
    rcases List.mem_append.mp inLines with inFront | inLast
    · rcases List.mem_cons.mp inFront with rfl | inLater
      · exact whole
      · exact (indented marks inLater).2
    · rw [List.mem_singleton.mp inLast]
      decide
  · refine ⟨(('{' :: first) :: later).map String.ofList, List.map_append, fun member => ?_⟩
    obtain ⟨marks, inFront, closing⟩ := List.mem_map.mp member
    obtain rfl : marks = ['}'] := by rw [← String.toList_ofList (l := marks), closing]; rfl
    rcases List.mem_cons.mp inFront with opened | inLater
    · cases opened
    · exact absurd (indented _ inLater).1 (by decide)

end Json

/-! ### Documents one after another -/

/-- The documents that a text is made of. Each ends with a line that is a closing brace. -/
def documentsIn (text : String) : List String :=
  (Text.cutBehind closingLine (linesOf text)).map fun lines => String.join (lines.map (· ++ "\n"))

/-- A document is read from the lines that it is written on. -/
theorem Json.read?_write_line (document : Json) :
    read? (document.write .indented ++ "\n") = some document := by
  have proper : ∀ piece ∈ document.pieces 0 ++ [Piece.lineBreak 0], piece.IsProper := by
    refine List.forall_mem_append.mpr ⟨isProper_of_mem_pieces document 0, ?_⟩
    exact List.forall_mem_singleton.mpr fun _ => nofun
  have written : (document.write .indented ++ "\n").toList =
      (document.pieces 0 ++ [Piece.lineBreak 0]).flatMap (Piece.chars .indented) := by
    rw [String.toList_append, write, String.toList_ofList, List.flatMap_append]
    rfl
  have solid : (document.pieces 0 ++ [Piece.lineBreak 0]).filter Piece.isSolid =
      solidOf (document.pieces 0) := by
    rw [List.filter_append]
    exact List.append_nil _
  rw [read?, written, solids?_flatMap_chars .indented _ proper, solid, Option.bind_some,
    run?_pieces document 0 []]
  rfl

theorem Presentation.categories_ne_nil (presentation : Presentation) :
    presentation.categories ≠ [] := by
  obtain ⟨category, shown⟩ : ∃ category, presentation.shows category = true := by
    unfold shows
    cases presentation.only with
    | nil => exact ⟨.elements, rfl⟩
    | cons category rest => exact ⟨category, by simp⟩
  exact List.ne_nil_of_mem (List.mem_filter.mpr ⟨Category.mem_all category, shown⟩)

namespace Settings

theorem linesOf_out_displayAll (settings : Settings) (selectors : List String) :
    linesOf (settings.displayAll {} selectors).out =
      (selectors.map fun selector => linesOf (settings.rendering selector)).flatten := by
  rw [out_displayAll, String.empty_append]
  induction selectors with
  | nil => rfl
  | cons selector rest inductionHypothesis =>
    have ends : (settings.rendering selector).toList.getLast? = some '\n' := by
      rw [rendering, String.toList_append]
      exact List.getLast?_concat
    rw [List.map_cons, String.join_cons, linesOf, String.toList_append,
      Text.lines_append _ (Or.inr ends), List.map_append, List.map_cons, List.flatten_cons,
      ← inductionHypothesis]
    rfl

variable {settings : Settings} (json : settings.presentation.format = .json)

include json

theorem rendering_json (selector : String) :
    settings.rendering selector =
      ((Inventory.ofSelector settings.duplicates selector).document
        settings.presentation.categories).write .indented ++ "\n" := by
  rw [rendering, Presentation.render, json]

/-- The output of a selector is made of lines, of which the last is a closing brace and no other
is. -/
theorem linesOf_rendering_json (selector : String) :
    String.join ((linesOf (settings.rendering selector)).map (· ++ "\n")) =
        settings.rendering selector ∧
      Text.EndsWith closingLine (linesOf (settings.rendering selector)) := by
  have full : (settings.presentation.categories.map fun category => (category.name,
      Json.array (((Inventory.ofSelector settings.duplicates selector).lexemes category).map
        Lexeme.document))) ≠ [] :=
    mt List.map_eq_nil_iff.mp settings.presentation.categories_ne_nil
  obtain ⟨lines, written, whole, ends⟩ := Json.exists_lines_of_object full
  rw [← Inventory.document, ← rendering_json json] at written
  rw [written, linesOf_join lines whole]
  exact ⟨rfl, ends⟩

end Settings

/-- The output of several selectors is cut behind every line that is a closing brace. There is
one such line for each selector, and it is the last of the selector's document, so the parts are
what was shown for each selector in turn, and each of them is read as a whole document. -/
theorem documentsIn_displayAll (settings : Settings)
    (json : settings.presentation.format = .json) (selectors : List String) :
    (linesOf (settings.displayAll {} selectors).out).count closingLine = selectors.length ∧
    (∀ selector ∈ selectors, ∃ front,
      linesOf (settings.rendering selector) = front ++ [closingLine] ∧ closingLine ∉ front) ∧
    (documentsIn (settings.displayAll {} selectors).out =
      selectors.map fun selector => settings.presentation.render selector
        (Inventory.ofSelector settings.duplicates selector) ++ "\n") ∧
    ∀ selector ∈ selectors,
      Json.read? (settings.presentation.render selector
          (Inventory.ofSelector settings.duplicates selector) ++ "\n") =
        some ((Inventory.ofSelector settings.duplicates selector).document
          settings.presentation.categories) := by
  have ends : ∀ lines ∈ selectors.map fun selector => linesOf (settings.rendering selector),
      Text.EndsWith closingLine lines := by
    intro lines member
    obtain ⟨selector, _, rfl⟩ := List.mem_map.mp member
    exact (Settings.linesOf_rendering_json json selector).2
  refine ⟨?_, ?_, ?_, ?_⟩
  · rw [Settings.linesOf_out_displayAll, Text.count_flatten ends, List.length_map]
  · exact fun selector _ => (Settings.linesOf_rendering_json json selector).2
  · rw [documentsIn, Settings.linesOf_out_displayAll, Text.cutBehind_flatten ends, List.map_map]
    exact List.map_congr_left fun selector _ =>
      (Settings.linesOf_rendering_json json selector).1
  · intro selector _
    have document := Settings.rendering_json json selector
    rw [Settings.rendering] at document
    rw [document]
    exact Json.read?_write_line _

/-- Braces and a line break in a value make no line that ends a document. -/
theorem documentsIn_displayAll_braces :
    ({ only := [.attributes] } : Presentation).format = .json ∧
      documentsIn (({ presentation := { only := [.attributes] } } : Settings).displayAll {}
        ["[k=\x7d\n\x7d]", "a"]).out =
          ["\x7b\n  \"attributes\": [\n    \x7b\n      \"key\": \"k\",\n      \"value\": " ++
            "\"\x7d\\n\x7d\"\n    \x7d\n  ]\n\x7d\n",
          "\x7b\n  \"attributes\": []\n\x7d\n"] := by
  have braces : scan "[k=\x7d\n\x7d]" = [⟨.attributes, .attribute ⟨"k", "\x7d\n\x7d"⟩⟩] :=
    scan_of_isCutOf [.attribute "k=\x7d\n\x7d".toList true] _ (by decide)
  have element : scan "a" = [⟨.elements, .text "a"⟩] :=
    scan_of_isCutOf [.element ['a']] _ (by decide)
  obtain ⟨_, _, cut, _⟩ := documentsIn_displayAll
    { presentation := { only := [.attributes] } } rfl ["[k=\x7d\n\x7d]", "a"]
  refine ⟨rfl, cut.trans ?_⟩
  simp only [List.map_cons, List.map_nil, Inventory.ofSelector, braces, element]
  rfl

end SelectorLexemes
