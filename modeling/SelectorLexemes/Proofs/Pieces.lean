/-
This file reads JSON text as a sequence of symbols and string literals. All escapes of
JSON are understood, among them the pairs that write a character beyond U+FFFF, and blanks
between the pieces mean nothing.

What is read from a written document are its pieces without those that are only layout.
Each piece tells where it ends: a symbol is one character, and the text of a literal holds
no quotation mark that is not escaped. So the pieces behind it do not matter.
-/

import Mathlib.Data.List.Basic
import SelectorLexemes.Json

namespace SelectorLexemes.Json

/-! ### Reading string literals -/

/-- The part of an escape that the next character of a literal belongs to. -/
inductive EscapePart where
  /-- None: the character stands for itself or begins an escape. -/
  | outside
  /-- The letter behind the backslash. -/
  | letter
  /-- The digits behind the letter `u`, of which some have been read. -/
  | digits (read : List Char)

/-- A string literal that is being read. -/
structure Literal where
  /-- The text so far. -/
  text : List Char := []
  /-- The first of two numbers that write one character together. -/
  half? : Option Nat := none
  /-- The part of an escape that the next character belongs to. -/
  part : EscapePart := .outside

/-- The value of a hexadecimal digit, in either case. -/
def hexValue? (digit : Char) : Option Nat :=
  "0123456789abcdef".toList.idxOf? digit.toLower

/-- The number that hexadecimal digits write. -/
def hexNumber? (digits : List Char) : Option Nat :=
  digits.foldlM (fun number digit => (hexValue? digit).map (16 * number + ·)) 0

/-- The character that a backslash and a letter write. -/
def shortEscape? : Char → Option Char
  | '"' => some '"'
  | '\\' => some '\\'
  | '/' => some '/'
  | 'b' => some '\x08'
  | 'f' => some '\x0c'
  | 'n' => some '\n'
  | 'r' => some '\r'
  | 't' => some '\t'
  | _ => none

namespace Literal

/-- The literal with one more character, unless half a character came before. -/
def add? (literal : Literal) (mark : Char) : Option Literal :=
  match literal.half? with
  | none => some { text := literal.text ++ [mark] }
  | some _ => none

/-- The literal with one more number. The characters beyond U+FFFF are written as two
numbers of ten bits each, which are moved to ranges where no character is. -/
def addNumber? (literal : Literal) (number : Nat) : Option Literal :=
  match literal.half? with
  | none =>
    if 0xD800 ≤ number ∧ number < 0xDC00 then
      some { text := literal.text, half? := some number }
    else if number.isValidChar then
      some { text := literal.text ++ [Char.ofNat number] }
    else
      none
  | some half =>
    if 0xDC00 ≤ number ∧ number < 0xE000 then
      some { text := literal.text ++
        [Char.ofNat (0x10000 + 0x400 * (half - 0xD800) + (number - 0xDC00))] }
    else
      none

/-- The literal behind one more character, unless the character may not stand there. -/
def next? (literal : Literal) (mark : Char) : Option Literal :=
  match literal.part with
  | .outside =>
    if mark = '\\' then some { literal with part := .letter }
    else if mark.toNat < 0x20 then none
    else literal.add? mark
  | .letter =>
    if mark = 'u' then some { literal with part := .digits [] }
    else (shortEscape? mark).bind literal.add?
  | .digits read =>
    if read.length < 3 then some { literal with part := .digits (read ++ [mark]) }
    else (hexNumber? (read ++ [mark])).bind literal.addNumber?

/-- The text of the literal, if the character ends it. -/
def ended? (literal : Literal) (mark : Char) : Option String :=
  match literal.half?, literal.part with
  | none, .outside => if mark = '"' then some (String.ofList literal.text) else none
  | _, _ => none

end Literal

/-! ### Reading pieces -/

/-- The characters that may stand around pieces and mean nothing. -/
def blankMarks : List Char := [' ', '\t', '\n', '\r']

/-- The characters that are symbols. -/
def symbolMarks : List Char := ['[', ']', '{', '}', ',', ':']

mutual

/-- The symbols and literals of a text, in order. -/
def solids? : List Char → Option (List Piece)
  | [] => some []
  | mark :: rest =>
    if mark = '"' then literal? {} rest
    else if mark ∈ blankMarks then solids? rest
    else if mark ∈ symbolMarks then (solids? rest).map (.symbol mark :: ·)
    else none

/-- The same for a text that begins inside of a literal. -/
def literal? (literal : Literal) : List Char → Option (List Piece)
  | [] => none
  | mark :: rest =>
    match literal.ended? mark with
    | some text => (solids? rest).map (.literal text :: ·)
    | none =>
      match literal.next? mark with
      | some next => literal? next rest
      | none => none

end

/-! ### Reading what was written -/

theorem hexValue?_digitChar : ∀ value < 16, hexValue? (Nat.digitChar value) = some value := by
  decide

/-- The three ways to write a character. -/
theorem escapeChar_cases (mark : Char) :
    (∃ letter, letter ≠ 'u' ∧ 0x20 ≤ letter.toNat ∧ shortEscape? letter = some mark ∧
      escapeChar mark = ['\\', letter]) ∨
    (mark.toNat < 0x20 ∧ escapeChar mark = hexEscape mark) ∨
    (mark ≠ '"' ∧ mark ≠ '\\' ∧ 0x20 ≤ mark.toNat ∧ escapeChar mark = [mark]) := by
  by_cases quotation : mark = '"'
  · subst quotation
    exact Or.inl ⟨'"', by decide, by decide, rfl, rfl⟩
  by_cases backslash : mark = '\\'
  · subst backslash
    exact Or.inl ⟨'\\', by decide, by decide, rfl, rfl⟩
  by_cases backspace : mark = '\x08'
  · subst backspace
    exact Or.inl ⟨'b', by decide, by decide, rfl, rfl⟩
  by_cases tab : mark = '\t'
  · subst tab
    exact Or.inl ⟨'t', by decide, by decide, rfl, rfl⟩
  by_cases newline : mark = '\n'
  · subst newline
    exact Or.inl ⟨'n', by decide, by decide, rfl, rfl⟩
  by_cases feed : mark = '\x0c'
  · subst feed
    exact Or.inl ⟨'f', by decide, by decide, rfl, rfl⟩
  by_cases carriage : mark = '\r'
  · subst carriage
    exact Or.inl ⟨'r', by decide, by decide, rfl, rfl⟩
  rw [escapeChar, if_neg quotation, if_neg backslash, if_neg backspace, if_neg tab,
    if_neg newline, if_neg feed, if_neg carriage]
  by_cases control : mark.toNat < 0x20
  · exact Or.inr (Or.inl ⟨control, if_pos control⟩)
  · exact Or.inr (Or.inr ⟨quotation, backslash, Nat.le_of_not_lt control, if_neg control⟩)

theorem literal?_step {literal next : Literal} {mark : Char} (goesOn : literal.ended? mark = none)
    (step : literal.next? mark = some next) (rest : List Char) :
    literal? literal (mark :: rest) = literal? next rest := by
  rw [literal?, goesOn, step]

theorem literal?_shortEscape {letter mark : Char} (other : letter ≠ 'u')
    (reads : shortEscape? letter = some mark) (text rest : List Char) :
    literal? { text := text } ('\\' :: letter :: rest) =
      literal? { text := text ++ [mark] } rest := by
  have begins : Literal.next? { text := text } '\\' = some { text := text, part := .letter } := rfl
  have ends : Literal.next? { text := text, part := .letter } letter =
      some { text := text ++ [mark] } := by
    rw [Literal.next?, if_neg other, reads]
    rfl
  rw [literal?_step rfl begins, literal?_step rfl ends]

theorem literal?_hexEscape (text rest : List Char) (mark : Char) (control : mark.toNat < 0x20) :
    literal? { text := text } (hexEscape mark ++ rest) =
      literal? { text := text ++ [mark] } rest := by
  have high := hexValue?_digitChar (mark.toNat / 16) (by omega)
  have low := hexValue?_digitChar (mark.toNat % 16) (by omega)
  have zero : hexValue? '0' = some 0 := by decide
  have number : hexNumber? ['0', '0', Nat.digitChar (mark.toNat / 16),
      Nat.digitChar (mark.toNat % 16)] = some mark.toNat := by
    simp only [hexNumber?, List.foldlM_cons, List.foldlM_nil, zero, high, low, Option.map_some,
      Option.bind_eq_bind, Option.bind_some, Option.pure_def, Option.some.injEq]
    omega
  have whole : ¬(0xD800 ≤ mark.toNat ∧ mark.toNat < 0xDC00) := by omega
  have valid : mark.toNat.isValidChar := Or.inl (by omega)
  have ends : Literal.next?
      { text := text, part := .digits ['0', '0', Nat.digitChar (mark.toNat / 16)] }
      (Nat.digitChar (mark.toNat % 16)) = some { text := text ++ [mark] } := by
    show (hexNumber? ['0', '0', Nat.digitChar (mark.toNat / 16),
      Nat.digitChar (mark.toNat % 16)]).bind (Literal.addNumber? { text := text }) = _
    rw [number, Option.bind_some, Literal.addNumber?, if_neg whole, if_pos valid,
      Char.ofNat_toNat]
  show literal? { text := text } ('\\' :: 'u' :: '0' :: '0' ::
    Nat.digitChar (mark.toNat / 16) :: Nat.digitChar (mark.toNat % 16) :: rest) = _
  rw [literal?_step rfl rfl, literal?_step rfl rfl, literal?_step rfl rfl, literal?_step rfl rfl,
    literal?_step rfl rfl]
  exact literal?_step rfl ends rest

theorem literal?_plain {mark : Char} (notQuote : mark ≠ '"') (notEscape : mark ≠ '\\')
    (visible : 0x20 ≤ mark.toNat) (text rest : List Char) :
    literal? { text := text } (mark :: rest) = literal? { text := text ++ [mark] } rest := by
  have goesOn : Literal.ended? { text := text } mark = none := if_neg notQuote
  have step : Literal.next? { text := text } mark = some { text := text ++ [mark] } := by
    rw [Literal.next?, if_neg notEscape, if_neg (Nat.not_lt_of_le visible)]
    rfl
  exact literal?_step goesOn step rest

/-- A character is read from what it is written as. -/
theorem literal?_escapeChar (text rest : List Char) (mark : Char) :
    literal? { text := text } (escapeChar mark ++ rest) =
      literal? { text := text ++ [mark] } rest := by
  rcases escapeChar_cases mark with ⟨letter, other, _, reads, writes⟩ | ⟨control, writes⟩ |
    ⟨notQuote, notEscape, visible, writes⟩
  · rw [writes]
    exact literal?_shortEscape other reads text rest
  · rw [writes]
    exact literal?_hexEscape text rest mark control
  · rw [writes]
    exact literal?_plain notQuote notEscape visible text rest

theorem literal?_escaped (read text rest : List Char) :
    literal? { text := read } (text.flatMap escapeChar ++ '"' :: rest) =
      (solids? rest).map (.literal (String.ofList (read ++ text)) :: ·) := by
  induction text generalizing read with
  | nil =>
    have ended : Literal.ended? { text := read } '"' = some (String.ofList read) := rfl
    rw [List.append_nil, List.flatMap_nil, List.nil_append, literal?, ended]
  | cons mark more inductionHypothesis =>
    rw [List.flatMap_cons, List.append_assoc, literal?_escapeChar, inductionHypothesis,
      List.append_assoc, List.singleton_append]

/-- A text is read from the string literal that it is written as. -/
theorem solids?_quote (text : String) (rest : List Char) :
    solids? (quote text.toList ++ rest) = (solids? rest).map (.literal text :: ·) := by
  have read := literal?_escaped [] text.toList rest
  rw [List.nil_append, String.ofList_toList] at read
  rw [quote, List.append_assoc, List.cons_append, List.singleton_append, solids?, if_pos rfl]
  exact read

theorem solids?_blank {mark : Char} (blank : mark ∈ blankMarks) (rest : List Char) :
    solids? (mark :: rest) = solids? rest := by
  have notQuote : mark ≠ '"' := by
    rintro rfl
    exact absurd blank (by decide)
  rw [solids?, if_neg notQuote, if_pos blank]

theorem solids?_blanks {gap : List Char} (blanks : ∀ mark ∈ gap, mark ∈ blankMarks)
    (rest : List Char) : solids? (gap ++ rest) = solids? rest := by
  induction gap with
  | nil => rfl
  | cons mark more inductionHypothesis =>
    obtain ⟨blank, others⟩ := List.forall_mem_cons.mp blanks
    rw [List.cons_append, solids?_blank blank, inductionHypothesis others]

theorem solids?_symbol {mark : Char} (symbol : mark ∈ symbolMarks) (rest : List Char) :
    solids? (mark :: rest) = (solids? rest).map (.symbol mark :: ·) := by
  have notQuote : mark ≠ '"' := by
    rintro rfl
    exact absurd symbol (by decide)
  have notBlank : mark ∉ blankMarks := by
    intro blank
    simp only [symbolMarks, blankMarks, List.mem_cons, List.not_mem_nil, or_false] at symbol blank
    rcases symbol with rfl | rfl | rfl | rfl | rfl | rfl <;> revert blank <;> decide
  rw [solids?, if_neg notQuote, if_neg notBlank, if_pos symbol]

namespace Piece

/-- The piece is a literal or a symbol, not a place for layout. -/
def isSolid : Piece → Bool
  | .symbol _ | .literal _ => true
  | .lineBreak _ | .gap => false

/-- A piece that is a symbol is one of JSON. -/
def IsProper (piece : Piece) : Prop :=
  ∀ mark, piece = .symbol mark → mark ∈ symbolMarks

end Piece

/-- A written piece is read as itself, and one that is only layout is not read. -/
theorem solids?_chars (layout : Layout) {piece : Piece} (proper : piece.IsProper)
    (rest : List Char) :
    solids? (piece.chars layout ++ rest) =
      (solids? rest).map ((if piece.isSolid then [piece] else []) ++ ·) := by
  have nothing : solids? rest = (solids? rest).map ([] ++ ·) := by simp
  cases piece with
  | symbol mark => exact solids?_symbol (proper mark rfl) rest
  | literal text => exact solids?_quote text rest
  | lineBreak depth =>
    cases layout with
    | compact => exact nothing
    | indented =>
      refine (solids?_blanks ?_ rest).trans nothing
      refine List.forall_mem_cons.mpr ⟨by decide, fun mark member => ?_⟩
      rw [List.eq_of_mem_replicate member]
      decide
  | gap =>
    cases layout with
    | compact => exact nothing
    | indented => exact (solids?_blank (by decide) rest).trans nothing

/-- Pieces are read from what they are written as, whatever the layout. -/
theorem solids?_flatMap_chars (layout : Layout) (pieces : List Piece)
    (proper : ∀ piece ∈ pieces, piece.IsProper) :
    solids? (pieces.flatMap (Piece.chars layout)) = some (pieces.filter Piece.isSolid) := by
  induction pieces with
  | nil => rfl
  | cons piece rest inductionHypothesis =>
    obtain ⟨first, others⟩ := List.forall_mem_cons.mp proper
    rw [List.flatMap_cons, solids?_chars layout first, inductionHypothesis others,
      Option.map_some, List.filter_cons]
    split <;> rfl

end SelectorLexemes.Json
