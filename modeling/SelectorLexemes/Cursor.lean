/-
This file holds the cursor that walks over a text. It keeps the characters it has passed
and the characters ahead of it, so that a character can be put back and so that no move
loses any text: the two parts always make up the text that the walk began with.
-/

namespace SelectorLexemes

/-- A place in a text. -/
structure Cursor where
  /-- The characters already passed, the nearest first. -/
  behind : List Char
  /-- The characters still to come, the nearest first. -/
  ahead : List Char
deriving DecidableEq

namespace Cursor

/-- The cursor before the first character of a text. -/
def start (text : List Char) : Cursor :=
  ⟨[], text⟩

/-- The text that the cursor walks over. -/
def text (cursor : Cursor) : List Char :=
  cursor.behind.reverse ++ cursor.ahead

/-- The number of characters passed. -/
def position (cursor : Cursor) : Nat :=
  cursor.behind.length

/-- The next character, left where it is. -/
def peek? (cursor : Cursor) : Option Char :=
  cursor.ahead.head?

/-- The next character and the cursor behind it, or nothing at the end of the text. -/
def next? : Cursor → Option (Char × Cursor)
  | ⟨_, []⟩ => none
  | ⟨behind, mark :: ahead⟩ => some (mark, ⟨mark :: behind, ahead⟩)

/-- The cursor with the character passed last put back; at the start of the text there
is none, and the cursor stays. -/
def back : Cursor → Cursor
  | ⟨[], ahead⟩ => ⟨[], ahead⟩
  | ⟨mark :: behind, ahead⟩ => ⟨behind, mark :: ahead⟩

/-- Passes over the first of two parts that make up the text ahead. -/
def pass (cursor : Cursor) (parts : List Char × List Char) : List Char × Cursor :=
  (parts.1, ⟨parts.1.reverse ++ cursor.behind, parts.2⟩)

/-- Passes over the longest run of characters that satisfy the test. -/
def takeWhile (cursor : Cursor) (test : Char → Bool) : List Char × Cursor :=
  cursor.pass (cursor.ahead.takeWhile test, cursor.ahead.dropWhile test)

/-! ### What the moves do to the text -/

@[simp] theorem text_start (text : List Char) : (start text).text = text := rfl

@[simp] theorem position_start (text : List Char) : (start text).position = 0 := rfl

/-- A step forward can be undone, and then it is never taken at the start. -/
theorem back_of_next? {cursor after : Cursor} {mark : Char}
    (step : cursor.next? = some (mark, after)) : after.back = cursor ∧ 0 < after.position := by
  obtain ⟨behind, _ | ⟨head, ahead⟩⟩ := cursor
  · simp [next?] at step
  · simp only [next?, Option.some.injEq, Prod.mk.injEq] at step
    obtain ⟨rfl, rfl⟩ := step
    simp [back, position]

theorem ahead_of_next? {cursor after : Cursor} {mark : Char}
    (step : cursor.next? = some (mark, after)) : cursor.ahead = mark :: after.ahead := by
  obtain ⟨behind, _ | ⟨head, ahead⟩⟩ := cursor
  · simp [next?] at step
  · simp only [next?, Option.some.injEq, Prod.mk.injEq] at step
    obtain ⟨rfl, rfl⟩ := step
    rfl

@[simp] theorem takeWhile_fst (cursor : Cursor) (test : Char → Bool) :
    (cursor.takeWhile test).1 = cursor.ahead.takeWhile test := rfl

@[simp] theorem takeWhile_ahead (cursor : Cursor) (test : Char → Bool) :
    (cursor.takeWhile test).2.ahead = cursor.ahead.dropWhile test := rfl

end Cursor

end SelectorLexemes
