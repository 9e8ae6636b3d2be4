/-
This file reads one segment at a cursor. The next character decides what kind of segment
it is, and one character of lookahead is enough for the rest. Reading never fails: a
segment that the end of the selector cuts short is what was there. Each segment read
brings the cursor closer to the end, which is why scanning stops.
-/

import SelectorLexemes.Cursor
import SelectorLexemes.Segment
import SelectorLexemes.Text.Balanced

namespace SelectorLexemes.Cursor

/-! ### Reading -/

/-- Reads a name, which may be empty. -/
def readName (cursor : Cursor) : List Char × Cursor :=
  cursor.takeWhile isNameChar

/-- Reads the parenthesised argument that begins at the cursor. -/
def readArgument (cursor : Cursor) : List Char × Cursor :=
  cursor.pass (Text.splitBalanced 0 cursor.ahead)

/-- Reads the rest of a pseudo-class whose colon has been passed. -/
def readPseudoClass (cursor : Cursor) : Segment × Cursor :=
  let (name, afterName) := cursor.readName
  if afterName.peek? = some '(' ∧ takesArgument name then
    let (argument, afterArgument) := afterName.readArgument
    (.pseudoClass name argument, afterArgument)
  else
    (.pseudoClass name [], afterName)

/-- Reads the rest of a pseudo-element or pseudo-class whose first colon has been
passed. -/
def readPseudo (cursor : Cursor) : Segment × Cursor :=
  match cursor.next? with
  | some (':', afterColon) =>
    let (name, afterName) := afterColon.readName
    (.pseudoElement name, afterName)
  | _ => cursor.readPseudoClass

/-- Reads the rest of an attribute selector whose opening bracket has been passed. -/
def readAttribute (cursor : Cursor) : Segment × Cursor :=
  let (content, afterContent) := cursor.takeWhile (· != ']')
  match afterContent.next? with
  | some (_, afterBracket) => (.attribute content true, afterBracket)
  | none => (.attribute content false, afterContent)

/-- Reads the segment whose first character has just been passed. The first character of
a bare name belongs to the name, so it is put back. -/
def readAfter (mark : Char) (cursor : Cursor) : Segment × Cursor :=
  if mark = '.' then
    let (name, afterName) := cursor.readName
    (.classSelector name, afterName)
  else if mark = '#' then
    let (name, afterName) := cursor.readName
    (.idSelector name, afterName)
  else if mark = ':' then
    cursor.readPseudo
  else if mark = '[' then
    cursor.readAttribute
  else if isNameChar mark then
    let (name, afterName) := cursor.back.readName
    (.element name, afterName)
  else
    (.separator mark, cursor)

/-- Reads the next segment, or nothing at the end of the selector. -/
def readSegment? (cursor : Cursor) : Option (Segment × Cursor) :=
  cursor.next?.map fun (mark, afterMark) => afterMark.readAfter mark

/-! ### Progress -/

theorem readName_ahead_length_le (cursor : Cursor) :
    cursor.readName.2.ahead.length ≤ cursor.ahead.length :=
  (List.dropWhile_sublist _).length_le

theorem readArgument_ahead_length_le (cursor : Cursor) :
    cursor.readArgument.2.ahead.length ≤ cursor.ahead.length := by
  have parts := congrArg List.length (Text.splitBalanced_append 0 cursor.ahead)
  simp only [List.length_append] at parts
  simp only [readArgument, pass]
  omega

theorem readPseudoClass_ahead_length_le (cursor : Cursor) :
    cursor.readPseudoClass.2.ahead.length ≤ cursor.ahead.length := by
  have name := cursor.readName_ahead_length_le
  have argument := cursor.readName.2.readArgument_ahead_length_le
  unfold readPseudoClass
  dsimp only
  split <;> dsimp only <;> omega

theorem readPseudo_ahead_length_le (cursor : Cursor) :
    cursor.readPseudo.2.ahead.length ≤ cursor.ahead.length := by
  unfold readPseudo
  split
  · next afterColon step =>
    have colon := congrArg List.length (ahead_of_next? step)
    have name := afterColon.readName_ahead_length_le
    simp only [List.length_cons] at colon
    dsimp only
    omega
  · exact cursor.readPseudoClass_ahead_length_le

theorem readAttribute_ahead_length_le (cursor : Cursor) :
    cursor.readAttribute.2.ahead.length ≤ cursor.ahead.length := by
  have content : (cursor.takeWhile (· != ']')).2.ahead.length ≤ cursor.ahead.length :=
    (List.dropWhile_sublist _).length_le
  unfold readAttribute
  dsimp only
  split
  · next afterBracket step =>
    have bracket := congrArg List.length (ahead_of_next? step)
    simp only [List.length_cons] at bracket
    dsimp only
    omega
  · exact content

/-- Every segment covers at least one character. -/
theorem ahead_length_lt_of_readSegment? {cursor after : Cursor} {segment : Segment}
    (read : cursor.readSegment? = some (segment, after)) :
    after.ahead.length < cursor.ahead.length := by
  simp only [readSegment?, Option.map_eq_some_iff, Prod.exists] at read
  obtain ⟨mark, afterMark, step, result⟩ := read
  have shorter := congrArg List.length (ahead_of_next? step)
  simp only [List.length_cons] at shorter
  have atMost : after = (afterMark.readAfter mark).2 := by rw [result]
  subst atMost
  have name := afterMark.readName_ahead_length_le
  unfold readAfter
  split
  · dsimp only
    omega
  split
  · dsimp only
    omega
  split
  · have pseudo := afterMark.readPseudo_ahead_length_le
    omega
  split
  · have bracketed := afterMark.readAttribute_ahead_length_le
    omega
  split
  · next isName =>
    rw [(back_of_next? step).1]
    simp only [readName, takeWhile_ahead, ahead_of_next? step, List.dropWhile_cons, isName,
      ↓reduceIte, List.length_cons]
    exact Nat.lt_succ_of_le (List.dropWhile_sublist _).length_le
  · dsimp only
    omega

end SelectorLexemes.Cursor
