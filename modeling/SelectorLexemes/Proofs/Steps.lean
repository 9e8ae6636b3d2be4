/-
This file follows a scan one move of its cursor at a time. What a scan is about to do is a phase,
and a step looks at the next character, passes it or puts one back, and goes over to the next
phase. What a step can do to the cursor is said once, and everything about positions follows from
it: the cursor stays on its text, and behind the place where a segment begins the position never
comes back further than to that place.

There is one move backwards, and it is made directly behind the first character of a bare name.
That character belongs to the name, so it is passed once more before anything else happens. This
is what the invariant of the steps has to remember.
-/

import Mathlib.Logic.Function.Iterate
import SelectorLexemes.Proofs.Parentheses
import SelectorLexemes.Scan

namespace SelectorLexemes

namespace Cursor

/-! ### Moves of a cursor -/

theorem text_next? {cursor after : Cursor} {mark : Char}
    (passed : cursor.next? = some (mark, after)) :
    after.text = cursor.text ∧ after.behind = mark :: cursor.behind := by
  obtain ⟨behind, _ | ⟨head, ahead⟩⟩ := cursor
  · cases passed
  · cases passed
    simp [text]

theorem text_back (cursor : Cursor) : cursor.back.text = cursor.text := by
  obtain ⟨_ | ⟨mark, behind⟩, ahead⟩ := cursor
  · rfl
  · simp [back, text]

theorem position_le_length_text (cursor : Cursor) : cursor.position ≤ cursor.text.length := by
  rw [position, text, List.length_append, List.length_reverse]
  exact Nat.le_add_right _ _

end Cursor

namespace Scan

/-! ### One move at a time -/

/-- What a scan is about to do. -/
inductive Phase where
  /-- To pass the first character of the next segment, unless the selector ends. -/
  | between
  /-- To put back the first character of a bare name. -/
  | puttingBack
  /-- To pass a second colon, if there is one. -/
  | behindColon
  /-- To pass one more character of a name, of which this much has been passed. -/
  | inName (category : Category) (name : List Char)
  /-- To pass one more character of the argument of a pseudo-class with this name, while so many
  parentheses are open. -/
  | inArgument (name : List Char) (depth : Nat)
  /-- To pass one more character between brackets. What was passed before the first equals sign
  is the key, and what was passed since then is kept apart from it. -/
  | inBrackets (key? : Option (List Char)) (passed : List Char)
  /-- Nothing: the selector has ended. -/
  | finished
deriving DecidableEq

/-- What a scan does behind the first character of a segment. -/
def Phase.behindFirst (mark : Char) : Phase :=
  if mark = '.' then .inName .classes []
  else if mark = '#' then .inName .ids []
  else if mark = ':' then .behindColon
  else if mark = '[' then .inBrackets none []
  else if isNameChar mark then .puttingBack
  else .between

/-- The scan with the cursor moved. -/
def moveTo (scan : Scan) (cursor : Cursor) : Scan :=
  { scan with cursor }

/-- The scan with one more token, if there is one. -/
def emit (scan : Scan) : Option Token → Scan
  | none => scan
  | some token => { scan with found := scan.found.push token }

@[simp] theorem cursor_emit (scan : Scan) (token? : Option Token) :
    (scan.emit token?).cursor = scan.cursor := by
  cases token? <;> rfl

/-- A scan between two moves. -/
structure Stage where
  /-- What is done next. -/
  phase : Phase
  /-- What has been done. -/
  scan : Scan

namespace Stage

/-- The number of characters passed. -/
def position (stage : Stage) : Nat :=
  stage.scan.cursor.position

/-- The token of brackets with this content. -/
def bracketToken? (key? : Option (List Char)) (passed : List Char) : Option Token :=
  match key? with
  | none => Token.attribute? passed passed
  | some key => Token.attribute? key passed

/-- The stage behind a look at the next character and at most one move. -/
def step : Stage → Stage
  | ⟨.between, scan⟩ =>
    match scan.cursor.next? with
    | none => ⟨.finished, scan⟩
    | some (mark, after) => ⟨.behindFirst mark, scan.moveTo after⟩
  | ⟨.puttingBack, scan⟩ => ⟨.inName .elements [], scan.moveTo scan.cursor.back⟩
  | ⟨.behindColon, scan⟩ =>
    match scan.cursor.next? with
    | some (':', after) => ⟨.inName .pseudoElements [], scan.moveTo after⟩
    | _ => ⟨.inName .pseudoClasses [], scan⟩
  | ⟨.inName category name, scan⟩ =>
    match scan.cursor.next? with
    | none => ⟨.between, scan.emit (Token.named? category name)⟩
    | some (mark, after) =>
      if isNameChar mark then
        ⟨.inName category (name ++ [mark]), scan.moveTo after⟩
      else if category = .pseudoClasses ∧ mark = '(' ∧ takesArgument name then
        ⟨.inArgument name 0, scan⟩
      else
        ⟨.between, scan.emit (Token.named? category name)⟩
  | ⟨.inArgument name depth, scan⟩ =>
    match scan.cursor.next? with
    | none => ⟨.between, scan.emit (Token.named? .pseudoClasses name)⟩
    | some (mark, after) =>
      if mark = ')' ∧ depth - 1 = 0 then
        ⟨.between, (scan.moveTo after).emit (Token.named? .pseudoClasses name)⟩
      else
        ⟨.inArgument name (Text.depthAfter depth mark), scan.moveTo after⟩
  | ⟨.inBrackets key? passed, scan⟩ =>
    match scan.cursor.next? with
    | none => ⟨.between, scan.emit (bracketToken? key? passed)⟩
    | some (mark, after) =>
      if mark = ']' then
        ⟨.between, (scan.moveTo after).emit (bracketToken? key? passed)⟩
      else if mark = '=' ∧ key? = none then
        ⟨.inBrackets (some passed) [], scan.moveTo after⟩
      else
        ⟨.inBrackets key? (passed ++ [mark]), scan.moveTo after⟩
  | ⟨.finished, scan⟩ => ⟨.finished, scan⟩

/-! ### What one step does to the cursor -/

/-- How the cursor moves from one stage to the next. -/
inductive Moves (stage next : Stage) : Prop
  /-- It stays where it is. -/
  | stays : next.scan.cursor = stage.scan.cursor → next.phase ≠ .puttingBack → Moves stage next
  /-- It passes a character, and only a name character will be put back. -/
  | passes (mark : Char) : stage.scan.cursor.next? = some (mark, next.scan.cursor) →
      (next.phase = .puttingBack → isNameChar mark = true) → Moves stage next
  /-- It puts a character back. -/
  | putsBack : stage.phase = .puttingBack → next.phase = .inName .elements [] →
      next.scan.cursor = stage.scan.cursor.back → Moves stage next

theorem behindFirst_eq_puttingBack {mark : Char}
    (first : Phase.behindFirst mark = .puttingBack) : isNameChar mark = true := by
  by_contra other
  unfold Phase.behindFirst at first
  rw [if_neg other] at first
  split_ifs at first

/-- No step moves the cursor in another way. -/
theorem moves_step (stage : Stage) : stage.Moves stage.step := by
  obtain ⟨phase, scan⟩ := stage
  match phase with
  | .between =>
    unfold step
    dsimp only
    split
    · exact .stays rfl nofun
    · next mark after passed => exact .passes mark passed behindFirst_eq_puttingBack
  | .puttingBack => exact .putsBack rfl rfl rfl
  | .behindColon =>
    unfold step
    dsimp only
    split
    · next after passed => exact .passes ':' passed nofun
    · exact .stays rfl nofun
  | .inName category name =>
    unfold step
    dsimp only
    split
    · exact .stays (cursor_emit scan _) nofun
    · next mark after passed =>
      split
      · exact .passes mark passed nofun
      · split
        · exact .stays rfl nofun
        · exact .stays (cursor_emit scan _) nofun
  | .inArgument name depth =>
    unfold step
    dsimp only
    split
    · exact .stays (cursor_emit scan _) nofun
    · next mark after passed =>
      split
      · exact .passes mark (by rw [cursor_emit]; exact passed) nofun
      · exact .passes mark passed nofun
  | .inBrackets key? passed =>
    unfold step
    dsimp only
    split
    · exact .stays (cursor_emit scan _) nofun
    · next mark after passed =>
      split
      · exact .passes mark (by rw [cursor_emit]; exact passed) nofun
      · split
        · exact .passes mark passed nofun
        · exact .passes mark passed nofun
  | .finished => exact .stays rfl nofun

theorem text_step (stage : Stage) : stage.step.scan.cursor.text = stage.scan.cursor.text := by
  cases stage.moves_step with
  | stays same => rw [same]
  | passes mark passed => exact (Cursor.text_next? passed).1
  | putsBack _ _ back => rw [back, Cursor.text_back]

/-- The stage is one that a scan comes to when it has gone on from between two segments at a
position. -/
inductive IsPast (start : Nat) (stage : Stage) : Prop
  /-- The position is behind the start, and if a character is put back then one of a name. -/
  | passed : start < stage.position → (stage.phase = .puttingBack →
      stage.scan.cursor.behind.head?.any isNameChar = true) → IsPast start stage
  /-- The first character of a name has been put back. It is passed again, as it belongs to the
  name. -/
  | again : start = stage.position → stage.phase = .inName .elements [] →
      stage.scan.cursor.ahead.head?.any isNameChar = true → IsPast start stage
  /-- The selector has ended. -/
  | ended : start ≤ stage.position → stage.phase = .finished → IsPast start stage

variable {start : Nat} {stage : Stage}

theorem IsPast.le (past : stage.IsPast start) : start ≤ stage.position := by
  cases past with
  | passed far => exact far.le
  | again here => exact here.le
  | ended far => exact far

/-- Whenever a new segment begins, and whenever a character is put back, the start lies behind. -/
theorem IsPast.lt (past : stage.IsPast start)
    (between : stage.phase = .between ∨ stage.phase = .puttingBack) : start < stage.position := by
  cases past with
  | passed far => exact far
  | again _ phase => rw [phase] at between; simp at between
  | ended _ phase => rw [phase] at between; simp at between

theorem position_of_next? {next : Stage} {mark : Char}
    (passed : stage.scan.cursor.next? = some (mark, next.scan.cursor)) :
    next.position = stage.position + 1 := by
  rw [position, Cursor.position, (Cursor.text_next? passed).2]
  rfl

theorem position_step_of_puttingBack (back : stage.phase = .puttingBack)
    (there : 0 < stage.position) : stage.step.position + 1 = stage.position := by
  obtain ⟨_, ⟨⟨behind, ahead⟩, found⟩⟩ := stage
  obtain rfl := back
  cases behind with
  | nil => exact absurd there (Nat.lt_irrefl 0)
  | cons mark rest => rfl

/-- The first step from between two segments passes a character or ends the scan. -/
theorem isPast_step_of_between (between : stage.phase = .between) :
    stage.step.IsPast stage.position := by
  obtain ⟨_, ⟨⟨behind, ahead⟩, found⟩⟩ := stage
  obtain rfl := between
  cases ahead with
  | nil => exact .ended le_rfl rfl
  | cons mark rest =>
    exact .passed (Nat.lt_succ_self behind.length) fun first => behindFirst_eq_puttingBack first

/-- From between two segments a scan never comes back further than to where it was. -/
theorem IsPast.step (past : stage.IsPast start) : stage.step.IsPast start := by
  cases past with
  | passed far named =>
    cases stage.moves_step with
    | stays same other =>
      refine .passed ?_ fun back => absurd back other
      rwa [position, same]
    | passes mark passed isName =>
      refine .passed ?_ fun back => ?_
      · rw [position_of_next? passed]
        omega
      · rw [(Cursor.text_next? passed).2]
        exact isName back
    | putsBack back _ _ =>
      obtain ⟨_, ⟨⟨behind, ahead⟩, found⟩⟩ := stage
      obtain rfl := back
      cases behind with
      | nil => exact absurd far (Nat.not_lt_zero start)
      | cons mark rest =>
        -- When this character is all that has been passed, the position is the start again.
        rcases Nat.lt_or_eq_of_le (Nat.le_of_lt_succ far) with further | here
        · exact .passed further nofun
        · exact .again here rfl (named rfl)
  | again here phase ahead =>
    obtain ⟨_, ⟨⟨behind, _ | ⟨mark, rest⟩⟩, found⟩⟩ := stage
    · cases ahead
    · obtain rfl := phase
      -- The name cannot end in front of its first character.
      have isName : isNameChar mark = true := ahead
      have passed : step ⟨.inName .elements [], ⟨⟨behind, mark :: rest⟩, found⟩⟩ =
          ⟨.inName .elements [mark], ⟨⟨mark :: behind, rest⟩, found⟩⟩ :=
        if_pos isName
      rw [passed]
      refine .passed ?_ nofun
      rw [here]
      exact Nat.lt_succ_self behind.length
  | ended far phase =>
    obtain ⟨_, scan⟩ := stage
    obtain rfl := phase
    exact .ended far rfl

/-! ### Several steps -/

theorem text_iterate (stage : Stage) (steps : Nat) :
    (Stage.step^[steps] stage).scan.cursor.text = stage.scan.cursor.text := by
  induction steps with
  | zero => rfl
  | succ steps inductionHypothesis =>
    rw [Function.iterate_succ_apply', text_step, inductionHypothesis]

theorem IsPast.iterate (past : stage.IsPast start) (steps : Nat) :
    (Stage.step^[steps] stage).IsPast start := by
  induction steps with
  | zero => exact past
  | succ steps inductionHypothesis =>
    rw [Function.iterate_succ_apply']
    exact inductionHypothesis.step

/-- From one stage a scan comes to another in no more than so many steps. -/
def Reaches (bound : Nat) (first last : Stage) : Prop :=
  ∃ steps ≤ bound, Stage.step^[steps] first = last

namespace Reaches

variable {bound further : Nat} {first middle last : Stage}

theorem refl (stage : Stage) : Reaches 0 stage stage :=
  ⟨0, le_rfl, rfl⟩

theorem one (step : first.step = last) : Reaches 1 first last :=
  ⟨1, le_rfl, step⟩

theorem mono (reaches : Reaches bound first last) (larger : bound ≤ further) :
    Reaches further first last := by
  obtain ⟨steps, atMost, same⟩ := reaches
  exact ⟨steps, atMost.trans larger, same⟩

theorem head (step : first.step = middle) (toLast : Reaches bound middle last) :
    Reaches (bound + 1) first last := by
  obtain ⟨steps, atMost, rfl⟩ := toLast
  exact ⟨steps + 1, Nat.succ_le_succ atMost, by rw [Function.iterate_succ_apply, step]⟩

theorem trans (toMiddle : Reaches bound first middle) (toLast : Reaches further middle last) :
    Reaches (bound + further) first last := by
  obtain ⟨steps, atMost, rfl⟩ := toMiddle
  obtain ⟨more, atMostMore, rfl⟩ := toLast
  refine ⟨steps + more, Nat.add_le_add atMost atMostMore, ?_⟩
  rw [Nat.add_comm, Function.iterate_add_apply]

end Reaches

end Stage

end Scan

end SelectorLexemes
