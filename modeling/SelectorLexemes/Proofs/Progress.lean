/-
This file proves that a scan makes progress, whatever it has been asked before. The steps of a run
agree with the reading of whole segments: in front of a segment of the grammar they pass this
segment and give its token, as the reader does, and there are at most four of them for each of its
characters. A run therefore ends, at the end of the selector and with the tokens of the reader. A
further run begins at the end and has nothing to do.
-/

import SelectorLexemes.Proofs.Segmentation
import SelectorLexemes.Proofs.Steps

namespace SelectorLexemes

namespace Scan

namespace Stage

/-! ### Passing a segment -/

section Segments

variable (behind rest : List Char) (found : Array Token)

/-- Characters that a phase does nothing with but add them to what it keeps are passed one by
one. -/
theorem reaches_text (phase : List Char → Phase) (kept : List Char) {text : List Char}
    (passes : ∀ mark ∈ text, ∀ kept behind ahead,
      step ⟨phase kept, ⟨⟨behind, mark :: ahead⟩, found⟩⟩ =
        ⟨phase (kept ++ [mark]), ⟨⟨mark :: behind, ahead⟩, found⟩⟩) :
    Reaches text.length ⟨phase kept, ⟨⟨behind, text ++ rest⟩, found⟩⟩
      ⟨phase (kept ++ text), ⟨⟨text.reverse ++ behind, rest⟩, found⟩⟩ := by
  induction text generalizing kept behind with
  | nil =>
    rw [List.append_nil]
    exact .refl _
  | cons mark more inductionHypothesis =>
    obtain ⟨passesFirst, passesMore⟩ := List.forall_mem_cons.mp passes
    have later := inductionHypothesis (mark :: behind) (kept ++ [mark]) passesMore
    rw [List.append_assoc, List.singleton_append] at later
    rw [List.reverse_cons, List.append_assoc, List.singleton_append]
    exact later.head (passesFirst kept behind (more ++ rest))

theorem reaches_name (category : Category) {name : List Char} (isName : IsName name) :
    Reaches name.length ⟨.inName category [], ⟨⟨behind, name ++ rest⟩, found⟩⟩
      ⟨.inName category name, ⟨⟨name.reverse ++ behind, rest⟩, found⟩⟩ :=
  reaches_text behind rest found (.inName category) [] fun mark member _ _ _ =>
    if_pos (isName mark member)

/-- A name ends where no name character follows, unless it is about to take an argument. -/
theorem step_inName_of_endsName (category : Category) (name : List Char)
    (ends : EndsName rest.head?)
    (plain : category ≠ .pseudoClasses ∨ ¬(takesArgument name ∧ rest.head? = some '(')) :
    step ⟨.inName category name, ⟨⟨behind, rest⟩, found⟩⟩ =
      ⟨.between, emit ⟨⟨behind, rest⟩, found⟩ (Token.named? category name)⟩ := by
  cases rest with
  | nil => rfl
  | cons mark more =>
    have other : ¬isNameChar mark = true := Bool.eq_false_iff.mp (ends mark rfl)
    have bare : ¬(category = .pseudoClasses ∧ mark = '(' ∧ takesArgument name = true) := by
      rintro ⟨same, rfl, takes⟩
      exact plain.elim (absurd same) (absurd ⟨takes, rfl⟩)
    show (if isNameChar mark = true then _ else if _ then _ else _) = _
    rw [if_neg other, if_neg bare]

/-- An argument that a character does not balance goes on behind it. -/
theorem reaches_argument_cons {name taken left : List Char} {depth further : Nat} {mark : Char}
    {token? : Option Token} (unbalanced : ¬(mark = ')' ∧ depth - 1 = 0))
    (counted : Text.depthAfter depth mark = further)
    (later : Reaches (taken.length + 1)
      ⟨.inArgument name further, ⟨⟨mark :: behind, rest⟩, found⟩⟩
      ⟨.between, emit ⟨⟨taken.reverse ++ mark :: behind, left⟩, found⟩ token?⟩) :
    Reaches ((mark :: taken).length + 1)
      ⟨.inArgument name depth, ⟨⟨behind, mark :: rest⟩, found⟩⟩
      ⟨.between, emit ⟨⟨(mark :: taken).reverse ++ behind, left⟩, found⟩ token?⟩ := by
  have passes : step ⟨.inArgument name depth, ⟨⟨behind, mark :: rest⟩, found⟩⟩ =
      ⟨.inArgument name (Text.depthAfter depth mark), ⟨⟨mark :: behind, rest⟩, found⟩⟩ :=
    if_neg unbalanced
  rw [counted] at passes
  rw [List.reverse_cons, List.append_assoc]
  exact later.head passes

/-- An argument ends with the parenthesis that balances it or with the selector. -/
theorem reaches_argument (name : List Char) (depth : Nat) (ahead : List Char) :
    Reaches ((Text.splitBalanced depth ahead).1.length + 1)
      ⟨.inArgument name depth, ⟨⟨behind, ahead⟩, found⟩⟩
      ⟨.between, emit ⟨⟨(Text.splitBalanced depth ahead).1.reverse ++ behind,
        (Text.splitBalanced depth ahead).2⟩, found⟩ (Token.named? .pseudoClasses name)⟩ := by
  fun_induction Text.splitBalanced depth ahead generalizing behind with
  | case1 depth => exact .one rfl
  | case2 depth rest taken left parts inductionHypothesis =>
    have later := inductionHypothesis ('(' :: behind)
    rw [parts] at later
    exact reaches_argument_cons behind rest found (by simp) rfl later
  | case3 depth rest balanced =>
    have ends : step ⟨.inArgument name depth, ⟨⟨behind, ')' :: rest⟩, found⟩⟩ =
        ⟨.between, emit ⟨⟨')' :: behind, rest⟩, found⟩ (Token.named? .pseudoClasses name)⟩ :=
      if_pos ⟨rfl, balanced⟩
    exact (Reaches.one ends).mono (Nat.le_add_left 1 _)
  | case4 depth rest remaining counted taken left parts _ inductionHypothesis =>
    have later := inductionHypothesis (')' :: behind)
    rw [parts] at later
    exact reaches_argument_cons behind rest found (by omega) counted later
  | case5 depth mark rest opening closing taken left parts inductionHypothesis =>
    have later := inductionHypothesis (mark :: behind)
    rw [parts] at later
    have counted : Text.depthAfter depth mark = depth := by
      rw [Text.depthAfter, if_neg opening, if_neg closing]
    exact reaches_argument_cons behind rest found (fun balanced => closing balanced.1) counted later

/-- Between brackets everything is kept but the first equals sign. -/
theorem reaches_content (key? : Option (List Char)) {content : List Char}
    (unclosed : ']' ∉ content) (unsplit : key? = none → '=' ∉ content) :
    Reaches content.length ⟨.inBrackets key? [], ⟨⟨behind, content ++ rest⟩, found⟩⟩
      ⟨.inBrackets key? content, ⟨⟨content.reverse ++ behind, rest⟩, found⟩⟩ := by
  refine reaches_text behind rest found (.inBrackets key?) [] fun mark member _ _ _ => ?_
  have notClosing : mark ≠ ']' := fun same => unclosed (same ▸ member)
  have notSplitting : ¬(mark = '=' ∧ key? = none) := fun ⟨same, unknown⟩ =>
    unsplit unknown (same ▸ member)
  exact (if_neg notClosing).trans (if_neg notSplitting)

/-- Behind the content of brackets it is known what token they give. -/
theorem exists_reaches_brackets {content : List Char} (unclosed : ']' ∉ content) :
    ∃ key? passed, bracketToken? key? passed = Segment.attributeToken? content ∧
      Reaches content.length ⟨.inBrackets none [], ⟨⟨behind, content ++ rest⟩, found⟩⟩
        ⟨.inBrackets key? passed, ⟨⟨content.reverse ++ behind, rest⟩, found⟩⟩ := by
  obtain ⟨key, value, sides⟩ := exists_hasSides content
  have token := Segment.attributeToken?_of_hasSides content key value sides
  obtain ⟨unsplit, rfl | ⟨rfl, rfl⟩⟩ := sides
  · obtain ⟨unclosedKey, unclosedRest⟩ := not_or.mp (mt List.mem_append.mpr unclosed)
    have unclosedValue := (List.ne_and_not_mem_of_not_mem_cons unclosedRest).2
    have toKey := reaches_content behind ('=' :: value ++ rest) found none unclosedKey fun _ => unsplit
    have split : step ⟨.inBrackets none key,
          ⟨⟨key.reverse ++ behind, '=' :: (value ++ rest)⟩, found⟩⟩ =
        ⟨.inBrackets (some key) [], ⟨⟨'=' :: (key.reverse ++ behind), value ++ rest⟩, found⟩⟩ :=
      rfl
    have toValue := reaches_content ('=' :: (key.reverse ++ behind)) rest found (some key)
      unclosedValue nofun
    refine ⟨some key, value, token.symm, ?_⟩
    rw [List.append_assoc, List.length_append, List.length_cons, List.reverse_append,
      List.reverse_cons, List.append_assoc, List.append_assoc]
    exact toKey.trans (toValue.head split)
  · exact ⟨none, _, token.symm, reaches_content behind rest found none unclosed
      fun _ => unsplit⟩

/-- The name of a segment is passed and gives its token, unless an argument follows. -/
theorem reaches_named (category : Category) {name : List Char} (isName : IsName name)
    (ends : EndsName rest.head?)
    (plain : category ≠ .pseudoClasses ∨ ¬(takesArgument name ∧ rest.head? = some '(')) :
    Reaches (name.length + 1) ⟨.inName category [], ⟨⟨behind, name ++ rest⟩, found⟩⟩
      ⟨.between, emit ⟨⟨name.reverse ++ behind, rest⟩, found⟩ (Token.named? category name)⟩ :=
  (reaches_name behind rest found category isName).trans
    (.one (step_inName_of_endsName (name.reverse ++ behind) rest found category name ends plain))

theorem step_behindColon_of_ne {ahead : List Char} (single : ahead.head? ≠ some ':') :
    step ⟨.behindColon, ⟨⟨behind, ahead⟩, found⟩⟩ =
      ⟨.inName .pseudoClasses [], ⟨⟨behind, ahead⟩, found⟩⟩ := by
  unfold step
  dsimp only
  split
  · next after passed =>
    have colon : ahead = ':' :: after.ahead := Cursor.ahead_of_next? passed
    exact absurd (congrArg List.head? colon) single
  · rfl

theorem reaches_pseudoClass {name argument : List Char} (isName : IsName name)
    (ends : EndsName (argument ++ rest).head?)
    (single : (name ++ (argument ++ rest)).head? ≠ some ':')
    (fits : Segment.FitsArgument name argument rest.head?) :
    Reaches (name.length + argument.length + 3)
      ⟨.behindColon, ⟨⟨behind, name ++ (argument ++ rest)⟩, found⟩⟩
      ⟨.between, emit ⟨⟨argument.reverse ++ (name.reverse ++ behind), rest⟩, found⟩
        (Token.named? .pseudoClasses name)⟩ := by
  have colon := step_behindColon_of_ne behind found single
  rw [Segment.FitsArgument, ← List.head?_append] at fits
  split at fits
  · next takes =>
    obtain ⟨more, parts⟩ := List.head?_eq_some_iff.mp takes.2
    -- The parenthesis is only looked at here; it is the first character that the argument passes.
    have toArgument : step ⟨.inName .pseudoClasses name,
          ⟨⟨name.reverse ++ behind, argument ++ rest⟩, found⟩⟩ =
        ⟨.inArgument name 0, ⟨⟨name.reverse ++ behind, argument ++ rest⟩, found⟩⟩ := by
      rw [parts]
      exact if_pos ⟨rfl, rfl, takes.1⟩
    have toEnd := reaches_argument (name.reverse ++ behind) found name 0 (argument ++ rest)
    rw [Text.splitBalanced_of_isArgument argument rest fits] at toEnd
    dsimp only at toEnd
    have toName := reaches_name behind (argument ++ rest) found .pseudoClasses isName
    exact ((toName.trans (toEnd.head toArgument)).head colon).mono (by omega)
  · next plain =>
    subst fits
    exact ((reaches_named behind rest found .pseudoClasses isName ends (Or.inr plain)).head
      colon).mono (by omega)

theorem reaches_attribute {content : List Char} {closed : Bool} (free : ']' ∉ content)
    (ends : closed = true ∨ rest.head? = none) :
    Reaches (content.length + 1)
      ⟨.inBrackets none [], ⟨⟨behind, content ++ ((if closed then [']'] else []) ++ rest)⟩, found⟩⟩
      ⟨.between, emit ⟨⟨(if closed then [']'] else []).reverse ++ (content.reverse ++ behind),
        rest⟩, found⟩ (Segment.attributeToken? content)⟩ := by
  obtain ⟨key?, passed, token, toEnd⟩ :=
    exists_reaches_brackets behind ((if closed then [']'] else []) ++ rest) found free
  rw [← token]
  refine toEnd.trans (.one ?_)
  cases closed with
  | true => rfl
  | false =>
    obtain rfl : rest = [] := List.head?_eq_none_iff.mp (ends.resolve_left Bool.false_ne_true)
    rfl

/-- A mark and a name behind it are passed and give the token of the name. -/
theorem reaches_marked {mark : Char} {category : Category} {name : List Char}
    (begins : Phase.behindFirst mark = .inName category []) (other : category ≠ .pseudoClasses)
    (isName : IsName name) (ends : EndsName rest.head?) :
    Reaches (name.length + 2) ⟨.between, ⟨⟨behind, mark :: name ++ rest⟩, found⟩⟩
      ⟨.between, emit ⟨⟨(mark :: name).reverse ++ behind, rest⟩, found⟩
        (Token.named? category name)⟩ := by
  have first : step ⟨.between, ⟨⟨behind, mark :: (name ++ rest)⟩, found⟩⟩ =
      ⟨.inName category [], ⟨⟨mark :: behind, name ++ rest⟩, found⟩⟩ := by
    rw [← begins]
    rfl
  have toEnd := reaches_named (mark :: behind) rest found category isName ends (Or.inl other)
  rw [List.reverse_cons, List.append_assoc]
  exact toEnd.head first

/-- A segment of the grammar is passed in a number of steps that is linear in its length. -/
theorem reaches_of_fitsBefore {segment : Segment} (fits : segment.FitsBefore rest.head?) :
    Reaches (4 * segment.text.length) ⟨.between, ⟨⟨behind, segment.text ++ rest⟩, found⟩⟩
      ⟨.between, emit ⟨⟨segment.text.reverse ++ behind, rest⟩, found⟩ segment.token?⟩ := by
  have first : ∀ (mark : Char) (more : List Char),
      step ⟨.between, ⟨⟨behind, mark :: more⟩, found⟩⟩ =
        ⟨.behindFirst mark, ⟨⟨mark :: behind, more⟩, found⟩⟩ :=
    fun _ _ => rfl
  match segment, fits with
  | .separator mark, fits =>
    obtain ⟨notName, dot, hash, colon, bracket⟩ := (isSeparator_iff mark).mp fits
    have separates : Phase.behindFirst mark = .between := by
      simp [Phase.behindFirst, dot, hash, colon, bracket, notName]
    have passes := first mark rest
    rw [separates] at passes
    exact (Reaches.one passes).mono (by simp [Segment.text])
  | .element name, ⟨nonempty, isName, ends⟩ =>
    obtain ⟨mark, more, rfl⟩ := List.exists_cons_of_ne_nil nonempty
    have named := isName mark List.mem_cons_self
    have begins : Phase.behindFirst mark = .puttingBack := by
      simp [Phase.behindFirst, named,
        ne_of_isNameChar named (by decide : isNameChar '.' = false),
        ne_of_isNameChar named (by decide : isNameChar '#' = false),
        ne_of_isNameChar named (by decide : isNameChar ':' = false),
        ne_of_isNameChar named (by decide : isNameChar '[' = false)]
    have passes := first mark (more ++ rest)
    rw [begins] at passes
    have toEnd := reaches_named behind rest found .elements isName ends (Or.inl (by decide))
    refine ((toEnd.head rfl).head passes).mono ?_
    rw [Segment.text, List.length_cons]
    omega
  | .classSelector name, ⟨isName, ends⟩ =>
    have begins : Phase.behindFirst '.' = .inName .classes [] := rfl
    refine (reaches_marked behind rest found begins (by decide) isName ends).mono ?_
    rw [Segment.text, List.length_cons]
    omega
  | .idSelector name, ⟨isName, ends⟩ =>
    have begins : Phase.behindFirst '#' = .inName .ids [] := rfl
    refine (reaches_marked behind rest found begins (by decide) isName ends).mono ?_
    rw [Segment.text, List.length_cons]
    omega
  | .pseudoElement name, ⟨isName, ends⟩ =>
    have toEnd := reaches_named (':' :: ':' :: behind) rest found .pseudoElements isName ends
      (Or.inl (by decide))
    rw [Segment.text, List.reverse_cons, List.reverse_cons, List.append_assoc, List.append_assoc]
    refine ((toEnd.head rfl).head (first ':' _)).mono ?_
    rw [List.length_cons, List.length_cons]
    omega
  | .pseudoClass name argument, ⟨isName, ends, single, fits⟩ =>
    rw [← List.head?_append] at ends
    rw [← List.head?_append, ← List.head?_append] at single
    have toEnd := reaches_pseudoClass (':' :: behind) rest found isName ends single fits
    rw [Segment.text, List.append_assoc, List.reverse_append, List.reverse_cons, List.append_assoc,
      List.append_assoc]
    refine (toEnd.head (first ':' _)).mono ?_
    rw [List.length_append, List.length_cons]
    omega
  | .attribute content closed, ⟨free, ends⟩ =>
    have toEnd := reaches_attribute ('[' :: behind) rest found free ends
    rw [Segment.text, List.append_assoc, List.reverse_append, List.reverse_cons, List.append_assoc,
      List.append_assoc]
    refine (toEnd.head (first '[' _)).mono ?_
    rw [List.length_append, List.length_cons]
    omega

end Segments

end Stage

/-! ### Runs -/

theorem record_eq_emit (scan : Scan) (segment : Segment) (after : Cursor) :
    scan.record segment after = (scan.moveTo after).emit segment.token? := by
  unfold record
  split <;> next given => rw [given]; rfl

/-- A segment is read in a number of steps that is linear in its length, and then the cursor is
behind it. -/
theorem reaches_of_readSegment? {scan : Scan} {segment : Segment} {after : Cursor}
    (read : scan.cursor.readSegment? = some (segment, after)) :
    Stage.Reaches (4 * segment.text.length) ⟨.between, scan⟩
        ⟨.between, scan.record segment after⟩ ∧
      after.position = scan.cursor.position + segment.text.length := by
  obtain ⟨parts, fits⟩ := Cursor.fitsBefore_of_readSegment? read
  obtain ⟨⟨behind, ahead⟩, found⟩ := scan
  obtain ⟨passed, rest⟩ := after
  obtain rfl : ahead = segment.text ++ rest := parts
  have same := Cursor.readSegment?_of_fitsBefore behind rest segment fits
  rw [read, Option.some.injEq, Prod.mk.injEq, Cursor.mk.injEq] at same
  obtain ⟨_, rfl, _⟩ := same
  rw [record_eq_emit]
  refine ⟨Stage.reaches_of_fitsBefore behind rest found fits, ?_⟩
  rw [Cursor.position, Cursor.position, List.length_append, List.length_reverse, Nat.add_comm]

/-- A run ends after a number of steps that is linear in what is ahead of the cursor. -/
theorem reaches_run (scan : Scan) :
    Stage.Reaches (4 * scan.cursor.ahead.length + 1) ⟨.between, scan⟩ ⟨.finished, scan.run⟩ := by
  fun_induction run scan with
  | case1 scan read =>
    have ended := (Cursor.readSegment?_eq_none_iff scan.cursor).mp read
    obtain ⟨⟨behind, ahead⟩, found⟩ := scan
    obtain rfl : ahead = [] := ended
    exact (Stage.Reaches.one rfl).mono (Nat.le_add_left 1 _)
  | case2 scan segment after read inductionHypothesis =>
    obtain ⟨toNext, _⟩ := reaches_of_readSegment? read
    rw [cursor_record] at inductionHypothesis
    refine (toNext.trans inductionHypothesis).mono ?_
    rw [(Cursor.fitsBefore_of_readSegment? read).1, List.length_append]
    omega

theorem ahead_run (scan : Scan) : scan.run.cursor.ahead = [] := by
  fun_induction run scan with
  | case1 scan read => exact (Cursor.readSegment?_eq_none_iff scan.cursor).mp read
  | case2 scan segment after read inductionHypothesis => exact inductionHypothesis

theorem text_run (scan : Scan) : scan.run.cursor.text = scan.cursor.text := by
  obtain ⟨steps, _, ends⟩ := reaches_run scan
  have kept := Stage.text_iterate ⟨.between, scan⟩ steps
  rwa [ends] at kept

theorem position_run (scan : Scan) : scan.run.cursor.position = scan.cursor.text.length := by
  rw [← text_run, Cursor.text, ahead_run, List.append_nil, List.length_reverse]
  rfl

/-- A run that begins at the end of the selector changes nothing. -/
theorem run_run (scan : Scan) : scan.run.run = scan.run := by
  have ended := (Cursor.readSegment?_eq_none_iff scan.run.cursor).mpr scan.ahead_run
  rw [run]
  split
  · rfl
  · next read => rw [ended] at read; cases read

/-! ### Calls -/

/-- What may be asked of a scan. -/
inductive Call where
  /-- To run. -/
  | run
  /-- To tell its tokens. -/
  | tokens
deriving DecidableEq

/-- The scan behind a call. -/
def call (scan : Scan) : Call → Scan
  | .run => scan.run
  | .tokens => scan

/-- The scan behind several calls. -/
def after (scan : Scan) (calls : List Call) : Scan :=
  calls.foldl call scan

/-- Only the first run matters. -/
theorem after_eq (scan : Scan) (calls : List Call) :
    scan.after calls = if .run ∈ calls then scan.run else scan := by
  induction calls generalizing scan with
  | nil => rfl
  | cons first rest inductionHypothesis =>
    cases first with
    | run =>
      show scan.run.after rest = _
      rw [inductionHypothesis, run_run, ite_self, if_pos List.mem_cons_self]
    | tokens =>
      show scan.after rest = _
      rw [inductionHypothesis]
      simp

/-! ### Progress -/

/-- The stage that the run of a scan comes to in a number of steps. -/
def stageAt (scan : Scan) (steps : Nat) : Stage :=
  Stage.step^[steps] ⟨.between, scan⟩

theorem isPast_stageAt {scan : Scan} {earlier later : Nat} (before : earlier < later)
    (between : (scan.stageAt earlier).phase = .between) :
    (scan.stageAt later).IsPast (scan.stageAt earlier).position := by
  obtain ⟨more, rfl⟩ := Nat.exists_eq_add_of_lt before
  have onward := (Stage.isPast_step_of_between between).iterate more
  rw [stageAt, ← Function.iterate_succ_apply' Stage.step, ← Function.iterate_add_apply] at onward
  rwa [stageAt, show earlier + more + 1 = more + (earlier + 1) by omega]

/-- The run of a scan goes through a selector. -/
structure RunsThrough (scan : Scan) (selector : String) : Prop where
  /-- The cursor stays on the selector and never leaves it. -/
  inside : ∀ steps, (scan.stageAt steps).scan.cursor.text = selector.toList ∧
    (scan.stageAt steps).position ≤ selector.length
  /-- The position never comes back to what is in front of the beginning of a segment. -/
  onward : ∀ earlier later, earlier ≤ later → (scan.stageAt earlier).phase = .between →
    (scan.stageAt earlier).position ≤ (scan.stageAt later).position
  /-- Every segment begins behind the beginning of those before it. -/
  further : ∀ earlier later, earlier < later → (scan.stageAt earlier).phase = .between →
    (scan.stageAt later).phase = .between →
      (scan.stageAt earlier).position < (scan.stageAt later).position
  /-- A character is put back only when there is one, and then it is. -/
  putsBack : ∀ steps, (scan.stageAt steps).phase = .puttingBack →
    0 < (scan.stageAt steps).position ∧
      (scan.stageAt (steps + 1)).position + 1 = (scan.stageAt steps).position
  /-- Between two segments the next one is passed and recorded, if there is one. -/
  segmentwise : ∀ steps segment after, (scan.stageAt steps).phase = .between →
    (scan.stageAt steps).scan.cursor.readSegment? = some (segment, after) →
      (scan.stageAt steps).position < after.position ∧
        ∃ later > steps, scan.stageAt later =
          ⟨.between, (scan.stageAt steps).scan.record segment after⟩
  /-- The run comes to its end, which is the end of the selector. -/
  ends : (∃ steps ≤ 4 * selector.length + 1, scan.stageAt steps = ⟨.finished, scan.run⟩) ∧
    scan.run.cursor.position = selector.length

theorem exists_later_of_readSegment? {scan : Scan} {steps : Nat} {segment : Segment}
    {after : Cursor} (between : (scan.stageAt steps).phase = .between)
    (read : (scan.stageAt steps).scan.cursor.readSegment? = some (segment, after)) :
    (scan.stageAt steps).position < after.position ∧
      ∃ later > steps, scan.stageAt later =
        ⟨.between, (scan.stageAt steps).scan.record segment after⟩ := by
  obtain ⟨⟨more, _, comes⟩, position⟩ := reaches_of_readSegment? read
  have longer := List.length_pos_iff.mpr
    (Segment.text_ne_nil (Cursor.fitsBefore_of_readSegment? read).2)
  have advances : (scan.stageAt steps).position < after.position := by
    rw [position]
    exact Nat.lt_add_of_pos_right longer
  have here : (⟨.between, (scan.stageAt steps).scan⟩ : Stage) = scan.stageAt steps := by
    rw [← between]
  rw [here] at comes
  -- Without a step the cursor would still be where it was.
  have takesSteps : more ≠ 0 := by
    rintro rfl
    have same := congrArg Stage.position comes
    rw [Function.iterate_zero_apply, Stage.position, Stage.position, cursor_record] at same
    exact advances.ne same
  refine ⟨advances, more + steps, by omega, ?_⟩
  rw [stageAt, Function.iterate_add_apply]
  exact comes

theorem runsThrough_of_text {scan : Scan} {selector : String}
    (text : scan.cursor.text = selector.toList) : scan.RunsThrough selector := by
  have stays : ∀ steps, (scan.stageAt steps).scan.cursor.text = selector.toList := fun steps =>
    (Stage.text_iterate ⟨.between, scan⟩ steps).trans text
  have size : selector.length = scan.cursor.text.length := by
    rw [text, String.length_toList]
  constructor
  case inside =>
    refine fun steps => ⟨stays steps, ?_⟩
    rw [size, text, ← stays steps]
    exact Cursor.position_le_length_text _
  case onward =>
    intro earlier later before between
    rcases Nat.lt_or_eq_of_le before with sooner | rfl
    · exact (isPast_stageAt sooner between).le
    · exact le_rfl
  case further =>
    intro earlier later before between again
    exact (isPast_stageAt before between).lt (Or.inl again)
  case putsBack =>
    intro steps back
    have later : 0 < steps := by
      refine Nat.pos_of_ne_zero ?_
      rintro rfl
      cases back
    have there := Nat.zero_lt_of_lt ((isPast_stageAt later rfl).lt (Or.inr back))
    refine ⟨there, ?_⟩
    rw [stageAt, Function.iterate_succ_apply']
    exact Stage.position_step_of_puttingBack back there
  case segmentwise =>
    intro steps segment after between read
    exact exists_later_of_readSegment? between read
  case ends =>
    obtain ⟨steps, atMost, ends⟩ := reaches_run scan
    refine ⟨⟨steps, atMost.trans ?_, ends⟩, by rw [position_run, size]⟩
    rw [size, Cursor.text, List.length_append]
    omega

/-- A scan makes progress, whatever has been asked of it before. Its runs stay on the selector,
never come back to what is in front of a segment that has begun, begin every segment further on
and put a character back only when there is one. They come to the end of the selector in a number
of steps that is linear in its length. There are no tokens before the first run, and every further
run leaves those of the first as they are. -/
theorem run_makes_progress (selector : String) (calls : List Call) :
    ((ofSelector selector).after calls).RunsThrough selector ∧
      ((ofSelector selector).after calls).tokens =
        if .run ∈ calls then (ofSelector selector).run.tokens else [] := by
  rw [after_eq]
  split
  · exact ⟨runsThrough_of_text (text_run _), rfl⟩
  · exact ⟨runsThrough_of_text rfl, rfl⟩

/-- The first character of the name is passed, put back and passed again. -/
example : (List.range 6).map (fun steps => ((ofSelector "a>").stageAt steps).position) =
    [0, 1, 0, 1, 1, 2] := by
  rfl

end Scan

end SelectorLexemes
