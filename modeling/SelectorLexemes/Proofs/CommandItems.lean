/-
This file says what command lines are made of. A command line spells a sequence of items: flags,
fields with their values, and selectors. Every item has a few spellings, and behind two hyphens
there are selectors only.

The reading of a command line keeps a value back until the next switch or selector is taken up.
This makes no difference in the end: a command line is read like the items that it spells, taken
up one after another with nothing kept back. Conversely, whatever is read without an interruption
spells some items. What holds of every command line can therefore be said about items.
-/

import Mathlib.Data.List.Basic
import SelectorLexemes.CommandLine.Reading

namespace SelectorLexemes

/-! ### Names and letters -/

/-- The letter of a switch, if it has one. -/
def Switch.letter? : Switch → Option Char
  | .flag .interactive => some 'i'
  | .flag .quiet => some 'q'
  | .flag .help => some 'h'
  | .flag .version => some 'V'
  | .field .file => some 'f'
  | _ => none

theorem Switch.ofLetter?_eq_some_iff {letter : Char} {switch : Switch} :
    ofLetter? letter = some switch ↔ switch.letter? = some letter := by
  constructor
  · intro named
    unfold ofLetter? at named
    split at named <;> cases named <;> rfl
  · intro named
    unfold letter? at named
    split at named <;> cases named <;> rfl

theorem Switch.name_of_ofName? {name : String} {switch : Switch}
    (named : ofName? name = some switch) : switch.name = "--" ++ name := by
  unfold ofName? at named
  split at named <;> cases named <;> rfl

theorem Switch.letter?_ne_hyphen (switch : Switch) : switch.letter? ≠ some '-' := by
  intro hyphen
  unfold letter? at hyphen
  split at hyphen <;> cases hyphen

/-! ### Items -/

/-- A part of a command line. -/
inductive Item where
  /-- A flag is given. -/
  | flag (flag : Flag)
  /-- A field is given this value. -/
  | field (field : Field) (value : String)
  /-- A selector is given. -/
  | selector (text : String)
deriving DecidableEq

/-- An argument that is no switch: a lone hyphen, or one that does not start with a hyphen. -/
def Reading.IsPlain (argument : String) : Prop :=
  argument = "-" ∨ argument.toList.head? ≠ some '-'

instance (argument : String) : Decidable (Reading.IsPlain argument) :=
  inferInstanceAs (Decidable (_ ∨ _))

namespace Item

/-- The letters are those of the flags. -/
def AreLettersOf (letters : List Char) (flags : List Flag) : Prop :=
  flags.map (fun flag => Switch.letter? (.flag flag)) = letters.map some

/-- What stands behind the letters of flags, in the same argument and behind it: nothing, or the
letter of a field with its value. -/
inductive Ending : List Char → List String → List Item → Prop
  /-- Nothing. -/
  | nothing : Ending [] [] []
  /-- The value is an argument of its own. -/
  | apart {field : Field} {letter : Char} {value : String} :
      Switch.letter? (.field field) = some letter → Reading.IsPlain value →
      Ending [letter] [value] [.field field value]
  /-- The value follows an equals sign. -/
  | equals {field : Field} {letter : Char} (value : String) :
      Switch.letter? (.field field) = some letter →
      Ending (letter :: '=' :: value.toList) [] [.field field value]
  /-- The value follows the letter. -/
  | joined {field : Field} {letter : Char} (value : String) :
      Switch.letter? (.field field) = some letter → value ≠ "" →
      value.toList.head? ≠ some '=' →
      Ending (letter :: value.toList) [] [.field field value]

/-- The arguments spell the items and cannot be taken apart. -/
inductive Group : List String → List Item → Prop
  /-- A selector stands for itself. -/
  | selector {text : String} : Reading.IsPlain text → Group [text] [.selector text]
  /-- The long name of a flag. -/
  | flag (flag : Flag) : Group [flag.name] [.flag flag]
  /-- The long name of a field, and its value. -/
  | field (field : Field) {value : String} :
      Reading.IsPlain value → Group [field.name, value] [.field field value]
  /-- The long name of a field and its value in one argument. -/
  | fieldEquals (field : Field) (value : String) :
      Group [field.name ++ "=" ++ value] [.field field value]
  /-- Letters of flags, and of a field at the end, behind one hyphen. -/
  | letters {argument : String} {letters ending : List Char} {flags : List Flag}
      {back : List String} {items : List Item} :
      AreLettersOf letters flags → Ending ending back items → letters ++ ending ≠ [] →
      argument.toList = '-' :: (letters ++ ending) →
      Group (argument :: back) (flags.map .flag ++ items)

/-- The arguments spell the items. -/
inductive Spells : List String → List Item → Prop
  /-- No arguments. -/
  | done : Spells [] []
  /-- Selectors behind two hyphens. -/
  | selectors (texts : List String) : Spells ("--" :: texts) (texts.map .selector)
  /-- A group in front of other arguments. -/
  | group {front back : List String} {items more : List Item} :
      Group front items → Spells back more → Spells (front ++ back) (items ++ more)

theorem head?_ne_hyphen {letters ending : List Char} {flags : List Flag} {back : List String}
    {items : List Item} (areLetters : AreLettersOf letters flags)
    (ends : Ending ending back items) : (letters ++ ending).head? ≠ some '-' := by
  cases letters with
  | nil =>
    cases ends with
    | nothing => simp
    | apart named | equals _ named | joined _ named =>
      rw [List.nil_append, List.head?_cons, ← named]
      exact Switch.letter?_ne_hyphen _
  | cons letter rest =>
    obtain ⟨flag, others, rfl⟩ := List.exists_cons_of_ne_nil (l := flags) (by
      rintro rfl
      cases areLetters)
    have named := (List.cons.inj areLetters).1
    rw [List.cons_append, List.head?_cons, ← named]
    exact Switch.letter?_ne_hyphen _

theorem ne_hyphens_of_isPlain {value : String} (plain : Reading.IsPlain value) : "--" ≠ value := by
  rintro rfl
  revert plain
  simp [Reading.IsPlain]

theorem Ending.free {ending : List Char} {back : List String} {items : List Item}
    (ends : Ending ending back items) : "--" ∉ back := by
  cases ends with
  | apart _ plain => exact mt List.mem_singleton.mp (ne_hyphens_of_isPlain plain)
  | nothing | equals | joined => exact List.not_mem_nil

theorem Group.ne_nil {arguments : List String} {items : List Item}
    (group : Group arguments items) : arguments ≠ [] := by
  cases group <;> exact List.cons_ne_nil _ _

theorem Group.free {arguments : List String} {items : List Item} (group : Group arguments items) :
    "--" ∉ arguments := by
  cases group with
  | selector plain => exact mt List.mem_singleton.mp (ne_hyphens_of_isPlain plain)
  | flag flag => cases flag <;> decide
  | field field plain =>
    have other : "--" ≠ field.name := by cases field <;> decide
    simp [other, ne_hyphens_of_isPlain plain]
  | fieldEquals field value =>
    rw [List.mem_singleton]
    intro same
    have marks := congrArg String.toList same
    cases field <;> simp [Field.name] at marks
  | letters areLetters ends nonempty marks =>
    refine List.not_mem_cons_of_ne_of_not_mem ?_ ends.free
    rintro rfl
    refine head?_ne_hyphen areLetters ends ?_
    rw [← (List.cons.inj marks).2]
    rfl

theorem Spells.append {front back : List String} {items more : List Item}
    (spells : Spells front items) (free : "--" ∉ front) (behind : Spells back more) :
    Spells (front ++ back) (items ++ more) := by
  induction spells with
  | done => exact behind
  | selectors texts => exact absurd List.mem_cons_self free
  | group first _ inductionHypothesis =>
    rw [List.append_assoc, List.append_assoc]
    exact .group first (inductionHypothesis fun member => free (List.mem_append_right _ member))

end Item

namespace Reading

/-! ### Taking up items -/

variable {reading next settled : Reading}

theorem bind_eq_ok {result : Except Interruption Reading}
    {proceed : Reading → Except Interruption Reading} :
    result >>= proceed = .ok next ↔ ∃ middle, result = .ok middle ∧ proceed middle = .ok next := by
  cases result with
  | error interruption =>
    constructor
    · intro failed
      cases failed
    · rintro ⟨_, ⟨⟩, _⟩
  | ok middle =>
    constructor
    · exact fun proceeded => ⟨middle, rfl, proceeded⟩
    · rintro ⟨_, ⟨⟩, proceeded⟩
      exact proceeded

/-- Equal ways to go on are equal where they are gone. -/
theorem bind_congr_ok {result : Except Interruption Reading}
    {proceed other : Reading → Except Interruption Reading}
    (same : ∀ middle, result = .ok middle → proceed middle = other middle) :
    result >>= proceed = result >>= other := by
  cases result with
  | error interruption => rfl
  | ok middle => exact same middle rfl

/-- The reading with more selectors. -/
def withSelectors (reading : Reading) (texts : List String) : Reading :=
  { reading with
    options := { reading.options with selectors := reading.options.selectors ++ texts } }

/-- What an item does when nothing is kept back. -/
def effect (reading : Reading) : Item → Except Interruption Reading
  | .flag flag => reading.raise flag
  | .field field value => reading.assign field value
  | .selector text => .ok (reading.withSelectors [text])

theorem awaiting_of_assign {field : Field} {value : String}
    (assigned : reading.assign field value = .ok next) : next.awaiting = reading.awaiting := by
  by_cases repeated : .field field ∈ reading.given
  · simp only [assign, if_pos repeated, reduceCtorEq] at assigned
  simp only [assign, if_neg repeated] at assigned
  cases field with
  | file =>
    by_cases empty : value = ""
    · simp only [if_pos empty, reduceCtorEq] at assigned
    · simp only [if_neg empty, Except.ok.injEq] at assigned
      rw [← assigned]
  | format =>
    cases named : Format.ofName? value with
    | none => simp only [named, reduceCtorEq] at assigned
    | some format =>
      simp only [named, Except.ok.injEq] at assigned
      rw [← assigned]
  | only =>
    cases named : Category.ofName? value with
    | none => simp only [named, reduceCtorEq] at assigned
    | some category =>
      simp only [named, Except.ok.injEq] at assigned
      rw [← assigned]
  | color =>
    cases named : ColorChoice.ofName? value with
    | none => simp only [named, reduceCtorEq] at assigned
    | some choice =>
      simp only [named, Except.ok.injEq] at assigned
      rw [← assigned]

theorem awaiting_of_raise {flag : Flag} (raised : reading.raise flag = .ok next) :
    next.awaiting = reading.awaiting := by
  by_cases repeated : .flag flag ∈ reading.given
  · simp only [raise, if_pos repeated, reduceCtorEq] at raised
  simp only [raise, if_neg repeated] at raised
  cases flag with
  | interactive | unique | quiet =>
    cases raised
    rfl
  | help | version => cases raised

theorem awaiting_of_effect {item : Item} (done : reading.effect item = .ok next) :
    next.awaiting = reading.awaiting := by
  cases item with
  | flag flag => exact awaiting_of_raise done
  | field field value => exact awaiting_of_assign done
  | selector text =>
    cases done
    rfl

/-- Nothing is kept back any more behind a value that was judged. -/
theorem awaiting_of_settle (settling : reading.settle = .ok settled) : settled.awaiting = none := by
  cases awaited : reading.awaiting with
  | none =>
    simp only [settle, awaited, Except.ok.injEq] at settling
    rw [← settling, awaited]
  | some pair =>
    obtain ⟨field, _ | value⟩ := pair
    · simp only [settle, awaited, reduceCtorEq] at settling
    · simp only [settle, awaited] at settling
      exact awaiting_of_assign settling

theorem settle_of_awaiting (reading : Reading) (idle : reading.awaiting = none) :
    reading.settle = .ok reading := by
  simp only [settle, idle]

/-! ### Steps of a reading -/

/-- No field waits for its value. -/
def IsReady (reading : Reading) : Prop :=
  ∀ field, reading.awaiting ≠ some (field, none)

theorem isReady_of_awaiting (idle : reading.awaiting = none) : reading.IsReady := by
  intro field waiting
  rw [idle] at waiting
  cases waiting

/-- A step takes up the items: once the value kept back is judged, in front of the items and
behind the step, the step does what the items do. -/
def TakesUp (step : Reading → Except Interruption Reading) (items : List Item) : Prop :=
  ∀ reading, reading.IsReady →
    (step reading >>= settle) = (reading.settle >>= fun settled => items.foldlM effect settled) ∧
      ∀ next, step reading = .ok next → next.IsReady

theorem TakesUp.congr {first second : Reading → Except Interruption Reading} {items : List Item}
    (takes : TakesUp second items)
    (same : ∀ reading : Reading, reading.IsReady → first reading = second reading) :
    TakesUp first items := by
  intro reading ready
  rw [same reading ready]
  exact takes reading ready

theorem takesUp_nil : TakesUp .ok [] := by
  intro reading ready
  refine ⟨(bind_pure reading.settle).symm, ?_⟩
  rintro _ ⟨⟩
  exact ready

theorem TakesUp.bind {first second : Reading → Except Interruption Reading}
    {items more : List Item} (takesFirst : TakesUp first items) (takesSecond : TakesUp second more) :
    TakesUp (fun reading => first reading >>= second) (items ++ more) := by
  intro reading ready
  obtain ⟨same, readyBehind⟩ := takesFirst reading ready
  constructor
  · calc (first reading >>= second) >>= settle
      _ = first reading >>= fun middle => second middle >>= settle := bind_assoc _ _ _
      _ = first reading >>= fun middle => middle.settle >>= fun settled =>
            more.foldlM effect settled :=
          bind_congr_ok fun middle taken => (takesSecond middle (readyBehind middle taken)).1
      _ = (first reading >>= settle) >>= fun settled => more.foldlM effect settled :=
          (bind_assoc _ _ _).symm
      _ = reading.settle >>= fun settled => (items ++ more).foldlM effect settled := by
          simp only [same, bind_assoc, List.foldlM_append]
  · intro next taken
    obtain ⟨middle, takenFirst, takenSecond⟩ := bind_eq_ok.mp taken
    exact (takesSecond middle (readyBehind middle takenFirst)).2 next takenSecond

/-- A step that first judges the value kept back takes up an item, if the rest of it does what the
item does when nothing is kept back. -/
theorem takesUp_of_settle {item : Item} (rest : Reading → Except Interruption Reading)
    (same : ∀ settled : Reading, settled.awaiting = none →
      rest settled >>= settle = settled.effect item)
    (ready : ∀ settled next : Reading, settled.awaiting = none → rest settled = .ok next →
      next.IsReady) :
    TakesUp (fun reading => reading.settle >>= rest) [item] := by
  intro reading _
  constructor
  · rw [bind_assoc]
    refine bind_congr_ok fun settled settling => ?_
    rw [same settled (awaiting_of_settle settling), List.foldlM_cons]
    exact (bind_pure _).symm
  · intro next taken
    obtain ⟨settled, settling, takenRest⟩ := bind_eq_ok.mp taken
    exact ready settled next (awaiting_of_settle settling) takenRest

/-- A step that first judges the value kept back and then does what an item does. -/
theorem takesUp_effect (item : Item) :
    TakesUp (fun reading => reading.settle >>= fun settled => settled.effect item) [item] := by
  have idle : ∀ settled next : Reading, settled.awaiting = none →
      settled.effect item = .ok next → next.awaiting = none := by
    intro settled next awaited done
    rw [awaiting_of_effect done, awaited]
  refine takesUp_of_settle _ (fun settled awaited => ?_) fun settled next awaited done =>
    isReady_of_awaiting (idle settled next awaited done)
  calc settled.effect item >>= settle
    _ = settled.effect item >>= .ok :=
        bind_congr_ok fun next done => settle_of_awaiting next (idle settled next awaited done)
    _ = settled.effect item := bind_pure _

theorem takesUp_takeFlag (flag : Flag) :
    TakesUp (fun reading => reading.takeFlag flag) [.flag flag] :=
  takesUp_effect (.flag flag)

theorem takesUp_takeField (field : Field) (value : String) :
    TakesUp (fun reading => reading.takeField field value) [.field field value] :=
  takesUp_effect (.field field value)

theorem takesUp_takeSelector (text : String) :
    TakesUp (fun reading => reading.takeSelectors [text]) [.selector text] :=
  takesUp_effect (.selector text)

theorem takesUp_settle : TakesUp settle [] := by
  intro reading _
  constructor
  · exact bind_congr_ok fun settled settling => settle_of_awaiting settled (awaiting_of_settle settling)
  · exact fun settled settling => isReady_of_awaiting (awaiting_of_settle settling)

theorem takeSelectors_nil (reading : Reading) : reading.takeSelectors [] = reading.settle := by
  have same : ∀ settled : Reading, settled.withSelectors [] = settled := fun settled => by
    rw [withSelectors, List.append_nil]
  calc reading.takeSelectors []
    _ = reading.settle >>= .ok := bind_congr fun settled => congrArg Except.ok (same settled)
    _ = reading.settle := bind_pure _

theorem takeSelectors_cons (reading : Reading) (text : String) (texts : List String) :
    reading.takeSelectors (text :: texts) =
      reading.takeSelectors [text] >>= fun next => next.takeSelectors texts := by
  have same : ∀ settled : Reading,
      settled.withSelectors (text :: texts) =
        (settled.withSelectors [text]).withSelectors texts := fun settled => by
    rw [withSelectors, withSelectors, withSelectors, List.append_assoc, List.singleton_append]
  rw [takeSelectors, takeSelectors, bind_assoc]
  refine bind_congr_ok fun settled settling => ?_
  have idle := awaiting_of_settle settling
  show Except.ok (settled.withSelectors (text :: texts)) =
    (settled.withSelectors [text]).settle >>= fun next => .ok (next.withSelectors texts)
  rw [settle_of_awaiting (settled.withSelectors [text]) idle, same]
  rfl

theorem takesUp_takeSelectors (texts : List String) :
    TakesUp (fun reading => reading.takeSelectors texts) (texts.map .selector) := by
  induction texts with
  | nil => exact takesUp_settle.congr fun reading _ => takeSelectors_nil reading
  | cons text rest inductionHypothesis =>
    exact ((takesUp_takeSelector text).bind inductionHypothesis).congr fun reading _ =>
      takeSelectors_cons reading text rest

/-! ### Groups of arguments -/

theorem take_of_isPlain {argument : String} (plain : IsPlain argument) (reading : Reading) :
    reading.take argument = reading.takePlain argument := by
  rcases plain with rfl | unhyphened
  · rfl
  · unfold take
    cases marks : argument.toList with
    | nil => rfl
    | cons mark rest =>
      have other : mark ≠ '-' := by
        rintro rfl
        exact unhyphened (by rw [marks, List.head?_cons])
      simp [other]

theorem take_of_hyphen {argument : String} {letters : List Char}
    (marks : argument.toList = '-' :: letters) (nonempty : letters ≠ [])
    (single : letters.head? ≠ some '-') (reading : Reading) :
    reading.take argument = reading.takeLetters letters := by
  obtain ⟨letter, rest, rfl⟩ := List.exists_cons_of_ne_nil nonempty
  have other : letter ≠ '-' := fun same => single (congrArg some same)
  simp only [take, marks]

theorem take_flag_name (flag : Flag) (reading : Reading) :
    reading.take flag.name = reading.takeFlag flag := by
  cases flag <;> rfl

theorem take_field_name (field : Field) (reading : Reading) :
    reading.take field.name = reading.awaitValue field := by
  cases field <;> rfl

theorem take_field_equals (field : Field) (value : String) (reading : Reading) :
    reading.take (field.name ++ "=" ++ value) = reading.takeField field value := by
  have marks : (field.name ++ "=" ++ value).toList =
      field.name.toList ++ '=' :: value.toList := by
    rw [String.toList_append, String.toList_append, List.append_assoc]
    rfl
  have read : reading.take (field.name ++ "=" ++ value) =
      reading.takeField field (String.ofList value.toList) := by
    unfold take
    rw [marks]
    cases field <;> rfl
  rw [read, String.ofList_toList]

theorem takePlain_of_isReady (ready : reading.IsReady) (argument : String) :
    reading.takePlain argument = reading.takeSelectors [argument] := by
  unfold takePlain
  split
  · next field waiting => exact absurd waiting (ready field)
  · rfl

/-- A field that waits for its value gets it from the next argument. -/
theorem takesUp_awaitValue (field : Field) {value : String} (plain : IsPlain value) :
    TakesUp (fun reading => reading.awaitValue field >>= fun next => next.take value)
      [.field field value] := by
  refine (takesUp_of_settle
      (fun settled => .ok { settled with awaiting := some (field, some value) })
    (fun settled idle => ?_) ?_).congr fun reading _ => ?_
  · show Reading.assign { settled with awaiting := none } field value = _
    rw [← idle]
    rfl
  · rintro settled _ _ ⟨⟩ other waiting
    cases waiting
  · rw [awaitValue, bind_assoc]
    refine bind_congr_ok fun settled _ => ?_
    exact take_of_isPlain plain _

theorem takeLetters_append {letters : List Char} {flags : List Flag}
    (areLetters : Item.AreLettersOf letters flags) (ending : List Char) (reading : Reading) :
    reading.takeLetters (letters ++ ending) =
      flags.foldlM takeFlag reading >>= fun next => next.takeLetters ending := by
  induction flags generalizing letters reading with
  | nil =>
    obtain rfl : letters = [] := List.map_eq_nil_iff.mp areLetters.symm
    rfl
  | cons flag rest inductionHypothesis =>
    obtain ⟨letter, more, rfl⟩ := List.exists_cons_of_ne_nil (l := letters) (by
      rintro rfl
      cases areLetters)
    obtain ⟨named, areMore⟩ := List.cons.inj areLetters
    have found := Switch.ofLetter?_eq_some_iff.mpr named
    rw [List.cons_append, List.foldlM_cons, bind_assoc]
    simp only [takeLetters, found]
    exact bind_congr fun next => inductionHypothesis areMore next

theorem takesUp_flags (flags : List Flag) :
    TakesUp (fun reading => flags.foldlM takeFlag reading) (flags.map .flag) := by
  induction flags with
  | nil => exact takesUp_nil
  | cons flag rest inductionHypothesis =>
    exact ((takesUp_takeFlag flag).bind inductionHypothesis).congr fun reading _ => rfl

theorem takesUp_ending {ending : List Char} {back : List String} {items : List Item}
    (ends : Item.Ending ending back items) :
    TakesUp (fun reading => reading.takeLetters ending >>= fun next => back.foldlM take next)
      items := by
  cases ends with
  | nothing => exact takesUp_nil
  | @apart field letter value named plain =>
    have found := Switch.ofLetter?_eq_some_iff.mpr named
    refine (takesUp_awaitValue field plain).congr fun reading _ => ?_
    simp only [takeLetters, found, List.foldlM_cons, List.foldlM_nil, bind_pure]
  | @equals field letter value named =>
    have found := Switch.ofLetter?_eq_some_iff.mpr named
    refine (takesUp_takeField field value).congr fun reading _ => ?_
    simp only [takeLetters, found, String.ofList_toList]
    exact bind_pure _
  | @joined field letter value named solid unequal =>
    have found := Switch.ofLetter?_eq_some_iff.mpr named
    obtain ⟨mark, more, marks⟩ :=
      List.exists_cons_of_ne_nil (mt String.toList_eq_nil_iff.mp solid)
    have other : mark ≠ '=' := by
      rintro rfl
      exact unequal (by rw [marks, List.head?_cons])
    refine (takesUp_takeField field value).congr fun reading _ => ?_
    have read : reading.takeLetters (letter :: value.toList) =
        reading.takeField field (String.ofList value.toList) := by
      rw [marks]
      simp [takeLetters, found, other]
    rw [read, String.ofList_toList]
    exact bind_pure _

theorem takesUp_group {arguments : List String} {items : List Item}
    (group : Item.Group arguments items) :
    TakesUp (fun reading => arguments.foldlM take reading) items := by
  cases group with
  | @selector text plain =>
    refine (takesUp_takeSelector text).congr fun reading ready => ?_
    rw [List.foldlM_cons, take_of_isPlain plain, takePlain_of_isReady ready]
    exact bind_pure _
  | flag flag =>
    refine (takesUp_takeFlag flag).congr fun reading _ => ?_
    rw [List.foldlM_cons, take_flag_name]
    exact bind_pure _
  | @field field value plain =>
    refine (takesUp_awaitValue field plain).congr fun reading _ => ?_
    simp only [List.foldlM_cons, List.foldlM_nil, bind_pure, take_field_name]
  | fieldEquals field value =>
    refine (takesUp_takeField field value).congr fun reading _ => ?_
    rw [List.foldlM_cons, take_field_equals]
    exact bind_pure _
  | letters areLetters ends nonempty marks =>
    refine ((takesUp_flags _).bind (takesUp_ending ends)).congr fun reading _ => ?_
    rw [List.foldlM_cons, take_of_hyphen marks nonempty (Item.head?_ne_hyphen areLetters ends),
      takeLetters_append areLetters, bind_assoc]

/-! ### Whole command lines -/

theorem takeAll_append (reading : Reading) {front : List String} (free : "--" ∉ front)
    (back : List String) :
    reading.takeAll (front ++ back) =
      front.foldlM take reading >>= fun last => last.takeAll back := by
  induction front generalizing reading with
  | nil => rfl
  | cons argument rest inductionHypothesis =>
    obtain ⟨other, others⟩ := List.ne_and_not_mem_of_not_mem_cons free
    rw [List.cons_append, takeAll, if_neg other.symm, List.foldlM_cons, bind_assoc]
    exact bind_congr fun next => inductionHypothesis next others

theorem takesUp_takeAll {arguments : List String} {items : List Item}
    (spells : Item.Spells arguments items) :
    TakesUp (fun reading => reading.takeAll arguments) items := by
  induction spells with
  | done => exact takesUp_settle
  | selectors texts => exact takesUp_takeSelectors texts
  | group first _ inductionHypothesis =>
    exact ((takesUp_group first).bind inductionHypothesis).congr fun reading _ =>
      takeAll_append reading first.free _

theorem takeAll_bind_settle (reading : Reading) (arguments : List String) :
    reading.takeAll arguments >>= settle = reading.takeAll arguments := by
  induction arguments generalizing reading with
  | nil =>
    exact bind_congr_ok (fun settled settling => settle_of_awaiting settled (awaiting_of_settle settling))
      |>.trans (bind_pure _)
  | cons argument rest inductionHypothesis =>
    rw [takeAll]
    split
    · rw [takeSelectors, bind_assoc]
      refine bind_congr_ok fun settled settling => ?_
      have idle := awaiting_of_settle settling
      exact settle_of_awaiting (settled.withSelectors rest) idle
    · rw [bind_assoc]
      exact bind_congr fun next => inductionHypothesis next

/-- A command line is read like the items that it spells. -/
theorem takeAll_of_spells {arguments : List String} {items : List Item}
    (spells : Item.Spells arguments items) :
    takeAll {} arguments = items.foldlM effect {} := by
  rw [← takeAll_bind_settle]
  exact (takesUp_takeAll spells {} (isReady_of_awaiting rfl)).1

/-! ### Every command line spells items -/

theorem exists_of_not_isPlain {argument : String} (switch : ¬IsPlain argument) :
    ∃ mark rest, argument.toList = '-' :: mark :: rest := by
  obtain ⟨other, hyphen⟩ := not_or.mp switch
  obtain ⟨behind, marks⟩ := List.head?_eq_some_iff.mp (not_not.mp hyphen)
  cases behind with
  | nil => exact absurd (String.toList_inj.mp marks) other
  | cons mark rest => exact ⟨mark, rest, marks⟩

theorem settle_bind_ne_ok {field : Field} (waiting : reading.awaiting = some (field, none))
    (next : Reading) (proceed : Reading → Except Interruption Reading) :
    reading.settle >>= proceed ≠ .ok next := by
  intro settled
  simp only [settle, waiting] at settled
  cases settled

/-- A field without a value is in the way of every switch. -/
theorem isPlain_of_take {field : Field} (waiting : reading.awaiting = some (field, none))
    {argument : String} (taken : reading.take argument = .ok next) : IsPlain argument := by
  have stuck := settle_bind_ne_ok waiting next
  by_contra switch
  obtain ⟨mark, rest, marks⟩ := exists_of_not_isPlain switch
  unfold take at taken
  rw [marks] at taken
  split at taken
  · unfold takeLong at taken
    dsimp only at taken
    split at taken
    · cases taken
    · exact stuck _ taken
    · cases taken
    · exact stuck _ taken
    · exact stuck _ taken
  · next letter more _ _ =>
    rw [takeLetters.eq_def] at taken
    dsimp only at taken
    split at taken
    · cases taken
    · rw [takeFlag, bind_assoc] at taken
      exact stuck _ taken
    · split at taken
      · exact stuck _ taken
      · exact stuck _ taken
      · exact stuck _ taken
  · next other => exact absurd rfl (other mark rest)

/-- Behind a field without a value stands its value. -/
theorem exists_value {field : Field} (waiting : reading.awaiting = some (field, none))
    {arguments : List String} (taken : reading.takeAll arguments = .ok next) :
    ∃ value back, arguments = value :: back ∧ IsPlain value := by
  have stuck := settle_bind_ne_ok waiting next
  cases arguments with
  | nil => exact absurd ((bind_pure _).trans taken) (stuck .ok)
  | cons argument rest =>
    rw [takeAll] at taken
    split at taken
    · exact absurd taken (stuck _)
    · obtain ⟨middle, begun, _⟩ := bind_eq_ok.mp taken
      exact ⟨argument, rest, rfl, isPlain_of_take waiting begun⟩

theorem awaiting_of_awaitValue {field : Field} (taken : reading.awaitValue field = .ok next) :
    next.awaiting = some (field, none) := by
  obtain ⟨settled, _, waits⟩ := bind_eq_ok.mp taken
  cases waits
  rfl

/-- Letters begin with letters of flags, up to their end or to another letter. -/
theorem exists_flags (letters : List Char) :
    ∃ flags front ending, letters = front ++ ending ∧ Item.AreLettersOf front flags ∧
      ∀ flag, (ending.head?.bind Switch.ofLetter?) ≠ some (.flag flag) := by
  induction letters with
  | nil => exact ⟨[], [], [], rfl, rfl, by simp⟩
  | cons letter rest inductionHypothesis =>
    by_cases named : ∃ flag, Switch.ofLetter? letter = some (.flag flag)
    · obtain ⟨flag, named⟩ := named
      obtain ⟨flags, front, ending, rfl, areLetters, stops⟩ := inductionHypothesis
      exact ⟨flag :: flags, letter :: front, ending, rfl,
        congrArg₂ List.cons (Switch.ofLetter?_eq_some_iff.mp named) areLetters, stops⟩
    · exact ⟨[], [], letter :: rest, rfl, rfl, not_exists.mp named⟩

/-- What follows two hyphens is the name of a switch, and then nothing or an equals sign. -/
theorem exists_group_of_long {argument : String} {body : List Char} {rest : List String}
    {last : Reading} (marks : argument.toList = '-' :: '-' :: body)
    (taken : reading.takeLong body = .ok next) (takenRest : next.takeAll rest = .ok last) :
    ∃ front items back, argument :: rest = front ++ back ∧ Item.Group front items := by
  have written : argument =
      "--" ++ String.ofList (body.takeWhile (· != '=')) ++
        String.ofList (body.dropWhile (· != '=')) := by
    rw [← String.toList_inj]
    simp only [String.toList_append, String.toList_ofList, List.append_assoc,
      List.takeWhile_append_dropWhile]
    exact marks
  unfold takeLong at taken
  dsimp only at taken
  split at taken
  · cases taken
  · next flag named alone =>
    rw [← Switch.name_of_ofName? named, alone, String.ofList_nil, String.append_empty] at written
    exact ⟨[argument], [.flag flag], rest, rfl, written ▸ .flag flag⟩
  · cases taken
  · next field named alone =>
    rw [← Switch.name_of_ofName? named, alone, String.ofList_nil, String.append_empty] at written
    obtain ⟨value, back, rfl, plain⟩ := exists_value (awaiting_of_awaitValue taken) takenRest
    exact ⟨[argument, value], [.field field value], back, rfl, written ▸ .field field plain⟩
  · next field mark value named valued =>
    have equals := List.head?_dropWhile_not (· != '=') body
    rw [valued, List.head?_cons] at equals
    obtain rfl : mark = '=' := by simpa using equals
    have joined : String.ofList ('=' :: value) = "=" ++ String.ofList value := by
      rw [← String.toList_inj]
      simp only [String.toList_append, String.toList_ofList]
      rfl
    rw [← Switch.name_of_ofName? named, valued, joined, ← String.append_assoc] at written
    exact ⟨[argument], [.field field (String.ofList value)], rest, rfl,
      written ▸ .fieldEquals field (String.ofList value)⟩

/-- What follows one hyphen is letters of flags, and then nothing or the letter of a field. -/
theorem exists_group_of_letters {argument : String} {mark : Char} {body : List Char}
    {rest : List String} {last : Reading} (marks : argument.toList = '-' :: mark :: body)
    (taken : reading.takeLetters (mark :: body) = .ok next)
    (takenRest : next.takeAll rest = .ok last) :
    ∃ front items back, argument :: rest = front ++ back ∧ Item.Group front items := by
  obtain ⟨flags, front, ending, parts, areLetters, stops⟩ := exists_flags (mark :: body)
  rw [parts] at marks
  have nonempty : front ++ ending ≠ [] := parts ▸ List.cons_ne_nil mark body
  rw [parts, takeLetters_append areLetters] at taken
  obtain ⟨middle, _, ended⟩ := bind_eq_ok.mp taken
  cases ending with
  | nil => exact ⟨_, _, rest, rfl, .letters areLetters .nothing nonempty marks⟩
  | cons letter value =>
    cases named : Switch.ofLetter? letter with
    | none =>
      simp only [takeLetters, named, reduceCtorEq] at ended
    | some switch =>
      cases switch with
      | flag flag => exact absurd named (stops flag)
      | field field =>
        have letterOf := Switch.ofLetter?_eq_some_iff.mp named
        cases value with
        | nil =>
          simp only [takeLetters, named] at ended
          obtain ⟨text, back, rfl, plain⟩ := exists_value (awaiting_of_awaitValue ended) takenRest
          exact ⟨[argument, text], _, back, rfl,
            .letters areLetters (.apart letterOf plain) nonempty marks⟩
        | cons second value =>
          by_cases equals : second = '='
          · subst equals
            have ends := Item.Ending.equals (String.ofList value) letterOf
            rw [String.toList_ofList] at ends
            exact ⟨[argument], _, rest, rfl, .letters areLetters ends nonempty marks⟩
          · have ends := Item.Ending.joined (String.ofList (second :: value)) letterOf
              (mt String.ofList_eq_empty_iff.mp (List.cons_ne_nil _ _)) (by simpa using equals)
            rw [String.toList_ofList] at ends
            exact ⟨[argument], _, rest, rfl, .letters areLetters ends nonempty marks⟩

theorem exists_group {argument : String} {rest : List String} {last : Reading}
    (hyphens : argument ≠ "--") (taken : reading.takeAll (argument :: rest) = .ok last) :
    ∃ front items back, argument :: rest = front ++ back ∧ Item.Group front items := by
  rw [takeAll, if_neg hyphens] at taken
  obtain ⟨next, begun, takenRest⟩ := bind_eq_ok.mp taken
  by_cases plain : IsPlain argument
  · exact ⟨[argument], [.selector argument], rest, rfl, .selector plain⟩
  · obtain ⟨mark, body, marks⟩ := exists_of_not_isPlain plain
    by_cases long : mark = '-'
    · subst long
      simp only [take, marks] at begun
      exact exists_group_of_long marks begun takenRest
    · rw [take_of_hyphen marks (List.cons_ne_nil _ _) (by simpa using long)] at begun
      exact exists_group_of_letters marks begun takenRest

theorem exists_spells_of_isReady (arguments : List String) {reading last : Reading}
    (ready : reading.IsReady) (taken : reading.takeAll arguments = .ok last) :
    ∃ items, Item.Spells arguments items := by
  match arguments with
  | [] => exact ⟨[], .done⟩
  | argument :: rest =>
    by_cases hyphens : argument = "--"
    · subst hyphens
      exact ⟨_, .selectors rest⟩
    · obtain ⟨front, items, back, parts, group⟩ := exists_group hyphens taken
      rw [parts, takeAll_append _ group.free] at taken
      obtain ⟨middle, begun, takenBack⟩ := bind_eq_ok.mp taken
      have shorter : back.length < (argument :: rest).length := by
        rw [parts, List.length_append]
        exact Nat.lt_add_of_pos_left (List.length_pos_iff.mpr group.ne_nil)
      obtain ⟨more, spells⟩ :=
        exists_spells_of_isReady back ((takesUp_group group reading ready).2 middle begun) takenBack
      exact ⟨items ++ more, parts ▸ .group group spells⟩
termination_by arguments.length
decreasing_by exact shorter

/-- Whatever is read without an interruption spells some items. -/
theorem exists_spells {arguments : List String} {last : Reading}
    (taken : takeAll {} arguments = .ok last) : ∃ items, Item.Spells arguments items :=
  exists_spells_of_isReady arguments (isReady_of_awaiting rfl) taken

end Reading

end SelectorLexemes
