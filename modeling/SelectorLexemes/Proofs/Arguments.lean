/-
This file proves that the argument of a pseudo-class is invisible, and that nothing else
is. Where a new segment begins, a name that takes an argument hides everything up to the
parenthesis that balances the one behind it, whatever stands in between, or everything up
to the end if there is none. Behind any other name, and behind two colons, the parenthesis
only separates, and what stands in it is read like the rest of the selector.

The file also settles that the reader never closes a parenthesis that is not open: a
reader that refuses to do so reads the same.
-/

import SelectorLexemes.Proofs.Boundaries

namespace SelectorLexemes

/-! ### Where a new segment begins -/

/-- A selector is empty or ends in a separator, and neither brackets nor an argument are
still open at its end. -/
structure EndsBetween (before : String) : Prop where
  /-- Nothing is left open. -/
  complete : ∀ segment ∈ Segment.ofSelector before, ¬segment.CutShort
  /-- The last character separates. -/
  separated : ∀ mark, before.toList.getLast? = some mark → isSeparator mark = true

theorem isSeparator_of_isName {name : List Char} (isName : IsName name) :
    ∀ mark ∈ name, isSeparator mark = false := by
  intro mark member
  rw [isSeparator, isName mark member, Bool.not_true, Bool.false_and]

/-- A segment that does not end itself contains no separator, if it is not cut short. -/
theorem Segment.isSeparator_of_mem_text {segment : Segment} {next : Option Char}
    (fits : segment.FitsBefore next) (complete : ¬segment.CutShort)
    (continues : ¬segment.EndsItself) : ∀ mark ∈ segment.text, isSeparator mark = false := by
  match segment, fits with
  | .separator _, _ => exact absurd trivial continues
  | .attribute _ _, _ => exact absurd (Bool.ne_false_iff.mp complete) continues
  | .element _, ⟨_, isName, _⟩ => exact isSeparator_of_isName isName
  | .classSelector _, ⟨isName, _⟩ =>
    exact List.forall_mem_cons.mpr ⟨rfl, isSeparator_of_isName isName⟩
  | .idSelector _, ⟨isName, _⟩ =>
    exact List.forall_mem_cons.mpr ⟨rfl, isSeparator_of_isName isName⟩
  | .pseudoElement name, ⟨isName, _⟩ =>
    have second : ∀ mark ∈ ':' :: name, isSeparator mark = false :=
      List.forall_mem_cons.mpr ⟨rfl, isSeparator_of_isName isName⟩
    exact List.forall_mem_cons.mpr ⟨rfl, second⟩
  | .pseudoClass name argument, ⟨isName, _⟩ =>
    obtain rfl : argument = [] := Classical.not_not.mp continues
    rw [Segment.text, List.append_nil]
    exact List.forall_mem_cons.mpr ⟨rfl, isSeparator_of_isName isName⟩

/-- Behind such a selector every character begins a new segment. -/
theorem EndsBetween.allFitBefore {before : String} (between : EndsBetween before)
    (next : Option Char) : Segment.AllFitBefore next (Segment.ofSelector before) := by
  refine Segment.allFitBefore_ofSelector before next between.complete (Or.inl ?_)
  intro last isLast
  have cut := Segment.isCutOf_ofSelector before
  obtain ⟨others, split⟩ := List.getLast?_eq_some_iff.mp isLast
  have member : last ∈ Segment.ofSelector before := List.mem_of_getLast? isLast
  obtain ⟨follower, fits⟩ := Segment.fitsBefore_of_mem cut.fits member
  obtain ⟨mark, final⟩ := Option.ne_none_iff_exists'.mp
    (mt List.getLast?_eq_none_iff.mp (Segment.text_ne_nil fits))
  have ends : before.toList.getLast? = some mark := by
    rw [← cut.covers, split, List.flatMap_append, List.flatMap_singleton, List.getLast?_append,
      final, Option.some_or]
  by_contra continues
  have separator := between.separated mark ends
  rw [Segment.isSeparator_of_mem_text fits (between.complete last member) continues mark
    (List.mem_of_getLast? final)] at separator
  cases separator

/-- A selector is seen to end between segments from a cut of it. -/
theorem EndsBetween.of_isCutOf {before : String} {segments : List Segment}
    (cut : Segment.IsCutOf segments before.toList)
    (complete : ∀ segment ∈ segments, ¬segment.CutShort)
    (separated : ∀ mark, before.toList.getLast? = some mark → isSeparator mark = true) :
    EndsBetween before :=
  ⟨(Segment.isCutOf_iff _ _).mp cut ▸ complete, separated⟩

theorem Segment.isCutOf_empty : Segment.IsCutOf [] "".toList :=
  ⟨rfl, trivial⟩

theorem endsBetween_empty : EndsBetween "" :=
  .of_isCutOf Segment.isCutOf_empty nofun nofun

/-- Behind such a selector a segment is read as if the selector began with it, and so is
what follows the segment. -/
theorem EndsBetween.scan_segment {before : String} (between : EndsBetween before)
    {segment : Segment} (text rest : String) (covers : segment.text = text.toList)
    (fits : segment.FitsBefore rest.toList.head?) :
    scan (before ++ text ++ rest) = scan before ++ segment.token?.toList ++ scan rest :=
  scan_append_segment text rest covers (between.allFitBefore _) fits

theorem scan_empty : scan "" = [] :=
  scan_of_isCutOf [] "" Segment.isCutOf_empty

/-- A parenthesis in front of a selector only separates. -/
theorem scan_opening (rest : String) : scan ("(" ++ rest) = scan rest := by
  have covers : (Segment.separator '(').text = "(".toList := rfl
  have opening := endsBetween_empty.scan_segment "(" rest covers rfl
  rw [scan_empty, String.empty_append] at opening
  exact opening

/-- A parenthesis behind a segment only separates when the segment is the same with and
without it. -/
theorem EndsBetween.scan_parenthesis {before : String} (between : EndsBetween before)
    {segment : Segment} (text rest : String) (covers : segment.text = text.toList)
    (atEnd : segment.FitsBefore none) (atOpening : segment.FitsBefore (some '(')) :
    scan (before ++ text ++ "(" ++ rest) = scan (before ++ text) ++ scan rest := by
  have alone := between.scan_segment text "" covers atEnd
  have opened : segment.FitsBefore ("(" ++ rest).toList.head? := by
    rw [String.toList_append]
    exact atOpening
  have followed := between.scan_segment text ("(" ++ rest) covers opened
  rw [String.append_empty, scan_empty, List.append_nil] at alone
  rw [String.append_assoc, followed, scan_opening, alone]

/-! ### Names that take an argument and names that do not -/

theorem Segment.head?_or_ne_colon {name : List Char} {next : Option Char}
    (isName : IsName name) (other : next ≠ some ':') : name.head?.or next ≠ some ':' := by
  cases name with
  | nil => exact other
  | cons mark rest =>
    have named := isName mark List.mem_cons_self
    exact fun same => ne_of_isNameChar named (by decide) (Option.some.inj same)

/-- A name with an argument fits wherever the argument does. -/
theorem Segment.fitsBefore_of_isArgument {name argument : List Char} {next : Option Char}
    (isName : IsName name) (takes : takesArgument name = true)
    (isArgument : Text.IsArgument argument next) :
    (Segment.pseudoClass name argument).FitsBefore next := by
  have given : argument ≠ [] := by
    rintro rfl
    cases isArgument.opens
  have opening : argument.head?.or next = some '(' := by
    rw [isArgument.opens, Option.some_or]
  refine ⟨isName, ?_, ?_, (fitsArgument_iff_of_ne_nil _ _ _ given).mpr ⟨takes, isArgument⟩⟩
  · rw [opening, endsName_some]
    decide
  · rw [opening]
    exact head?_or_ne_colon isName (by decide)

/-- A name that takes no argument fits before a parenthesis as it fits before the end. -/
theorem Segment.fitsBefore_of_not_takesArgument {name : List Char} {next : Option Char}
    (isName : IsName name) (takes : takesArgument name = false) (ends : EndsName next)
    (other : next ≠ some ':') : (Segment.pseudoClass name []).FitsBefore next := by
  refine ⟨isName, ends, head?_or_ne_colon isName other, ?_⟩
  rw [fitsArgument_nil_iff, takes]
  exact fun impossible => Bool.false_ne_true impossible.1

/-- What a name that takes an argument hides is any argument, whatever is in it. -/
theorem EndsBetween.scan_argument {before : String} (between : EndsBetween before)
    (name argument rest : String) (isName : IsName name.toList)
    (takes : takesArgument name.toList = true)
    (isArgument : Text.IsArgument argument.toList rest.toList.head?) :
    scan (before ++ (":" ++ name ++ argument) ++ rest) =
      scan before ++ [⟨.pseudoClasses, .text name⟩] ++ scan rest := by
  have nonempty : name ≠ "" := by
    rintro rfl
    cases takes
  have covers : (Segment.pseudoClass name.toList argument.toList).text =
      (":" ++ name ++ argument).toList := by
    rw [String.toList_append, String.toList_append]
    rfl
  rw [between.scan_segment _ rest covers
      (Segment.fitsBefore_of_isArgument isName takes isArgument),
    Segment.token?_of_name rfl isName nonempty, Option.toList_some]

/-! ### A reader that refuses to close what is not open -/

/-- Reads the rest of a pseudo-class, but gives up where a parenthesis closes while none
is open. -/
def Cursor.readPseudoClass? (cursor : Cursor) : Option (Segment × Cursor) :=
  let (name, afterName) := cursor.readName
  if afterName.peek? = some '(' ∧ takesArgument name then
    (Text.splitBalanced? 0 afterName.ahead).map fun parts =>
      let (argument, afterArgument) := afterName.pass parts
      (.pseudoClass name argument, afterArgument)
  else
    some (.pseudoClass name [], afterName)

/-- The reader only follows an argument from its first parenthesis on, and so it never
gives up. -/
theorem Cursor.readPseudoClass?_eq_some (cursor : Cursor) :
    cursor.readPseudoClass? = some cursor.readPseudoClass := by
  simp only [readPseudoClass?, readPseudoClass]
  split
  · next takes =>
    rw [Text.splitBalanced?_opening _ takes.1]
    rfl
  · rfl

/-! ### What an argument hides -/

/-- Behind a selector that ends between segments, a name that takes an argument hides
everything up to the parenthesis that balances the one behind the name, or up to the end
if there is none, and no parenthesis is closed while none is open. Behind any other name
and behind two colons the parenthesis only separates. -/
theorem scan_argument_hidden (before : String) (between : EndsBetween before) :
    (∀ name inner rest : String, IsName name.toList → takesArgument name.toList = true →
      Text.IsNested inner.toList →
        scan (before ++ ":" ++ name ++ "(" ++ inner ++ ")" ++ rest) =
          scan before ++ [⟨.pseudoClasses, .text name⟩] ++ scan rest) ∧
    (∀ name inner : String, IsName name.toList → takesArgument name.toList = true →
      (∀ part, part <+: '(' :: inner.toList → part ≠ [] → ¬Text.IsBalanced part) →
        scan (before ++ ":" ++ name ++ "(" ++ inner) =
          scan before ++ [⟨.pseudoClasses, .text name⟩]) ∧
    (∀ cursor : Cursor, cursor.readPseudoClass? = some cursor.readPseudoClass) ∧
    (∀ name rest : String, IsName name.toList → takesArgument name.toList = false →
      scan (before ++ ":" ++ name ++ "(" ++ rest) =
        scan (before ++ ":" ++ name) ++ scan rest) ∧
    ∀ name rest : String, IsName name.toList →
      scan (before ++ "::" ++ name ++ "(" ++ rest) =
        scan (before ++ "::" ++ name) ++ scan rest := by
  have atOpening : EndsName (some '(') := (endsName_some '(').mpr (by decide)
  refine ⟨?_, ?_, Cursor.readPseudoClass?_eq_some, ?_, ?_⟩
  · intro name inner rest isName takes nested
    have isArgument : Text.IsArgument ("(" ++ inner ++ ")").toList rest.toList.head? := by
      rw [String.toList_append, String.toList_append]
      exact Text.isArgument_of_isNested inner.toList nested _
    have scanned := between.scan_argument name _ rest isName takes isArgument
    simpa only [String.append_assoc] using scanned
  · intro name inner isName takes never
    have isArgument : Text.IsArgument ("(" ++ inner).toList "".toList.head? := by
      rw [String.toList_append]
      exact Text.isArgument_of_never_balances inner.toList never
    have scanned := between.scan_argument name _ "" isName takes isArgument
    rw [scan_empty, List.append_nil, String.append_empty] at scanned
    simpa only [String.append_assoc] using scanned
  · intro name rest isName takes
    have covers : (Segment.pseudoClass name.toList []).text = (":" ++ name).toList := by
      rw [String.toList_append, Segment.text, List.append_nil]
      rfl
    have scanned := between.scan_parenthesis (":" ++ name) rest covers
      (Segment.fitsBefore_of_not_takesArgument isName takes endsName_none (by decide))
      (Segment.fitsBefore_of_not_takesArgument isName takes atOpening (by decide))
    simpa only [String.append_assoc] using scanned
  · intro name rest isName
    have covers : (Segment.pseudoElement name.toList).text = ("::" ++ name).toList := by
      rw [String.toList_append]
      rfl
    have scanned := between.scan_parenthesis ("::" ++ name) rest covers
      ⟨isName, endsName_none⟩ ⟨isName, atOpening⟩
    simpa only [String.append_assoc] using scanned

/-- Brackets, quotes and classes in the argument give no tokens. -/
theorem scan_argument_hidden_brackets :
    EndsBetween "ul > " ∧
      scan ("ul > " ++ ":" ++ "NTH-child" ++ "(" ++ "(2n) of [x='" ++ ")" ++ ".y") =
        scan "ul > " ++ [⟨.pseudoClasses, .text "NTH-child"⟩] ++ scan ".y" := by
  have cut : Segment.IsCutOf
      [.element ['u', 'l'], .separator ' ', .separator '>', .separator ' ']
      "ul > ".toList := by decide
  have separated : ∀ mark, "ul > ".toList.getLast? = some mark → isSeparator mark = true := by
    intro mark last
    obtain rfl : ' ' = mark := Option.some.inj last
    rfl
  have between : EndsBetween "ul > " := .of_isCutOf cut (by decide) separated
  obtain ⟨hidden, _⟩ := scan_argument_hidden "ul > " between
  exact ⟨between, hidden "NTH-child" "(2n) of [x='" ".y" (by decide) (by decide) (by decide)⟩

end SelectorLexemes
