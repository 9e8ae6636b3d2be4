/-
This file says which selectors have no lexemes. Brackets are cut out of the selector first, from
the left to the right and each up to the next closing one; then no name character may be left,
and the content of each bracket must be blank on one side. Colons and arguments are not
mentioned: an argument is only skipped behind a name, and the name is a lexeme already.

The rule about arguments therefore never decides whether a selector has lexemes. This is proved
for every rule that leaves the empty name without an argument, the one that never skips anything
among them.
-/

import SelectorLexemes.Proofs.Inventories
import SelectorLexemes.Proofs.Padding
import SelectorLexemes.Proofs.Segmentation

namespace SelectorLexemes

/-! ### Selectors without lexemes -/

/-- The characters outside of brackets and the contents of the brackets, both in order. -/
def cutBrackets : List Char → List Char × List (List Char)
  | [] => ([], [])
  | mark :: rest =>
    if mark = '[' then
      let (outside, contents) := cutBrackets ((rest.dropWhile (· != ']')).drop 1)
      (outside, rest.takeWhile (· != ']') :: contents)
    else
      let (outside, contents) := cutBrackets rest
      (mark :: outside, contents)
termination_by text => text.length
decreasing_by
  · have shorter := (List.dropWhile_sublist (· != ']') (l := rest)).length_le
    rw [List.length_drop, List.length_cons]
    omega
  · exact Nat.lt_succ_self _

/-- The content of brackets is blank on one side of its first equals sign, or blank altogether
if it has none. -/
def IsDegenerate (content : List Char) : Prop :=
  if '=' ∈ content then
    Text.AllBlank (content.takeWhile (· != '=')) ∨
      Text.AllBlank ((content.dropWhile (· != '=')).drop 1)
  else
    Text.AllBlank content

instance (content : List Char) : Decidable (IsDegenerate content) :=
  inferInstanceAs (Decidable
    (if '=' ∈ content then
      Text.AllBlank (content.takeWhile (· != '=')) ∨
        Text.AllBlank ((content.dropWhile (· != '=')).drop 1)
    else
      Text.AllBlank content))

/-- Outside of brackets there is no name character, and all brackets are degenerate. -/
def IsBarren (text : List Char) : Prop :=
  (∀ mark ∈ (cutBrackets text).1, isNameChar mark = false) ∧
    ∀ content ∈ (cutBrackets text).2, IsDegenerate content

instance (text : List Char) : Decidable (IsBarren text) :=
  decidable_of_iff
    ((cutBrackets text).1.any isNameChar = false ∧ (cutBrackets text).2.all (IsDegenerate ·) = true)
    (by simp [IsBarren])

theorem isDegenerate_iff_of_hasSides {content key value : List Char}
    (sides : HasSides content key value) :
    IsDegenerate content ↔ Text.AllBlank key ∨ Text.AllBlank value := by
  obtain ⟨free, rfl | ⟨rfl, rfl⟩⟩ := sides
  · have split : '=' ∈ key ++ '=' :: value := List.mem_append_right key List.mem_cons_self
    rw [IsDegenerate, if_pos split, takeWhile_ne_equals value free, dropWhile_ne_equals value free]
    rfl
  · rw [IsDegenerate, if_neg free, or_self]

/-- Degenerate brackets are those that give no token. -/
theorem isDegenerate_iff (content : List Char) :
    IsDegenerate content ↔ Segment.attributeToken? content = none := by
  obtain ⟨key, value, sides⟩ := exists_hasSides content
  rw [isDegenerate_iff_of_hasSides sides, ← Text.trim_eq_nil_iff key,
    ← Text.trim_eq_nil_iff value, Segment.attributeToken?_of_hasSides _ _ _ sides,
    Token.attribute?_eq, ite_eq_left_iff]
  exact ⟨fun blank solid => absurd blank solid,
    fun none => by_contra fun solid => Option.some_ne_none _ (none solid)⟩

/-! ### What a segment in front contributes -/

theorem isBarren_nil : IsBarren [] := by
  rw [IsBarren, cutBrackets]
  exact ⟨List.forall_mem_nil _, List.forall_mem_nil _⟩

theorem isBarren_cons {mark : Char} (other : mark ≠ '[') (rest : List Char) :
    IsBarren (mark :: rest) ↔ isNameChar mark = false ∧ IsBarren rest := by
  rw [IsBarren, cutBrackets, if_neg other, List.forall_mem_cons, and_assoc, IsBarren]

theorem isBarren_append {front : List Char} (unopened : '[' ∉ front) (rest : List Char) :
    IsBarren (front ++ rest) ↔ front.any isNameChar = false ∧ IsBarren rest := by
  induction front with
  | nil => simp
  | cons mark front inductionHypothesis =>
    obtain ⟨other, others⟩ := not_or.mp (mt List.mem_cons.mpr unopened)
    rw [List.cons_append, isBarren_cons (Ne.symm other), inductionHypothesis others,
      List.any_cons, Bool.or_eq_false_iff, and_assoc]

theorem isBarren_bracket {content rest : List Char} {closed : Bool} (free : ']' ∉ content)
    (ends : closed = true ∨ rest.head? = none) :
    IsBarren ((Segment.attribute content closed).text ++ rest) ↔
      IsDegenerate content ∧ IsBarren rest := by
  have inside := forall_bne_of_not_mem free
  have cut : cutBrackets ((Segment.attribute content closed).text ++ rest) =
      ((cutBrackets rest).1, content :: (cutBrackets rest).2) := by
    rw [Segment.text, List.append_assoc, List.cons_append, cutBrackets, if_pos rfl,
      List.takeWhile_append_of_pos inside, List.dropWhile_append_of_pos inside]
    cases closed with
    | true => simp
    | false =>
      obtain rfl : rest = [] := List.head?_eq_none_iff.mp (ends.resolve_left Bool.false_ne_true)
      simp
  rw [IsBarren, cut, List.forall_mem_cons, IsBarren, and_left_comm]

/-- Fixed characters and a name are barren when the name is empty, and then they give no token. -/
theorem isBarren_name (category : Category) (lead : List Char) {name : List Char}
    (isName : IsName name) (unopened : '[' ∉ lead) (fixed : lead.any isNameChar = false)
    (rest : List Char) :
    IsBarren (lead ++ name ++ rest) ↔ Token.named? category name = none ∧ IsBarren rest := by
  have unopenedName : '[' ∉ name := fun member => absurd (isName '[' member) (by decide)
  have unopenedBoth : '[' ∉ lead ++ name :=
    mt List.mem_append.mp (not_or.mpr ⟨unopened, unopenedName⟩)
  rw [isBarren_append unopenedBoth, List.any_append, fixed, Bool.false_or,
    Token.named?_name category name isName]
  cases name with
  | nil => simp
  | cons letter more =>
    have named : isNameChar letter = true := isName letter List.mem_cons_self
    simp [named]

/-- An argument behind a name does not matter, because the name is there. -/
theorem isBarren_pseudoClass {name argument : List Char} (isName : IsName name)
    (plain : name = [] → argument = []) (rest : List Char) :
    IsBarren ((Segment.pseudoClass name argument).text ++ rest) ↔
      (Segment.pseudoClass name argument).token? = none ∧ IsBarren rest := by
  have split : (Segment.pseudoClass name argument).text ++ rest =
      [':'] ++ name ++ (argument ++ rest) := by
    rw [Segment.text, List.append_assoc, List.singleton_append]
  rw [split, isBarren_name .pseudoClasses [':'] isName (by decide) rfl, Segment.token?]
  refine and_congr_right fun none => ?_
  have empty : name = [] := by
    by_contra nonempty
    rw [Token.named?_name _ name isName, if_neg nonempty] at none
    cases none
  rw [plain empty, List.nil_append]

/-- A text is barren when its first segment gives no token and what follows is barren. -/
theorem isBarren_text_append {segment : Segment} {rest : List Char}
    (fits : segment.FitsBefore rest.head?) :
    IsBarren (segment.text ++ rest) ↔ segment.token? = none ∧ IsBarren rest := by
  match segment, fits with
  | .separator mark, fits =>
    obtain ⟨notName, _, _, _, notBracket⟩ := (isSeparator_iff mark).mp fits
    rw [Segment.text, List.singleton_append, isBarren_cons notBracket, Segment.token?]
    exact and_congr_left fun _ => ⟨fun _ => rfl, fun _ => notName⟩
  | .element name, ⟨_, isName, _⟩ =>
    exact isBarren_name .elements [] isName List.not_mem_nil rfl rest
  | .classSelector name, ⟨isName, _⟩ =>
    exact isBarren_name .classes ['.'] isName (by decide) rfl rest
  | .idSelector name, ⟨isName, _⟩ =>
    exact isBarren_name .ids ['#'] isName (by decide) rfl rest
  | .pseudoElement name, ⟨isName, _⟩ =>
    exact isBarren_name .pseudoElements [':', ':'] isName (by decide) rfl rest
  | .pseudoClass name argument, ⟨isName, _, _, fits⟩ =>
    refine isBarren_pseudoClass isName (fun empty => ?_) rest
    rw [Segment.FitsArgument, if_neg fun takes => absurd takes.1 (by rw [empty]; decide)] at fits
    exact fits
  | .attribute content closed, ⟨free, ends⟩ =>
    rw [isBarren_bracket free ends, isDegenerate_iff]
    rfl

/-! ### Other rules about arguments -/

namespace Cursor

variable {takes : List Char → Bool} {cursor after : Cursor} {segment : Segment}

/-- Reads the rest of a pseudo-class whose colon has been passed. The rule tells which names
take an argument. -/
def readPseudoClassBy (takes : List Char → Bool) (cursor : Cursor) : Segment × Cursor :=
  let (name, afterName) := cursor.readName
  if afterName.peek? = some '(' ∧ takes name then
    let (argument, afterArgument) := afterName.readArgument
    (.pseudoClass name argument, afterArgument)
  else
    (.pseudoClass name [], afterName)

/-- Reads the next segment. Segments other than those with a single colon do not depend on the
rule. -/
def readSegmentBy? (takes : List Char → Bool) (cursor : Cursor) : Option (Segment × Cursor) :=
  match cursor.next? with
  | some (':', afterColon) =>
    if afterColon.peek? = some ':' then
      cursor.readSegment?
    else
      some (afterColon.readPseudoClassBy takes)
  | _ => cursor.readSegment?

theorem exists_of_readPseudoClassBy (takes : List Char → Bool) (cursor : Cursor) :
    ∃ name argument after,
      cursor.readPseudoClassBy takes = (.pseudoClass name argument, after) ∧
        cursor.ahead = name ++ argument ++ after.ahead ∧ IsName name ∧
          (argument ≠ [] → takes name = true) := by
  have isName : IsName cursor.readName.1 := fun mark member => List.mem_takeWhile_imp member
  have parts : cursor.ahead = cursor.readName.1 ++ cursor.readName.2.ahead :=
    List.takeWhile_append_dropWhile.symm
  rw [readPseudoClassBy]
  dsimp only
  split
  · next given =>
    refine ⟨_, _, _, rfl, ?_, isName, fun _ => given.2⟩
    rw [List.append_assoc, parts]
    exact congrArg _ (Text.splitBalanced_append 0 _).symm
  · refine ⟨_, _, _, rfl, ?_, isName, fun given => absurd rfl given⟩
    rwa [List.append_nil]

/-- A segment that the grammar does not ask for is a pseudo-class, with an argument or without
one. -/
theorem readSegmentBy?_cases (read : cursor.readSegmentBy? takes = some (segment, after)) :
    cursor.readSegment? = some (segment, after) ∨
      ∃ name argument, segment = .pseudoClass name argument ∧
        cursor.ahead = segment.text ++ after.ahead ∧ IsName name ∧
          (argument ≠ [] → takes name = true) := by
  unfold readSegmentBy? at read
  split at read
  · next afterColon step =>
    split at read
    · exact Or.inl read
    · obtain ⟨name, argument, behind, same, parts, isName, given⟩ :=
        exists_of_readPseudoClassBy takes afterColon
      rw [same] at read
      cases read
      refine Or.inr ⟨name, argument, rfl, ?_, isName, given⟩
      rw [ahead_of_next? step, parts]
      rfl
  · exact Or.inl read

theorem ahead_length_lt_of_readSegmentBy?
    (read : cursor.readSegmentBy? takes = some (segment, after)) :
    after.ahead.length < cursor.ahead.length := by
  obtain same | ⟨name, argument, rfl, parts, _⟩ := readSegmentBy?_cases read
  · exact ahead_length_lt_of_readSegment? same
  · rw [parts, Segment.text, List.length_append, List.length_append, List.length_cons]
    omega

theorem ahead_of_readSegmentBy?_eq_none (read : cursor.readSegmentBy? takes = none) :
    cursor.ahead = [] := by
  rw [← readSegment?_eq_none_iff]
  unfold readSegmentBy? at read
  split at read
  · split at read
    · exact read
    · cases read
  · exact read

/-- Under the rule of the grammar the reader is the one of the grammar. -/
theorem readSegmentBy?_takesArgument (cursor : Cursor) :
    cursor.readSegmentBy? takesArgument = cursor.readSegment? := by
  unfold readSegmentBy?
  split
  · next afterColon step =>
    split
    · rfl
    · next single =>
      have rest : afterColon.readPseudo = afterColon.readPseudoClass :=
        readPseudo_of_head?_ne afterColon.behind afterColon.ahead single
      rw [readSegment?, step, Option.map_some]
      show _ = some afterColon.readPseudo
      rw [rest]
      rfl
  · rfl

/-- The segments that the reader reads from the cursor to the end of the selector when the rule
tells which names take an argument. -/
def segmentsBy (takes : List Char → Bool) (cursor : Cursor) : List Segment :=
  match _read : cursor.readSegmentBy? takes with
  | none => []
  | some (segment, after) => segment :: after.segmentsBy takes
termination_by cursor.ahead.length
decreasing_by exact ahead_length_lt_of_readSegmentBy? _read

theorem segmentsBy_takesArgument (cursor : Cursor) :
    cursor.segmentsBy takesArgument = cursor.segments := by
  fun_induction segmentsBy takesArgument cursor with
  | case1 cursor read =>
    rw [readSegmentBy?_takesArgument] at read
    exact (segments_of_none read).symm
  | case2 cursor segment after read inductionHypothesis =>
    rw [readSegmentBy?_takesArgument] at read
    rw [inductionHypothesis, segments_of_some read]

/-- What is read first is barren when it gives no token. -/
theorem isBarren_of_readSegmentBy? (plain : takes [] = false)
    (read : cursor.readSegmentBy? takes = some (segment, after)) :
    IsBarren cursor.ahead ↔ segment.token? = none ∧ IsBarren after.ahead := by
  obtain same | ⟨name, argument, rfl, parts, isName, given⟩ := readSegmentBy?_cases read
  · obtain ⟨parts, fits⟩ := fitsBefore_of_readSegment? same
    rw [parts]
    exact isBarren_text_append fits
  · rw [parts]
    refine isBarren_pseudoClass isName (fun empty => ?_) after.ahead
    by_contra some
    rw [empty, plain] at given
    exact Bool.false_ne_true (given some)

/-- Whatever rule tells which names take an argument, the segments ahead of the cursor give no
token exactly when what is ahead is barren. -/
theorem segmentsBy_give_nothing_iff (plain : takes [] = false) (cursor : Cursor) :
    (cursor.segmentsBy takes).filterMap Segment.token? = [] ↔ IsBarren cursor.ahead := by
  fun_induction segmentsBy takes cursor with
  | case1 cursor read =>
    rw [ahead_of_readSegmentBy?_eq_none read]
    exact ⟨fun _ => isBarren_nil, fun _ => rfl⟩
  | case2 cursor segment after read inductionHypothesis =>
    rw [Segment.filterMap_token?_cons, List.append_eq_nil_iff, Option.toList_eq_nil_iff,
      inductionHypothesis, isBarren_of_readSegmentBy? plain read]

end Cursor

/-- The tokens of a selector when the rule tells which names take an argument. -/
def scanBy (takes : List Char → Bool) (selector : String) : List Token :=
  ((Cursor.start selector.toList).segmentsBy takes).filterMap Segment.token?

theorem scanBy_takesArgument (selector : String) : scanBy takesArgument selector = scan selector := by
  rw [scanBy, Cursor.segmentsBy_takesArgument, scan_eq_filterMap]
  rfl

theorem scanBy_eq_nil_iff {takes : List Char → Bool} (plain : takes [] = false)
    (selector : String) : scanBy takes selector = [] ↔ IsBarren selector.toList :=
  Cursor.segmentsBy_give_nothing_iff plain _

/-! ### Emptiness -/

/-- A selector has no lexemes, whether or not repetitions are kept, exactly when no name
character stands outside of its brackets and all of its brackets are degenerate. Which names
take an argument does not matter, as long as the empty name takes none. -/
theorem isEmpty_ofSelector_iff_isBarren (selector : String) :
    (∀ duplicates, (Inventory.ofSelector duplicates selector).isEmpty = true ↔
      IsBarren selector.toList) ∧
    scanBy takesArgument selector = scan selector ∧
    ∀ takes : List Char → Bool, takes [] = false →
      (scanBy takes selector = [] ↔ scan selector = []) := by
  have barren : scan selector = [] ↔ IsBarren selector.toList := by
    rw [← scanBy_takesArgument]
    exact scanBy_eq_nil_iff rfl selector
  refine ⟨fun duplicates => ?_, scanBy_takesArgument selector, fun takes plain => ?_⟩
  · rw [Inventory.isEmpty_ofSelector, barren]
  · rw [scanBy_eq_nil_iff plain, barren]

/-- Marks without names and degenerate brackets, of which the last ones are not closed; and a name
whose argument would give a token of its own under another rule. -/
theorem isEmpty_ofSelector_iff_isBarren_marks :
    (Inventory.ofSelector .collapse "> :(.)[ =b]::[\u00A0").isEmpty = true ∧
      ¬(Inventory.ofSelector .keep ":nth(.a)").isEmpty = true ∧
      (scanBy (fun _ => false) ":nth(.a)" = [] ↔ scan ":nth(.a)" = []) := by
  have barren : IsBarren "> :(.)[ =b]::[\u00A0".toList := by decide +kernel
  have named : ¬IsBarren ":nth(.a)".toList := by decide +kernel
  obtain ⟨empty, _⟩ := isEmpty_ofSelector_iff_isBarren "> :(.)[ =b]::[\u00A0"
  obtain ⟨full, _, rules⟩ := isEmpty_ofSelector_iff_isBarren ":nth(.a)"
  exact ⟨(empty .collapse).mpr barren, mt (full .keep).mp named, rules _ rfl⟩

end SelectorLexemes
