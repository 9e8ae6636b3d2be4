/-
This file proves that scanning commutes with renaming characters. The scanner tells apart its
own marks, name characters, blanks and, up to their case, the letters of `nth`; whatever else a
character is does not matter. A renaming that keeps these apart takes a cut of a selector to a
cut of the renamed selector, segment by segment, and the tokens of the segments along.

Changing the case of letters of ASCII is such a renaming, and so is any change that goes unseen
when case is ignored.
-/

import SelectorLexemes.Proofs.Segmentation

namespace SelectorLexemes

/-! ### Renamings -/

/-- The marks that mean something to the scanner. -/
def scannerMarks : List Char :=
  ['.', '#', ':', '[', ']', '=', '(', ')']

/-- The renaming keeps apart what the scanner keeps apart. -/
structure IsRenaming (rename : Char → Char) : Prop where
  /-- Every mark of the scanner stays as it is, and nothing else becomes one. -/
  marks : ∀ mark ∈ scannerMarks, ∀ other, rename other = mark ↔ other = mark
  /-- Name characters stay name characters, and nothing else becomes one. -/
  names : ∀ mark, isNameChar (rename mark) = isNameChar mark
  /-- Blanks stay blanks, and nothing else becomes one. -/
  blanks : ∀ mark, Text.isBlank (rename mark) = Text.isBlank mark
  /-- The letters of `nth` stay what they are up to their case, and nothing else becomes one. -/
  letters : ∀ letter ∈ ['n', 't', 'h'], ∀ other,
    (rename other).toLower = letter ↔ other.toLower = letter

/-- The lexeme with its characters renamed. -/
def Lexeme.renamed (rename : Char → Char) : Lexeme → Lexeme
  | .text name => .text (name.map rename)
  | .attribute pair => .attribute ⟨pair.key.map rename, pair.value.map rename⟩

/-- The token with the characters of its lexeme renamed. -/
def Token.renamed (rename : Char → Char) (token : Token) : Token :=
  ⟨token.category, token.lexeme.renamed rename⟩

/-- The segment with its characters renamed. -/
def Segment.renamed (rename : Char → Char) : Segment → Segment
  | .separator mark => .separator (rename mark)
  | .element name => .element (name.map rename)
  | .classSelector name => .classSelector (name.map rename)
  | .idSelector name => .idSelector (name.map rename)
  | .pseudoElement name => .pseudoElement (name.map rename)
  | .pseudoClass name argument => .pseudoClass (name.map rename) (argument.map rename)
  | .attribute content closed => .attribute (content.map rename) closed

theorem String.map_ofList (change : Char → Char) (text : List Char) :
    (String.ofList text).map change = String.ofList (text.map change) := by
  rw [← String.toList_inj, String.toList_map, String.toList_ofList, String.toList_ofList]

namespace IsRenaming

variable {rename : Char → Char} (isRenaming : IsRenaming rename)

include isRenaming

/-! ### Characters and texts -/

theorem apply_mark {mark : Char} (isMark : mark ∈ scannerMarks) :
    rename mark = mark :=
  (isRenaming.marks mark isMark mark).mpr rfl

theorem map_eq_some_mark_iff {mark : Char} (isMark : mark ∈ scannerMarks) (next : Option Char) :
    next.map rename = some mark ↔ next = some mark := by
  cases next with
  | none => exact ⟨nofun, nofun⟩
  | some other => rw [Option.map_some, Option.some.injEq, Option.some.injEq,
      isRenaming.marks mark isMark]

theorem mem_map_mark_iff {mark : Char} (isMark : mark ∈ scannerMarks) (text : List Char) :
    mark ∈ text.map rename ↔ mark ∈ text := by
  simp only [List.mem_map, isRenaming.marks mark isMark, exists_eq_right]

theorem count_map_mark {mark : Char} (isMark : mark ∈ scannerMarks) (text : List Char) :
    (text.map rename).count mark = text.count mark := by
  rw [List.count_eq_countP, List.count_eq_countP, List.countP_map]
  refine List.countP_congr fun other _ => ?_
  rw [Function.comp_apply, beq_iff_eq, beq_iff_eq, isRenaming.marks mark isMark]

theorem isName_map {name : List Char} (isName : IsName name) : IsName (name.map rename) := by
  rintro _ member
  obtain ⟨mark, inName, rfl⟩ := List.mem_map.mp member
  rw [isRenaming.names, isName mark inName]

theorem endsName_map {next : Option Char} (ends : EndsName next) :
    EndsName (next.map rename) := by
  intro mark given
  obtain ⟨other, same, rfl⟩ := Option.map_eq_some_iff.mp given
  rw [isRenaming.names, ends other same]

theorem isSeparator_rename {mark : Char} (separates : isSeparator mark = true) :
    isSeparator (rename mark) = true := by
  rw [isSeparator_iff] at separates ⊢
  rw [isRenaming.names, ne_eq, ne_eq, ne_eq, ne_eq, isRenaming.marks '.' (by decide),
    isRenaming.marks '#' (by decide), isRenaming.marks ':' (by decide),
    isRenaming.marks '[' (by decide)]
  exact separates

theorem trim_map (text : List Char) : Text.trim (text.map rename) = (Text.trim text).map rename := by
  have blanks : Text.isBlank ∘ rename = Text.isBlank := funext isRenaming.blanks
  rw [Text.trim, Text.trimStart, Text.trimEnd, List.dropWhile_map, ← List.map_reverse,
    List.dropWhile_map, ← List.map_reverse, blanks]
  rfl

theorem foldCase_map_eq_iff {letters : List Char}
    (known : ∀ letter ∈ letters, letter ∈ ['n', 't', 'h']) (text : List Char) :
    Text.foldCase (text.map rename) = letters ↔ Text.foldCase text = letters := by
  induction text generalizing letters with
  | nil => exact Iff.rfl
  | cons mark rest inductionHypothesis =>
    cases letters with
    | nil => exact ⟨nofun, nofun⟩
    | cons letter others =>
      obtain ⟨first, later⟩ := List.forall_mem_cons.mp known
      have same := and_congr (isRenaming.letters letter first mark) (inductionHypothesis later)
      rwa [← List.cons.injEq, ← List.cons.injEq] at same

theorem takesArgument_map (name : List Char) :
    takesArgument (name.map rename) = takesArgument name := by
  have folded : Text.foldCase ['n', 't', 'h'] = ['n', 't', 'h'] := by decide
  rw [Bool.eq_iff_iff, takesArgument, takesArgument, Text.equalIgnoringCase,
    Text.equalIgnoringCase, beq_iff_eq, beq_iff_eq, folded, ← List.map_take]
  exact isRenaming.foldCase_map_eq_iff (fun _ member => member) _

/-! ### Arguments -/

theorem isBalanced_map (text : List Char) :
    Text.IsBalanced (text.map rename) ↔ Text.IsBalanced text := by
  rw [Text.IsBalanced, isRenaming.count_map_mark (by decide), isRenaming.count_map_mark (by decide)]
  rfl

theorem isArgument_map {argument : List Char} {next : Option Char}
    (isArgument : Text.IsArgument argument next) :
    Text.IsArgument (argument.map rename) (next.map rename) := by
  obtain ⟨opens, earliest, ends⟩ := isArgument
  refine ⟨?_, ?_, ?_⟩
  · rw [List.head?_map, opens, Option.map_some, isRenaming.apply_mark (by decide)]
  · intro part isPart nonempty proper
    obtain ⟨before, isBefore, rfl⟩ := List.prefix_map_iff.mp isPart
    rw [isRenaming.isBalanced_map]
    exact earliest before isBefore (mt List.map_eq_nil_iff.mpr nonempty)
      fun whole => proper (congrArg _ whole)
  · rw [isRenaming.isBalanced_map, Option.map_eq_none_iff]
    exact ends

theorem fitsArgument_map {name argument : List Char} {next : Option Char}
    (fits : Segment.FitsArgument name argument next) :
    Segment.FitsArgument (name.map rename) (argument.map rename) (next.map rename) := by
  have same : (takesArgument (name.map rename) = true ∧
        (argument.map rename).head?.or (next.map rename) = some '(') ↔
      (takesArgument name = true ∧ argument.head?.or next = some '(') := by
    rw [isRenaming.takesArgument_map, List.head?_map, ← Option.map_or,
      isRenaming.map_eq_some_mark_iff (by decide)]
  rw [Segment.FitsArgument] at fits ⊢
  by_cases takes : takesArgument name = true ∧ argument.head?.or next = some '('
  · rw [if_pos takes] at fits
    rw [if_pos (same.mpr takes)]
    exact isRenaming.isArgument_map fits
  · rw [if_neg takes] at fits
    rw [if_neg (mt same.mp takes), fits, List.map_nil]

/-! ### Segments -/

theorem text_renamed (segment : Segment) :
    (segment.renamed rename).text = segment.text.map rename := by
  match segment with
  | .separator _ | .element _ => rfl
  | .classSelector _ | .idSelector _ =>
    rw [Segment.text, List.map_cons, isRenaming.apply_mark (by decide)]
    rfl
  | .pseudoElement _ =>
    rw [Segment.text, List.map_cons, List.map_cons, isRenaming.apply_mark (by decide)]
    rfl
  | .pseudoClass _ _ =>
    rw [Segment.text, List.map_append, List.map_cons, isRenaming.apply_mark (by decide)]
    rfl
  | .attribute _ true =>
    rw [Segment.text, List.map_append, List.map_cons, isRenaming.apply_mark (by decide),
      if_pos rfl, List.map_singleton, isRenaming.apply_mark (by decide)]
    rfl
  | .attribute _ false =>
    rw [Segment.text, List.map_append, List.map_cons, isRenaming.apply_mark (by decide)]
    rfl

theorem fitsBefore_renamed {segment : Segment} {next : Option Char}
    (fits : segment.FitsBefore next) :
    (segment.renamed rename).FitsBefore (next.map rename) := by
  match segment, fits with
  | .separator _, fits => exact isRenaming.isSeparator_rename fits
  | .element _, ⟨nonempty, isName, ends⟩ =>
    exact ⟨mt List.map_eq_nil_iff.mp nonempty, isRenaming.isName_map isName,
      isRenaming.endsName_map ends⟩
  | .classSelector _, ⟨isName, ends⟩ =>
    exact ⟨isRenaming.isName_map isName, isRenaming.endsName_map ends⟩
  | .idSelector _, ⟨isName, ends⟩ =>
    exact ⟨isRenaming.isName_map isName, isRenaming.endsName_map ends⟩
  | .pseudoElement _, ⟨isName, ends⟩ =>
    exact ⟨isRenaming.isName_map isName, isRenaming.endsName_map ends⟩
  | .pseudoClass _ _, ⟨isName, ends, single, fits⟩ =>
    refine ⟨isRenaming.isName_map isName, ?_, ?_, isRenaming.fitsArgument_map fits⟩
    · rw [List.head?_map, ← Option.map_or]
      exact isRenaming.endsName_map ends
    · rw [List.head?_map, List.head?_map, ← Option.map_or, ← Option.map_or, ne_eq,
        isRenaming.map_eq_some_mark_iff (by decide)]
      exact single
  | .attribute _ _, ⟨free, ends⟩ =>
    refine ⟨mt (isRenaming.mem_map_mark_iff (by decide) _).mp free, ?_⟩
    rwa [Option.map_eq_none_iff]

theorem flatMap_text_renamed (segments : List Segment) :
    (segments.map (Segment.renamed rename)).flatMap Segment.text =
      (segments.flatMap Segment.text).map rename := by
  rw [List.flatMap_map, List.map_flatMap]
  exact congrArg (segments.flatMap ·) (funext isRenaming.text_renamed)

theorem allFitBefore_renamed {segments : List Segment} {next : Option Char}
    (fits : Segment.AllFitBefore next segments) :
    Segment.AllFitBefore (next.map rename) (segments.map (Segment.renamed rename)) := by
  induction segments with
  | nil => trivial
  | cons segment rest inductionHypothesis =>
    obtain ⟨fitsFirst, fitsRest⟩ := fits
    refine ⟨?_, inductionHypothesis fitsRest⟩
    rw [isRenaming.flatMap_text_renamed, List.head?_map, ← Option.map_or]
    exact isRenaming.fitsBefore_renamed fitsFirst

/-- The renamed segments of a selector cut the renamed selector. -/
theorem isCutOf_renamed {segments : List Segment} {selector : List Char}
    (cut : Segment.IsCutOf segments selector) :
    Segment.IsCutOf (segments.map (Segment.renamed rename)) (selector.map rename) :=
  ⟨by rw [isRenaming.flatMap_text_renamed, cut.covers], isRenaming.allFitBefore_renamed cut.fits⟩

/-! ### Tokens -/

theorem named?_map (category : Category) (name : List Char) :
    Token.named? category (name.map rename) =
      (Token.named? category name).map (Token.renamed rename) := by
  rw [Token.named?, Token.named?, isRenaming.trim_map]
  simp only [List.map_eq_nil_iff]
  split
  · rfl
  · rw [Option.map_some, Token.renamed, Lexeme.renamed, String.map_ofList]

theorem attribute?_map (key value : List Char) :
    Token.attribute? (key.map rename) (value.map rename) =
      (Token.attribute? key value).map (Token.renamed rename) := by
  rw [Token.attribute?_eq, Token.attribute?_eq, isRenaming.trim_map, isRenaming.trim_map]
  simp only [List.map_eq_nil_iff]
  split
  · rfl
  · rw [Option.map_some, Token.renamed, Lexeme.renamed, String.map_ofList, String.map_ofList]

theorem hasSides_map {content key value : List Char} (sides : HasSides content key value) :
    HasSides (content.map rename) (key.map rename) (value.map rename) := by
  obtain ⟨free, split⟩ := sides
  refine ⟨mt (isRenaming.mem_map_mark_iff (by decide) key).mp free, ?_⟩
  obtain rfl | ⟨rfl, rfl⟩ := split
  · refine Or.inl ?_
    rw [List.map_append, List.map_cons, isRenaming.apply_mark (by decide)]
  · exact Or.inr ⟨rfl, rfl⟩

theorem token?_renamed (segment : Segment) :
    (segment.renamed rename).token? = segment.token?.map (Token.renamed rename) := by
  match segment with
  | .separator _ => rfl
  | .element name => exact isRenaming.named?_map .elements name
  | .classSelector name => exact isRenaming.named?_map .classes name
  | .idSelector name => exact isRenaming.named?_map .ids name
  | .pseudoElement name => exact isRenaming.named?_map .pseudoElements name
  | .pseudoClass name _ => exact isRenaming.named?_map .pseudoClasses name
  | .attribute content closed =>
    obtain ⟨key, value, sides⟩ := exists_hasSides content
    rw [Segment.renamed, Segment.token?, Segment.token?,
      Segment.attributeToken?_of_hasSides _ _ _ sides,
      Segment.attributeToken?_of_hasSides _ _ _ (isRenaming.hasSides_map sides),
      isRenaming.attribute?_map]

/-- Renaming characters and then scanning is scanning and then renaming characters. -/
theorem scan_map_eq (selector : String) :
    scan (selector.map rename) = (scan selector).map (Token.renamed rename) := by
  have cut := isRenaming.isCutOf_renamed (Segment.isCutOf_ofSelector selector)
  rw [← String.toList_map] at cut
  have tokens : Segment.token? ∘ Segment.renamed rename =
      fun segment => segment.token?.map (Token.renamed rename) :=
    funext isRenaming.token?_renamed
  rw [scan_of_isCutOf _ _ cut, scan_eq_filterMap, List.filterMap_map, tokens, List.map_filterMap]

end IsRenaming

/-! ### Changes of case -/

/-- What holds of every character of ASCII is found out by going through them. -/
theorem forall_ascii (holds : Char → Prop) (small : ∀ value < 128, holds (Char.ofNat value))
    {mark : Char} (ascii : mark.toNat < 128) : holds mark := by
  have listed := small mark.toNat ascii
  rwa [Char.ofNat_toNat] at listed

theorem toLower_of_not_ascii {mark : Char} (large : ¬mark.toNat < 128) : mark.toLower = mark := by
  refine dif_neg fun ⟨_, upper⟩ => large ?_
  exact Nat.lt_of_le_of_lt (UInt32.le_iff_toNat_le.mp upper) (by decide)

theorem toUpper_of_not_ascii {mark : Char} (large : ¬mark.toNat < 128) : mark.toUpper = mark := by
  refine dif_neg fun ⟨_, lower⟩ => large ?_
  exact Nat.lt_of_le_of_lt (UInt32.le_iff_toNat_le.mp lower) (by decide)

theorem toLower_toLower (mark : Char) : mark.toLower.toLower = mark.toLower := by
  by_cases ascii : mark.toNat < 128
  · exact forall_ascii (fun mark => mark.toLower.toLower = mark.toLower) (by decide) ascii
  · rw [toLower_of_not_ascii ascii, toLower_of_not_ascii ascii]

theorem toLower_toUpper (mark : Char) : mark.toUpper.toLower = mark.toLower := by
  by_cases ascii : mark.toNat < 128
  · exact forall_ascii (fun mark => mark.toUpper.toLower = mark.toLower) (by decide) ascii
  · rw [toUpper_of_not_ascii ascii]

/-- Only letters have a small form of their own, and it is a letter again. -/
theorem toLower_eq_or_isNameChar (mark : Char) :
    mark.toLower = mark ∨ isNameChar mark.toLower = true ∧ isNameChar mark = true := by
  by_cases ascii : mark.toNat < 128
  · exact forall_ascii (fun mark => mark.toLower = mark ∨
      isNameChar mark.toLower = true ∧ isNameChar mark = true) (by decide) ascii
  · exact Or.inl (toLower_of_not_ascii ascii)

theorem isNameChar_toLower (mark : Char) : isNameChar mark.toLower = isNameChar mark := by
  obtain same | ⟨lower, given⟩ := toLower_eq_or_isNameChar mark
  · rw [same]
  · rw [lower, given]

theorem isBlank_toLower (mark : Char) : Text.isBlank mark.toLower = Text.isBlank mark := by
  obtain same | ⟨lower, given⟩ := toLower_eq_or_isNameChar mark
  · rw [same]
  · rw [isBlank_of_isNameChar _ lower, isBlank_of_isNameChar _ given]

theorem toLower_eq_iff {mark : Char} (notName : isNameChar mark = false) (other : Char) :
    other.toLower = mark ↔ other = mark := by
  obtain same | ⟨lower, given⟩ := toLower_eq_or_isNameChar other
  · rw [same]
  · exact iff_of_false (ne_of_isNameChar lower notName) (ne_of_isNameChar given notName)

/-- What goes unseen when the case of letters is ignored is a renaming. -/
theorem IsRenaming.of_toLower {rename : Char → Char}
    (same : ∀ mark, (rename mark).toLower = mark.toLower) : IsRenaming rename := by
  have notName : scannerMarks.any isNameChar = false := by decide
  constructor
  · intro mark isMark other
    have plain : isNameChar mark = false :=
      Bool.eq_false_iff.mpr (List.any_eq_false.mp notName mark isMark)
    rw [← toLower_eq_iff plain, same, toLower_eq_iff plain]
  · intro mark
    rw [← isNameChar_toLower, same, isNameChar_toLower]
  · intro mark
    rw [← isBlank_toLower, same, isBlank_toLower]
  · intro letter _ other
    rw [same]

/-! ### Blanks -/

/-- Every blank becomes a space. -/
def evenBlanks (mark : Char) : Char :=
  if Text.isBlank mark then ' ' else mark

theorem evenBlanks_eq_or_isBlank (mark : Char) :
    evenBlanks mark = mark ∨
      Text.isBlank (evenBlanks mark) = true ∧ Text.isBlank mark = true := by
  rw [evenBlanks]
  split
  · next blank => exact Or.inr ⟨by decide, blank⟩
  · exact Or.inl rfl

theorem ne_of_isBlank {mark other : Char} (blank : Text.isBlank mark = true)
    (solid : Text.isBlank other = false) : mark ≠ other := by
  rintro rfl
  rw [blank] at solid
  cases solid

theorem isNameChar_of_isBlank {mark : Char} (blank : Text.isBlank mark = true) :
    isNameChar mark = false :=
  Bool.eq_false_iff.mpr fun name => ne_of_isBlank blank (isBlank_of_isNameChar mark name) rfl

theorem isRenaming_evenBlanks : IsRenaming evenBlanks := by
  have solidMarks : scannerMarks.any Text.isBlank = false := by decide
  have solidLetters : ['n', 't', 'h'].any Text.isBlank = false := by decide
  constructor
  · intro mark isMark other
    have solid := Bool.eq_false_iff.mpr (List.any_eq_false.mp solidMarks mark isMark)
    obtain same | ⟨even, blank⟩ := evenBlanks_eq_or_isBlank other
    · rw [same]
    · exact iff_of_false (ne_of_isBlank even solid) (ne_of_isBlank blank solid)
  · intro mark
    obtain same | ⟨even, blank⟩ := evenBlanks_eq_or_isBlank mark
    · rw [same]
    · rw [isNameChar_of_isBlank even, isNameChar_of_isBlank blank]
  · intro mark
    obtain same | ⟨even, blank⟩ := evenBlanks_eq_or_isBlank mark
    · rw [same]
    · rw [even, blank]
  · intro letter isLetter other
    have solid := Bool.eq_false_iff.mpr (List.any_eq_false.mp solidLetters letter isLetter)
    obtain same | ⟨even, blank⟩ := evenBlanks_eq_or_isBlank other
    · rw [same]
    · rw [← isBlank_toLower] at even blank
      exact iff_of_false (ne_of_isBlank even solid) (ne_of_isBlank blank solid)

/-! ### Scanning what is renamed -/

/-- Scanning commutes with every renaming of characters that keeps apart what the scanner keeps
apart. Large or small letters of ASCII in place of all others are such a renaming, so they only
change the case of the lexemes. -/
theorem scan_renamed :
    (∀ rename, IsRenaming rename → ∀ selector : String,
      scan (selector.map rename) = (scan selector).map (Token.renamed rename)) ∧
    ∀ selector : String,
      scan selector.toUpper = (scan selector).map (Token.renamed Char.toUpper) ∧
        scan selector.toLower = (scan selector).map (Token.renamed Char.toLower) := by
  refine ⟨fun rename isRenaming => isRenaming.scan_map_eq, fun selector => ⟨?_, ?_⟩⟩
  · exact (IsRenaming.of_toLower toLower_toUpper).scan_map_eq selector
  · exact (IsRenaming.of_toLower toLower_toLower).scan_map_eq selector

/-- A renaming need not keep different blanks apart. -/
theorem scan_renamed_evenBlanks :
    IsRenaming evenBlanks ∧
      scan ("a\t:nTh-child(\u2003)[\u00a0k = v\nw]".map evenBlanks) =
        (scan "a\t:nTh-child(\u2003)[\u00a0k = v\nw]").map (Token.renamed evenBlanks) :=
  ⟨isRenaming_evenBlanks, scan_renamed.1 evenBlanks isRenaming_evenBlanks _⟩

end SelectorLexemes
