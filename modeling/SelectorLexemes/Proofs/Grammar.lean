/-
This file gives the grammar of selectors. It says which segments a selector may be cut
into by looking only at a segment and at the one character behind it: names run as far
as name characters go, brackets run up to the first closing one, and an argument runs up
to where its parentheses balance. No position and no order of reading is mentioned.

Every text that is not empty begins with a segment of the grammar. That there is never a
choice between two is settled by `Proofs/Segmentation.lean`, which compares the grammar
with the reader.
-/

import Mathlib.Data.List.TakeWhile
import SelectorLexemes.Proofs.Parentheses
import SelectorLexemes.Segment

namespace SelectorLexemes

/-! ### Names and separators -/

/-- A character that stands for itself between segments. -/
def isSeparator (mark : Char) : Bool :=
  !isNameChar mark && !(['.', '#', ':', '['].contains mark)

/-- All characters are name characters. A name may be empty. -/
def IsName (name : List Char) : Prop :=
  ∀ mark ∈ name, isNameChar mark = true

/-- A name cannot go on with the next character. -/
def EndsName (next : Option Char) : Prop :=
  ∀ mark, next = some mark → isNameChar mark = false

instance (name : List Char) : Decidable (IsName name) :=
  decidable_of_iff (name.all isNameChar = true) List.all_eq_true

instance (next : Option Char) : Decidable (EndsName next) :=
  decidable_of_iff (next.all (!isNameChar ·) = true) (by simp [EndsName, Option.all_eq_true])

theorem isSeparator_iff (mark : Char) :
    isSeparator mark = true ↔
      isNameChar mark = false ∧ mark ≠ '.' ∧ mark ≠ '#' ∧ mark ≠ ':' ∧ mark ≠ '[' := by
  simp [isSeparator]

theorem endsName_none : EndsName none :=
  fun _ impossible => absurd impossible (Option.some_ne_none _).symm

theorem endsName_some (mark : Char) : EndsName (some mark) ↔ isNameChar mark = false :=
  ⟨fun ends => ends mark rfl, fun other _ same => Option.some.inj same ▸ other⟩

theorem ne_of_isNameChar {mark other : Char} (name : isNameChar mark = true)
    (notName : isNameChar other = false) : mark ≠ other := by
  rintro rfl
  rw [name] at notName
  cases notName

theorem forall_bne_of_not_mem {mark : Char} {text : List Char} (free : mark ∉ text) :
    ∀ other ∈ text, (other != mark) = true :=
  fun _ member => bne_iff_ne.mpr (ne_of_mem_of_not_mem member free)

/-- Name characters lie between the hyphen and the last small letter. -/
theorem toNat_of_isNameChar (mark : Char) (name : isNameChar mark = true) :
    45 ≤ mark.toNat ∧ mark.toNat ≤ 122 := by
  rcases Bool.or_eq_true_iff.mp name with other | underscore
  · rcases Bool.or_eq_true_iff.mp other with letterOrDigit | hyphen
    · rcases Bool.or_eq_true_iff.mp letterOrDigit with letter | digit
      · rcases Bool.or_eq_true_iff.mp letter with upper | lower
        · have range : 65 ≤ mark.toNat ∧ mark.toNat ≤ 90 := of_decide_eq_true upper
          omega
        · obtain ⟨low, high⟩ := Bool.and_eq_true_iff.mp lower
          have atLeast : 97 ≤ mark.toNat := of_decide_eq_true low
          have atMost : mark.toNat ≤ 122 := of_decide_eq_true high
          omega
      · obtain ⟨low, high⟩ := Bool.and_eq_true_iff.mp digit
        have atLeast : 48 ≤ mark.toNat := of_decide_eq_true low
        have atMost : mark.toNat ≤ 57 := of_decide_eq_true high
        omega
    · rw [eq_of_beq hyphen]
      decide
  · rw [eq_of_beq underscore]
    decide

theorem isBlank_of_isNameChar (mark : Char) (name : isNameChar mark = true) :
    Text.isBlank mark = false := by
  have range := toNat_of_isNameChar mark name
  simp only [Text.isBlank, Text.blankRanges, List.any_cons, List.any_nil, Bool.or_false,
    Bool.or_eq_false_iff, Bool.and_eq_false_iff, decide_eq_false_iff_not]
  omega

theorem dropWhile_isBlank_name (name : List Char) (isName : IsName name) :
    name.dropWhile Text.isBlank = name := by
  cases name with
  | nil => rfl
  | cons mark rest =>
    have notBlank := isBlank_of_isNameChar mark (isName mark List.mem_cons_self)
    rw [List.dropWhile_cons_of_neg (Bool.eq_false_iff.mp notBlank)]

/-- No name character is a blank, so trimming leaves a name alone. -/
theorem trim_name (name : List Char) (isName : IsName name) : Text.trim name = name := by
  have backwards : IsName name.reverse := fun mark member =>
    isName mark (List.mem_reverse.mp member)
  rw [Text.trim, Text.trimStart, dropWhile_isBlank_name name isName, Text.trimEnd,
    dropWhile_isBlank_name name.reverse backwards, List.reverse_reverse]

/-- Every text begins with a name that cannot go on, which may be the empty one. -/
theorem exists_name (text : List Char) :
    ∃ name rest, text = name ++ rest ∧ IsName name ∧ EndsName rest.head? := by
  refine ⟨text.takeWhile isNameChar, text.dropWhile isNameChar,
    List.takeWhile_append_dropWhile.symm, fun mark member => List.mem_takeWhile_imp member,
    fun mark next => ?_⟩
  have stops := List.head?_dropWhile_not isNameChar text
  rw [next] at stops
  exact stops

/-- Every text is free of closing brackets up to the first one or up to its end. -/
theorem exists_bracketed (text : List Char) :
    ∃ content closed rest, text = content ++ (if closed then [']'] else []) ++ rest ∧
      ']' ∉ content ∧ (closed = true ∨ rest.head? = none) := by
  have parts := text.takeWhile_append_dropWhile (p := (· != ']'))
  have content : ']' ∉ text.takeWhile (· != ']') := fun member => by
    simpa using List.mem_takeWhile_imp member
  cases left : text.dropWhile (· != ']') with
  | nil =>
    refine ⟨text.takeWhile (· != ']'), false, [], ?_, content, Or.inr rfl⟩
    rw [left] at parts
    simpa using parts.symm
  | cons closing rest =>
    have stops := List.head?_dropWhile_not (· != ']') text
    rw [left] at stops parts
    have isClosing : closing = ']' := by simpa using stops
    refine ⟨text.takeWhile (· != ']'), true, rest, ?_, content, Or.inl rfl⟩
    simpa [isClosing] using parts.symm

namespace Segment

/-! ### Segments of the grammar -/

/-- What may stand behind the name of a pseudo-class: an argument, if the name takes one
and a parenthesis follows, and otherwise nothing. -/
def FitsArgument (name argument : List Char) (next : Option Char) : Prop :=
  if takesArgument name ∧ argument.head?.or next = some '(' then
    Text.IsArgument argument next
  else
    argument = []

/-- The segment is of the grammar and as long as it can be when `next` is the character
behind it, or when the end of the selector is behind it. -/
def FitsBefore (next : Option Char) : Segment → Prop
  | .separator mark => isSeparator mark
  | .element name => name ≠ [] ∧ IsName name ∧ EndsName next
  | .classSelector name | .idSelector name | .pseudoElement name => IsName name ∧ EndsName next
  | .pseudoClass name argument =>
    IsName name ∧ EndsName (argument.head?.or next) ∧
      name.head?.or (argument.head?.or next) ≠ some ':' ∧ FitsArgument name argument next
  | .attribute content closed => ']' ∉ content ∧ (closed = true ∨ next = none)

/-- Each segment fits before what follows it, with `next` behind all of them. -/
def AllFitBefore (next : Option Char) : List Segment → Prop
  | [] => True
  | segment :: rest =>
    segment.FitsBefore ((rest.flatMap text).head?.or next) ∧ AllFitBefore next rest

/-- The segments cut a selector: their texts make it up, one after another, and each of
them fits where it stands. -/
structure IsCutOf (segments : List Segment) (selector : List Char) : Prop where
  /-- Nothing of the selector is left out and nothing is added. -/
  covers : segments.flatMap text = selector
  /-- Every segment fits before the one behind it, and the last one before the end. -/
  fits : AllFitBefore none segments

instance (name argument : List Char) (next : Option Char) :
    Decidable (FitsArgument name argument next) :=
  inferInstanceAs (Decidable
    (if takesArgument name ∧ argument.head?.or next = some '(' then
      Text.IsArgument argument next
    else
      argument = []))

instance (next : Option Char) : (segment : Segment) → Decidable (segment.FitsBefore next)
  | .separator mark => inferInstanceAs (Decidable (isSeparator mark = true))
  | .element _ => inferInstanceAs (Decidable (_ ∧ _ ∧ _))
  | .classSelector _ | .idSelector _ | .pseudoElement _ => inferInstanceAs (Decidable (_ ∧ _))
  | .pseudoClass _ _ => inferInstanceAs (Decidable (_ ∧ _ ∧ _ ∧ _))
  | .attribute _ _ => inferInstanceAs (Decidable (_ ∧ (_ ∨ _)))

instance decidableAllFitBefore (next : Option Char) :
    (segments : List Segment) → Decidable (AllFitBefore next segments)
  | [] => inferInstanceAs (Decidable True)
  | _ :: rest =>
    have := decidableAllFitBefore next rest
    inferInstanceAs (Decidable (_ ∧ _))

instance (segments : List Segment) (selector : List Char) :
    Decidable (IsCutOf segments selector) :=
  decidable_of_iff (segments.flatMap text = selector ∧ AllFitBefore none segments)
    ⟨fun ⟨covers, fits⟩ => ⟨covers, fits⟩, fun ⟨covers, fits⟩ => ⟨covers, fits⟩⟩

/-- A pseudo-class goes without an argument unless it takes one and a parenthesis follows. -/
theorem fitsArgument_nil_iff (name : List Char) (next : Option Char) :
    FitsArgument name [] next ↔ ¬(takesArgument name = true ∧ next = some '(') := by
  rw [FitsArgument, List.head?_nil, Option.none_or]
  by_cases takes : takesArgument name = true ∧ next = some '('
  · rw [if_pos takes]
    exact ⟨fun isArgument => absurd isArgument.opens nofun, fun other => absurd takes other⟩
  · rw [if_neg takes]
    exact ⟨fun _ => takes, fun _ => rfl⟩

theorem fitsArgument_iff_of_ne_nil (name argument : List Char) (next : Option Char)
    (given : argument ≠ []) :
    FitsArgument name argument next ↔
      takesArgument name = true ∧ Text.IsArgument argument next := by
  rw [FitsArgument]
  by_cases takes : takesArgument name = true ∧ argument.head?.or next = some '('
  · rw [if_pos takes]
    exact ⟨fun isArgument => ⟨takes.1, isArgument⟩, And.right⟩
  · rw [if_neg takes]
    refine ⟨fun empty => absurd empty given, fun other => absurd ⟨other.1, ?_⟩ takes⟩
    rw [other.2.opens, Option.some_or]

theorem text_ne_nil {segment : Segment} {next : Option Char}
    (fits : segment.FitsBefore next) : segment.text ≠ [] := by
  match segment, fits with
  | .element _, fits => exact fits.1
  | .separator _, _ | .classSelector _, _ | .idSelector _, _ | .pseudoElement _, _
  | .pseudoClass _ _, _ | .attribute _ _, _ => exact List.cons_ne_nil _ _

/-- Segments fit before what follows them exactly when each half of them does. -/
theorem allFitBefore_append_iff (first second : List Segment) (next : Option Char) :
    AllFitBefore next (first ++ second) ↔
      AllFitBefore ((second.flatMap text).head?.or next) first ∧ AllFitBefore next second := by
  induction first with
  | nil => rw [List.nil_append, AllFitBefore, true_and]
  | cons segment rest inductionHypothesis =>
    rw [List.cons_append, AllFitBefore, AllFitBefore, inductionHypothesis, List.flatMap_append,
      List.head?_append, Option.or_assoc, and_assoc]

/-- A segment that fits in front of a text extends every cut of the text. -/
theorem IsCutOf.cons {segment : Segment} {segments : List Segment} {text : List Char}
    (fits : segment.FitsBefore text.head?) (cut : IsCutOf segments text) :
    IsCutOf (segment :: segments) (segment.text ++ text) := by
  refine ⟨by rw [List.flatMap_cons, cut.covers], ?_, cut.fits⟩
  rwa [Option.or_none, cut.covers]

theorem flatMap_text_separators (gap : List Char) : (gap.map separator).flatMap text = gap := by
  induction gap with
  | nil => rfl
  | cons mark rest inductionHypothesis =>
    rw [List.map_cons, List.flatMap_cons, inductionHypothesis, Segment.text,
      List.singleton_append]

theorem allFitBefore_separators (gap : List Char) (next : Option Char)
    (separates : ∀ mark ∈ gap, isSeparator mark = true) :
    AllFitBefore next (gap.map separator) := by
  induction gap with
  | nil => trivial
  | cons mark rest inductionHypothesis =>
    obtain ⟨first, others⟩ := List.forall_mem_cons.mp separates
    exact ⟨first, inductionHypothesis others⟩

/-- A name behind a single colon begins a pseudo-class, with or without an argument. -/
theorem exists_pseudoClass (name afterName : List Char) (isName : IsName name)
    (ends : EndsName afterName.head?) (single : (name ++ afterName).head? ≠ some ':') :
    ∃ argument rest, ':' :: (name ++ afterName) = (pseudoClass name argument).text ++ rest ∧
      (pseudoClass name argument).FitsBefore rest.head? := by
  rw [List.head?_append] at single
  by_cases takes : takesArgument name ∧ afterName.head? = some '('
  · obtain ⟨argument, rest, rfl, isArgument⟩ := Text.exists_isArgument afterName takes.2
    rw [List.head?_append] at single ends takes
    refine ⟨argument, rest, ?_, isName, ends, single, ?_⟩
    · rw [Segment.text, List.cons_append, List.cons_append, List.append_assoc]
    · rw [FitsArgument, if_pos takes]
      exact isArgument
  · refine ⟨[], afterName, ?_, isName, ends, single, ?_⟩
    · rw [Segment.text, List.append_nil, List.cons_append]
    · rwa [fitsArgument_nil_iff]

/-- Every text behind a colon begins with the rest of a segment of the grammar. -/
theorem exists_pseudo (text : List Char) :
    ∃ (segment : Segment) (rest : List Char),
      ':' :: text = segment.text ++ rest ∧ segment.FitsBefore rest.head? := by
  by_cases second : text.head? = some ':'
  · obtain ⟨afterColons, rfl⟩ := List.head?_eq_some_iff.mp second
    obtain ⟨name, rest, rfl, isName, ends⟩ := exists_name afterColons
    exact ⟨.pseudoElement name, rest, rfl, isName, ends⟩
  · obtain ⟨name, afterName, rfl, isName, ends⟩ := exists_name text
    obtain ⟨argument, rest, parts, fits⟩ := exists_pseudoClass name afterName isName ends second
    exact ⟨.pseudoClass name argument, rest, parts, fits⟩

/-- Every text that is not empty begins with a segment of the grammar. -/
theorem exists_fitsBefore (mark : Char) (text : List Char) :
    ∃ (segment : Segment) (rest : List Char),
      mark :: text = segment.text ++ rest ∧ segment.FitsBefore rest.head? := by
  by_cases dot : mark = '.'
  · obtain ⟨name, rest, rfl, isName, ends⟩ := exists_name text
    exact ⟨.classSelector name, rest, by rw [dot, Segment.text, List.cons_append], isName, ends⟩
  by_cases hash : mark = '#'
  · obtain ⟨name, rest, rfl, isName, ends⟩ := exists_name text
    exact ⟨.idSelector name, rest, by rw [hash, Segment.text, List.cons_append], isName, ends⟩
  by_cases colon : mark = ':'
  · exact colon ▸ exists_pseudo text
  by_cases bracket : mark = '['
  · obtain ⟨content, closed, rest, rfl, free, ends⟩ := exists_bracketed text
    exact ⟨.attribute content closed, rest, by rw [bracket]; rfl, free, ends⟩
  by_cases named : isNameChar mark = true
  · obtain ⟨name, rest, rfl, isName, ends⟩ := exists_name text
    refine ⟨.element (mark :: name), rest, rfl, List.cons_ne_nil _ _, ?_, ends⟩
    exact List.forall_mem_cons.mpr ⟨named, isName⟩
  · refine ⟨.separator mark, text, rfl, ?_⟩
    exact (isSeparator_iff mark).mpr
      ⟨Bool.eq_false_iff.mpr named, dot, hash, colon, bracket⟩

end Segment

end SelectorLexemes
