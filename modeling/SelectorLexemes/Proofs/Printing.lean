/-
This file proves that scanning undoes printing. Tokens can be written down one after
another with separators between them, and the scan gives back the tokens, whatever the
separators are. Only two neighbours have to be kept apart: a name must not run into a bare
name behind it, and a name that takes an argument must not meet a parenthesis.

All other neighbours may touch. Each kind of token begins with a mark of its own that no
name goes on with, and brackets end themselves.
-/

import Mathlib.Data.List.Chain
import SelectorLexemes.Proofs.Segmentation

namespace SelectorLexemes

/-! ### Writing tokens down -/

/-- What can be written down so that it can be read again: a name that is not empty, or a
pair of two sides that are trimmed, not empty and free of the marks that would end them. -/
def Lexeme.IsPrintable : Lexeme → Prop
  | .text name => name ≠ "" ∧ IsName name.toList
  | .attribute pair =>
    (pair.key ≠ "" ∧ Text.trimmed pair.key = pair.key ∧
      '=' ∉ pair.key.toList ∧ ']' ∉ pair.key.toList) ∧
    (pair.value ≠ "" ∧ Text.trimmed pair.value = pair.value ∧ ']' ∉ pair.value.toList)

/-- A token can be written as a text. Only a pair of equal sides has more than one form. -/
inductive Token.PrintsAs : Token → List Char → Prop
  /-- A bare name. -/
  | element (name : String) : PrintsAs ⟨.elements, .text name⟩ name.toList
  /-- A name behind a dot. -/
  | classSelector (name : String) : PrintsAs ⟨.classes, .text name⟩ ('.' :: name.toList)
  /-- A name behind a hash sign. -/
  | idSelector (name : String) : PrintsAs ⟨.ids, .text name⟩ ('#' :: name.toList)
  /-- A name behind two colons. -/
  | pseudoElement (name : String) :
      PrintsAs ⟨.pseudoElements, .text name⟩ (':' :: ':' :: name.toList)
  /-- A name behind a colon. -/
  | pseudoClass (name : String) : PrintsAs ⟨.pseudoClasses, .text name⟩ (':' :: name.toList)
  /-- Two sides around an equals sign. -/
  | pair (key value : String) :
      PrintsAs ⟨.attributes, .attribute ⟨key, value⟩⟩
        ('[' :: (key.toList ++ '=' :: value.toList) ++ [']'])
  /-- One text that is both sides. -/
  | shorthand (side : String) :
      PrintsAs ⟨.attributes, .attribute ⟨side, side⟩⟩ ('[' :: side.toList ++ [']'])

/-! ### Reading one token again -/

namespace Token

theorem head_of_isPrintable {name : String} (printable : (Lexeme.text name).IsPrintable) :
    ∃ mark, name.toList.head? = some mark ∧ isNameChar mark = true := by
  obtain ⟨mark, rest, characters⟩ :=
    List.exists_cons_of_ne_nil (mt String.toList_eq_nil_iff.mp printable.1)
  exact ⟨mark, by rw [characters, List.head?_cons], printable.2 mark (by simp [characters])⟩

/-- A form begins with a mark that no name goes on with, unless it is a bare name, and
never with a parenthesis. -/
theorem head_of_printsAs {token : Token} {form : List Char}
    (printable : token.lexeme.IsPrintable) (prints : token.PrintsAs form) :
    ∃ mark, form.head? = some mark ∧ mark ≠ '(' ∧
      (token.category ≠ .elements → isNameChar mark = false) := by
  cases prints with
  | element name =>
    obtain ⟨mark, head, named⟩ := head_of_isPrintable printable
    exact ⟨mark, head, ne_of_isNameChar named (by decide), fun other => absurd rfl other⟩
  | classSelector name => exact ⟨'.', rfl, by decide, fun _ => by decide⟩
  | idSelector name => exact ⟨'#', rfl, by decide, fun _ => by decide⟩
  | pseudoElement name => exact ⟨':', rfl, by decide, fun _ => by decide⟩
  | pseudoClass name => exact ⟨':', rfl, by decide, fun _ => by decide⟩
  | pair key value => exact ⟨'[', rfl, by decide, fun _ => by decide⟩
  | shorthand side => exact ⟨'[', rfl, by decide, fun _ => by decide⟩

/-- The next character does not change how a token is read: it goes on with no name, and
it is no parenthesis behind a name that takes an argument. -/
def Admits (token : Token) (next : Option Char) : Prop :=
  token.category ≠ .attributes →
    EndsName next ∧ ∀ name, token = ⟨.pseudoClasses, .text name⟩ →
      takesArgument name.toList → next ≠ some '('

theorem attributeToken?_of_printable {content : List Char} {key value : String}
    (sides : HasSides content key.toList value.toList)
    (printable : (Lexeme.attribute ⟨key, value⟩).IsPrintable) :
    Segment.attributeToken? content = some ⟨.attributes, .attribute ⟨key, value⟩⟩ := by
  obtain ⟨⟨keyFull, keyTrimmed, _, _⟩, valueFull, valueTrimmed, _⟩ := printable
  have keySide : Text.trim key.toList = key.toList := by
    rw [← Text.toList_trimmed, keyTrimmed]
  have valueSide : Text.trim value.toList = value.toList := by
    rw [← Text.toList_trimmed, valueTrimmed]
  have solid : ¬(key.toList = [] ∨ value.toList = []) :=
    not_or.mpr ⟨mt String.toList_eq_nil_iff.mp keyFull, mt String.toList_eq_nil_iff.mp valueFull⟩
  rw [Segment.attributeToken?_of_hasSides _ _ _ sides, attribute?_eq, keySide, valueSide,
    if_neg solid, String.ofList_toList, String.ofList_toList]

/-- A written token is read as one segment in front of every character that it admits. -/
theorem exists_segment_of_printsAs {token : Token} {form : List Char}
    (printable : token.lexeme.IsPrintable) (prints : token.PrintsAs form) :
    ∃ segment : Segment, segment.text = form ∧ segment.token? = some token ∧
      ∀ next, token.Admits next → segment.FitsBefore next := by
  cases prints with
  | element name =>
    obtain ⟨nonempty, isName⟩ := printable
    have given : (Segment.element name.toList).token? = some ⟨.elements, .text name⟩ :=
      Segment.token?_of_name rfl isName nonempty
    refine ⟨_, rfl, given, fun next admits => ?_⟩
    exact ⟨mt String.toList_eq_nil_iff.mp nonempty, isName, (admits nofun).1⟩
  | classSelector name =>
    obtain ⟨nonempty, isName⟩ := printable
    have given : (Segment.classSelector name.toList).token? = some ⟨.classes, .text name⟩ :=
      Segment.token?_of_name rfl isName nonempty
    exact ⟨_, rfl, given, fun next admits => ⟨isName, (admits nofun).1⟩⟩
  | idSelector name =>
    obtain ⟨nonempty, isName⟩ := printable
    have given : (Segment.idSelector name.toList).token? = some ⟨.ids, .text name⟩ :=
      Segment.token?_of_name rfl isName nonempty
    exact ⟨_, rfl, given, fun next admits => ⟨isName, (admits nofun).1⟩⟩
  | pseudoElement name =>
    obtain ⟨nonempty, isName⟩ := printable
    have given : (Segment.pseudoElement name.toList).token? =
        some ⟨.pseudoElements, .text name⟩ :=
      Segment.token?_of_name rfl isName nonempty
    exact ⟨_, rfl, given, fun next admits => ⟨isName, (admits nofun).1⟩⟩
  | pseudoClass name =>
    have given : (Segment.pseudoClass name.toList []).token? =
        some ⟨.pseudoClasses, .text name⟩ :=
      Segment.token?_of_name rfl printable.2 printable.1
    refine ⟨_, List.append_nil _, given, fun next admits => ?_⟩
    obtain ⟨ends, noArgument⟩ := admits nofun
    obtain ⟨mark, head, named⟩ := head_of_isPrintable printable
    refine ⟨printable.2, ends, ?_, ?_⟩
    · rw [head, Option.some_or]
      exact fun same => ne_of_isNameChar named (by decide : isNameChar ':' = false)
        (Option.some.inj same)
    · rw [Segment.fitsArgument_nil_iff]
      exact fun takes => noArgument name rfl takes.1 takes.2
  | pair key value =>
    obtain ⟨⟨_, _, splits, keyFree⟩, _, _, valueFree⟩ := id printable
    refine ⟨.attribute (key.toList ++ '=' :: value.toList) true, rfl,
      attributeToken?_of_printable ⟨splits, Or.inl rfl⟩ printable, fun _ _ => ⟨?_, Or.inl rfl⟩⟩
    rw [List.mem_append, List.mem_cons]
    rintro (inKey | closing | inValue)
    · exact keyFree inKey
    · cases closing
    · exact valueFree inValue
  | shorthand side =>
    obtain ⟨⟨_, _, splits, free⟩, _⟩ := id printable
    exact ⟨.attribute side.toList true, rfl,
      attributeToken?_of_printable ⟨splits, Or.inr ⟨rfl, rfl⟩⟩ printable,
      fun _ _ => ⟨free, Or.inl rfl⟩⟩

end Token

/-! ### Reading a list of tokens again -/

/-- A token that is written down, with the separators behind it. -/
structure PrintedToken where
  /-- The token. -/
  token : Token
  /-- The text that it is written as. -/
  form : List Char
  /-- The separators behind it. There may be none. -/
  gap : List Char
  /-- The token can be read again. -/
  printable : token.lexeme.IsPrintable
  /-- The text is a form of the token. -/
  prints : token.PrintsAs form
  /-- The gap consists of separators. -/
  separates : ∀ mark ∈ gap, isSeparator mark = true
  /-- A pseudo-class that takes an argument is not given one. -/
  argumentless : ∀ name, token = ⟨.pseudoClasses, .text name⟩ → takesArgument name.toList →
    gap.head? ≠ some '('

namespace PrintedToken

/-- A name does not run into a bare name behind it. -/
def KeepsApart (first second : PrintedToken) : Prop :=
  first.token.category ≠ .attributes → second.token.category = .elements → first.gap ≠ []

/-- The text of tokens that are written one after another. -/
def textOf (printed : List PrintedToken) : List Char :=
  printed.flatMap fun written => written.form ++ written.gap

theorem textOf_cons (written : PrintedToken) (rest : List PrintedToken) :
    textOf (written :: rest) = written.form ++ (written.gap ++ textOf rest) := by
  rw [textOf, List.flatMap_cons, List.append_assoc, textOf]

/-- What follows a written token in a list that keeps its names apart does not change how
the token is read. -/
theorem admits_next (written : PrintedToken) (rest : List PrintedToken)
    (apart : (written :: rest).IsChain KeepsApart) :
    written.token.Admits (written.gap ++ textOf rest).head? := by
  intro named
  cases gap : written.gap with
  | cons mark more =>
    have separator := written.separates mark (gap ▸ List.mem_cons_self)
    refine ⟨(endsName_some mark).mpr ((isSeparator_iff mark).mp separator).1, ?_⟩
    intro name isPseudoClass takes
    have argumentless := written.argumentless name isPseudoClass takes
    rwa [gap] at argumentless
  | nil =>
    cases rest with
    | nil => exact ⟨endsName_none, fun _ _ _ => nofun⟩
    | cons second others =>
      obtain ⟨mark, head, notOpening, notName⟩ :=
        Token.head_of_printsAs second.printable second.prints
      have notBare : second.token.category ≠ .elements := fun bare =>
        (List.isChain_cons_cons.mp apart).1 named bare gap
      rw [List.nil_append, textOf_cons, List.head?_append, head, Option.some_or]
      exact ⟨(endsName_some mark).mpr (notName notBare),
        fun _ _ _ same => notOpening (Option.some.inj same)⟩

/-- Written tokens that are kept apart are cut into one segment for each token and one for
each separator. -/
theorem exists_segments (printed : List PrintedToken) (apart : printed.IsChain KeepsApart) :
    ∃ segments : List Segment, segments.flatMap Segment.text = textOf printed ∧
      segments.filterMap Segment.token? = printed.map token ∧
      Segment.AllFitBefore none segments := by
  induction printed with
  | nil => exact ⟨[], rfl, rfl, trivial⟩
  | cons written rest inductionHypothesis =>
    obtain ⟨segments, texts, tokens, fits⟩ := inductionHypothesis apart.tail
    obtain ⟨segment, text, token, fitsBefore⟩ :=
      Token.exists_segment_of_printsAs written.printable written.prints
    have gapTokens : (written.gap.map Segment.separator).filterMap Segment.token? = [] := by
      simp [Segment.token?]
    refine ⟨segment :: (written.gap.map .separator ++ segments), ?_, ?_, ?_, ?_⟩
    · rw [List.flatMap_cons, List.flatMap_append, Segment.flatMap_text_separators, text, texts,
        textOf_cons]
    · rw [List.filterMap_cons_some token, List.filterMap_append, gapTokens, tokens,
        List.nil_append, List.map_cons]
    · rw [List.flatMap_append, Segment.flatMap_text_separators, texts, Option.or_none]
      exact fitsBefore _ (admits_next written rest apart)
    · rw [Segment.allFitBefore_append_iff]
      exact ⟨Segment.allFitBefore_separators _ _ written.separates, fits⟩

end PrintedToken

/-- Scanning undoes printing: tokens that are written one after another, with separators in
front, behind and in between, are the tokens of the text. -/
theorem scan_textOf_printed (gap : List Char)
    (separates : ∀ mark ∈ gap, isSeparator mark = true) (printed : List PrintedToken)
    (apart : printed.IsChain PrintedToken.KeepsApart) :
    scan (String.ofList (gap ++ PrintedToken.textOf printed)) =
      printed.map PrintedToken.token := by
  obtain ⟨segments, texts, tokens, fits⟩ := PrintedToken.exists_segments printed apart
  have cut : Segment.IsCutOf (gap.map .separator ++ segments)
      (String.ofList (gap ++ PrintedToken.textOf printed)).toList := by
    refine ⟨?_, ?_⟩
    · rw [List.flatMap_append, Segment.flatMap_text_separators, texts, String.toList_ofList]
    · rw [Segment.allFitBefore_append_iff]
      exact ⟨Segment.allFitBefore_separators _ _ separates, fits⟩
  rw [scan_of_isCutOf _ _ cut, List.filterMap_append, tokens]
  simp [Segment.token?]

/-- A pseudo-class that takes an argument, brackets and a bare name may touch. -/
theorem scan_textOf_touching :
    scan " :nth-child[x]b" =
      [⟨.pseudoClasses, .text "nth-child"⟩, ⟨.attributes, .attribute ⟨"x", "x"⟩⟩,
        ⟨.elements, .text "b"⟩] := by
  have name : (Lexeme.text "nth-child").IsPrintable := ⟨by decide, by decide⟩
  have pair : (Lexeme.attribute ⟨"x", "x"⟩).IsPrintable := ⟨by decide, by decide⟩
  have bare : (Lexeme.text "b").IsPrintable := ⟨by decide, by decide⟩
  let printed : List PrintedToken :=
    [⟨_, _, [], name, .pseudoClass "nth-child", nofun, nofun⟩,
      ⟨_, _, [], pair, .shorthand "x", nofun, nofun⟩,
      ⟨_, _, [], bare, .element "b", nofun, nofun⟩]
  have apart : printed.IsChain PrintedToken.KeepsApart := by
    refine .cons_cons ?_ (.cons_cons ?_ (.singleton _))
    · exact fun _ => nofun
    · exact fun notBrackets => absurd rfl notBrackets
  exact scan_textOf_printed [' '] (List.forall_mem_singleton.mpr rfl) printed apart

end SelectorLexemes
