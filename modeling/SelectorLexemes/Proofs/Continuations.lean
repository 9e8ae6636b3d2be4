/-
This file says what may become of the tokens of a selector when more is written behind it.
All segments but the last keep their place, because each of them was followed by a character
of the selector when it was read. Only the last segment was ended by the end of the selector,
and so only its token can change.

A separator, a closed bracket and a closed argument ended themselves before, and so nothing
changes at all behind them. A name goes on as a name of the same category, whether or not it
then takes an argument; brackets that are still open may give another pair or none.
-/

import SelectorLexemes.Proofs.Boundaries

namespace SelectorLexemes

namespace Segment

/-- The segment was ended by the end of the selector and by nothing in the segment. -/
def IsOpen (segment : Segment) : Prop :=
  segment.CutShort ∨ ¬segment.EndsItself

theorem exists_longerName {name : List Char} (isName : IsName name) (more : List Char) :
    ∃ addition rest, more = addition ++ rest ∧ IsName (name ++ addition) ∧ EndsName rest.head? := by
  obtain ⟨addition, rest, parts, isAddition, ends⟩ := exists_name more
  exact ⟨addition, rest, parts, List.forall_mem_append.mpr ⟨isName, isAddition⟩, ends⟩

/-- A segment that is a name behind fixed characters goes on with its name. -/
theorem exists_longer_of_lead (make : List Char → Segment) (lead : List Char)
    (text : ∀ name, (make name).text = lead ++ name)
    (fitting : ∀ name next, name ≠ [] → IsName name → EndsName next → (make name).FitsBefore next)
    {name : List Char} (isName : IsName name) (nonempty : name ≠ []) (more : List Char) :
    ∃ addition rest, (make name).text ++ more = (make (name ++ addition)).text ++ rest ∧
      (make (name ++ addition)).FitsBefore rest.head? := by
  obtain ⟨addition, rest, rfl, isLonger, ends⟩ := exists_longerName isName more
  refine ⟨addition, rest, ?_, ?_⟩
  · rw [text, text, List.append_assoc, List.append_assoc, List.append_assoc]
  · exact fitting _ _ (List.append_ne_nil_of_left_ne_nil nonempty addition) isLonger ends

/-- When a selector goes on behind a segment with a name, a segment of the same category
begins there, and its name begins with the name that there was. -/
theorem exists_longer {segment : Segment} {category : Category} {name : List Char}
    (fits : segment.FitsBefore none) (naming : segment.naming? = some (category, name))
    (nonempty : name ≠ []) (more : List Char) :
    ∃ (longer : Segment) (addition rest : List Char),
      segment.text ++ more = longer.text ++ rest ∧ longer.FitsBefore rest.head? ∧
        longer.naming? = some (category, name ++ addition) := by
  match segment, naming, fits with
  | .element _, rfl, ⟨_, isName, _⟩ =>
    obtain ⟨addition, rest, parts, longerFits⟩ := exists_longer_of_lead .element []
      (fun _ => rfl) (fun _ _ filled isName ends => ⟨filled, isName, ends⟩) isName nonempty more
    exact ⟨_, addition, rest, parts, longerFits, rfl⟩
  | .classSelector _, rfl, ⟨isName, _⟩ =>
    obtain ⟨addition, rest, parts, longerFits⟩ := exists_longer_of_lead .classSelector ['.']
      (fun _ => rfl) (fun _ _ _ isName ends => ⟨isName, ends⟩) isName nonempty more
    exact ⟨_, addition, rest, parts, longerFits, rfl⟩
  | .idSelector _, rfl, ⟨isName, _⟩ =>
    obtain ⟨addition, rest, parts, longerFits⟩ := exists_longer_of_lead .idSelector ['#']
      (fun _ => rfl) (fun _ _ _ isName ends => ⟨isName, ends⟩) isName nonempty more
    exact ⟨_, addition, rest, parts, longerFits, rfl⟩
  | .pseudoElement _, rfl, ⟨isName, _⟩ =>
    obtain ⟨addition, rest, parts, longerFits⟩ := exists_longer_of_lead .pseudoElement [':', ':']
      (fun _ => rfl) (fun _ _ _ isName ends => ⟨isName, ends⟩) isName nonempty more
    exact ⟨_, addition, rest, parts, longerFits, rfl⟩
  | .pseudoClass _ argument, rfl, ⟨isName, _⟩ =>
    -- The argument that there was, if any, is read again: a name may only now take one, and an
    -- argument that was cut short goes on.
    obtain ⟨addition, afterName, parts, isLonger, ends⟩ :=
      exists_longerName isName (argument ++ more)
    have single : (name ++ addition ++ afterName).head? ≠ some ':' := by
      obtain ⟨mark, others, rfl⟩ := List.exists_cons_of_ne_nil nonempty
      intro colon
      obtain rfl : mark = ':' := Option.some.inj colon
      exact absurd (isName ':' List.mem_cons_self) (by decide)
    obtain ⟨longerArgument, rest, split, longerFits⟩ :=
      exists_pseudoClass (name ++ addition) afterName isLonger ends single
    refine ⟨.pseudoClass (name ++ addition) longerArgument, addition, rest, ?_, longerFits, rfl⟩
    rw [← split, List.append_assoc, ← parts, Segment.text, List.cons_append, List.cons_append,
      List.append_assoc]

end Segment

/-! ### What is written behind the last segment -/

section Last

variable {first : String} {front : List Segment} {last : Segment}
  (split : Segment.ofSelector first = front ++ [last])

include split

theorem fitsBefore_none_of_last : last.FitsBefore none := by
  have fits := (Segment.isCutOf_ofSelector first).fits
  rw [split, Segment.allFitBefore_append_iff] at fits
  exact fits.2.1

theorem scan_of_last :
    scan first = front.filterMap Segment.token? ++ last.token?.toList := by
  rw [scan_eq_filterMap, split, List.filterMap_append, Segment.filterMap_token?_cons,
    List.filterMap_nil, List.append_nil]

/-- Only the last segment is read again when the selector goes on. -/
theorem scan_append_of_last (second : String) :
    scan (first ++ second) =
      front.filterMap Segment.token? ++ scan (String.ofList last.text ++ second) := by
  have whole := Segment.isCutOf_ofSelector first
  rw [split] at whole
  obtain ⟨covers, fits⟩ := whole
  rw [List.flatMap_append, List.flatMap_singleton] at covers
  obtain ⟨fitsFront, fitsLast, _⟩ := (Segment.allFitBefore_append_iff front [last] none).mp fits
  have begins : (String.ofList last.text ++ second).toList.head? =
      ([last].flatMap Segment.text).head?.or none := by
    obtain ⟨mark, marks, text⟩ := List.exists_cons_of_ne_nil (Segment.text_ne_nil fitsLast)
    rw [List.flatMap_singleton, String.toList_append, String.toList_ofList, text]
    rfl
  have behind := Segment.isCutOf_ofSelector (String.ofList last.text ++ second)
  have cut := Segment.IsCutOf.append rfl (begins ▸ fitsFront) behind
  have joined : front.flatMap Segment.text ++ (String.ofList last.text ++ second).toList =
      (first ++ second).toList := by
    rw [String.toList_append, String.toList_append, String.toList_ofList, ← covers,
      List.append_assoc]
  rw [joined] at cut
  rw [scan_of_isCutOf _ _ cut, List.filterMap_append, ← scan_eq_filterMap]

/-- A name at the end goes on as a name of the same category. -/
theorem exists_longer_of_last {category : Category} {name : String}
    (given : last.token? = some ⟨category, .text name⟩) (second : String) :
    ∃ longer : String, name.toList <+: longer.toList ∧
      front.filterMap Segment.token? ++ [⟨category, .text longer⟩] <+: scan (first ++ second) := by
  have fits := fitsBefore_none_of_last split
  obtain ⟨naming, nonempty⟩ := Segment.naming?_of_token? fits given
  obtain ⟨longer, addition, rest, parts, longerFits, longerNaming⟩ :=
    Segment.exists_longer fits naming nonempty second.toList
  have text : (String.ofList last.text ++ second).toList = longer.text ++ rest := by
    rw [String.toList_append, String.toList_ofList, parts]
  have characters : (name ++ String.ofList addition).toList = name.toList ++ addition := by
    rw [String.toList_append, String.toList_ofList]
  have full : name ++ String.ofList addition ≠ "" := by
    refine mt String.toList_eq_nil_iff.mpr ?_
    rw [characters]
    exact List.append_ne_nil_of_left_ne_nil nonempty addition
  rw [← characters] at longerNaming
  have longerGiven : longer.token? = some ⟨category, .text (name ++ String.ofList addition)⟩ :=
    Segment.token?_of_name longerNaming (Segment.isName_of_naming? longerFits longerNaming) full
  refine ⟨name ++ String.ofList addition, characters ▸ List.prefix_append _ _, ?_⟩
  rw [scan_append_of_last split, List.prefix_append_right_inj, scan_of_fitsBefore text longerFits,
    longerGiven]
  exact List.prefix_append _ _

end Last

/-! ### Selectors that go on -/

/-- The last token of the selector comes from a segment that the end of the selector ended. -/
def OpenAtEnd (selector : String) : Prop :=
  ∃ last, (Segment.ofSelector selector).getLast? = some last ∧ last.token? ≠ none ∧ last.IsOpen

theorem OpenAtEnd.exists_split {first : String} (openAtEnd : OpenAtEnd first) :
    ∃ front last token, Segment.ofSelector first = front ++ [last] ∧
      last.token? = some token ∧ scan first = front.filterMap Segment.token? ++ [token] := by
  obtain ⟨last, isLast, gives, _⟩ := openAtEnd
  obtain ⟨front, split⟩ := List.getLast?_eq_some_iff.mp isLast
  obtain ⟨token, given⟩ := Option.ne_none_iff_exists'.mp gives
  refine ⟨front, last, token, split, given, ?_⟩
  rw [scan_of_last split, given, Option.toList_some]

/-- Unless the last token is still open, all tokens are kept. -/
theorem scan_prefix_of_not_openAtEnd {first : String} (settled : ¬OpenAtEnd first)
    (second : String) : scan first <+: scan (first ++ second) := by
  rcases List.eq_nil_or_concat' (Segment.ofSelector first) with empty | ⟨front, last, split⟩
  · rw [scan_eq_filterMap first, empty]
    exact List.nil_prefix
  rw [scan_of_last split, scan_append_of_last split, List.prefix_append_right_inj]
  cases given : last.token? with
  | none => exact List.nil_prefix
  | some token =>
    have closed : ¬last.IsOpen := fun isOpen => settled
      ⟨last, split ▸ List.getLast?_concat, by rw [given]; exact Option.some_ne_none _, isOpen⟩
    obtain ⟨complete, ends⟩ := not_or.mp closed
    have fits := Segment.fitsBefore_of_endsItself (fitsBefore_none_of_last split) complete
      (Classical.not_not.mp ends) second.toList.head?
    have text : (String.ofList last.text ++ second).toList = last.text ++ second.toList := by
      rw [String.toList_append, String.toList_ofList]
    rw [scan_of_fitsBefore text fits, given]
    exact List.prefix_append _ _

theorem getElem?_of_prefix {kept all : List Token} {token : Token} (within : kept <+: all)
    (last : kept.getLast? = some token) : all[kept.length - 1]? = some token := by
  obtain ⟨behind, rfl⟩ := within
  rw [List.getLast?_eq_getElem?] at last
  rw [List.getElem?_append_left (List.getElem?_eq_some_iff.mp last).1, last]

/-- What is written behind a selector changes at most its last token, and only if the end of
the selector ended this token. If the token is a name, then the name only goes on. -/
theorem scan_append_keeps (first second : String) :
    (scan first).dropLast <+: scan (first ++ second) ∧
    (∀ token, (scan first).getLast? = some token → ¬OpenAtEnd first →
      (scan (first ++ second))[(scan first).length - 1]? = some token) ∧
    ∀ category name, (scan first).getLast? = some ⟨category, .text name⟩ →
      ∃ longer : String, name.toList <+: longer.toList ∧
        (scan (first ++ second))[(scan first).length - 1]? = some ⟨category, .text longer⟩ := by
  have settled : ∀ token, (scan first).getLast? = some token → ¬OpenAtEnd first →
      (scan (first ++ second))[(scan first).length - 1]? = some token :=
    fun token last closed => getElem?_of_prefix (scan_prefix_of_not_openAtEnd closed second) last
  refine ⟨?_, settled, ?_⟩
  · by_cases openAtEnd : OpenAtEnd first
    · obtain ⟨front, last, token, split, _, scanned⟩ := openAtEnd.exists_split
      rw [scanned, List.dropLast_concat, scan_append_of_last split]
      exact List.prefix_append _ _
    · exact (List.dropLast_prefix _).trans (scan_prefix_of_not_openAtEnd openAtEnd second)
  · intro category name isLast
    by_cases openAtEnd : OpenAtEnd first
    · obtain ⟨front, last, token, split, given, scanned⟩ := openAtEnd.exists_split
      rw [scanned, List.getLast?_concat] at isLast
      obtain rfl : token = ⟨category, .text name⟩ := Option.some.inj isLast
      obtain ⟨longer, goesOn, kept⟩ := exists_longer_of_last split given second
      refine ⟨longer, goesOn, ?_⟩
      have atIndex := getElem?_of_prefix kept List.getLast?_concat
      rw [List.length_append, List.length_singleton] at atIndex
      rw [scanned, List.length_append, List.length_singleton]
      exact atIndex
    · exact ⟨name, List.prefix_rfl, settled _ isLast openAtEnd⟩

/-- A name goes on and takes an argument; a pair in closed brackets stays as it is. -/
theorem scan_append_keeps_nth :
    ((scan "a:nth").getLast? = some ⟨.pseudoClasses, .text "nth"⟩ ∧
      ∃ longer : String, "nth".toList <+: longer.toList ∧
        (scan ("a:nth" ++ "-child(.b)"))[(scan "a:nth").length - 1]? =
          some ⟨.pseudoClasses, .text longer⟩) ∧
    (scan "a[b]").getLast? = some ⟨.attributes, .attribute ⟨"b", "b"⟩⟩ ∧ ¬OpenAtEnd "a[b]" ∧
      (scan ("a[b]" ++ "=c]"))[(scan "a[b]").length - 1]? =
        some ⟨.attributes, .attribute ⟨"b", "b"⟩⟩ := by
  have nth : (scan "a:nth").getLast? = some ⟨.pseudoClasses, .text "nth"⟩ := by
    rw [scan_of_isCutOf [.element ['a'], .pseudoClass ['n', 't', 'h'] []] _ (by decide)]
    rfl
  have brackets : Segment.ofSelector "a[b]" = [.element ['a'], .attribute ['b'] true] :=
    ((Segment.isCutOf_iff _ _).mp (by decide)).symm
  have pair : (scan "a[b]").getLast? = some ⟨.attributes, .attribute ⟨"b", "b"⟩⟩ := by
    rw [scan_eq_filterMap, brackets]
    rfl
  have settled : ¬OpenAtEnd "a[b]" := by
    rintro ⟨last, isLast, _, isOpen⟩
    rw [brackets] at isLast
    obtain rfl : Segment.attribute ['b'] true = last := Option.some.inj isLast
    rcases isOpen with short | continues
    · cases short
    · exact continues rfl
  obtain ⟨_, _, names⟩ := scan_append_keeps "a:nth" "-child(.b)"
  obtain ⟨_, kept, _⟩ := scan_append_keeps "a[b]" "=c]"
  exact ⟨⟨nth, names _ _ nth⟩, pair, settled, kept _ pair settled⟩

end SelectorLexemes
