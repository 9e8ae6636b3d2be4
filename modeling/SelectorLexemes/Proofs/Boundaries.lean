/-
This file says where two selectors may be joined without changing each other's tokens.
The reader keeps nothing from one segment to the next, so the join is seen only by the
last segment of the first selector, and only through the first character of the second.

A separator, closed brackets and a closed argument end with a character of their own and
see nothing of what follows. A name sees whether it goes on, a single colon whether a
second one follows, and a name that takes an argument whether there is one. Brackets and
arguments that are still open swallow whatever follows; they are left out.
-/

import SelectorLexemes.Proofs.Segmentation

namespace SelectorLexemes

namespace Segment

/-! ### Segments at the end of a selector -/

/-- The end of the selector came before the closing bracket or before the parenthesis that
balances the argument. -/
def CutShort : Segment → Prop
  | .attribute _ closed => closed = false
  | .pseudoClass _ argument => argument ≠ [] ∧ ¬Text.IsBalanced argument
  | .separator _ | .element _ | .classSelector _ | .idSelector _ | .pseudoElement _ => False

/-- The segment ends with a character of its own: a separator, a closing bracket or the
last parenthesis of an argument. -/
def EndsItself : Segment → Prop
  | .separator _ => True
  | .attribute _ closed => closed = true
  | .pseudoClass _ argument => argument ≠ []
  | .element _ | .classSelector _ | .idSelector _ | .pseudoElement _ => False

instance : (segment : Segment) → Decidable segment.CutShort
  | .attribute _ closed => inferInstanceAs (Decidable (closed = false))
  | .pseudoClass _ _ => inferInstanceAs (Decidable (_ ∧ _))
  | .separator _ | .element _ | .classSelector _ | .idSelector _ | .pseudoElement _ =>
    inferInstanceAs (Decidable False)

/-- The character does not change how the last segment of a selector is read. It goes on
with no name, it is no second colon, and it opens no argument. -/
def Parts (last? : Option Segment) (mark : Char) : Prop :=
  isNameChar mark = false ∧
    (last? = some (.pseudoClass [] []) → mark ≠ ':') ∧
    ∀ name, last? = some (.pseudoClass name []) → takesArgument name → mark ≠ '('

/-- A segment that ends itself fits before every character. -/
theorem fitsBefore_of_endsItself {segment : Segment} (fits : segment.FitsBefore none)
    (complete : ¬segment.CutShort) (ends : segment.EndsItself) (next : Option Char) :
    segment.FitsBefore next := by
  match segment, fits, ends with
  | .separator _, fits, _ => exact fits
  | .attribute _ _, fits, ends => exact ⟨fits.1, Or.inl ends⟩
  | .pseudoClass name argument, ⟨isName, endsName, first, fits⟩, given =>
    have balanced : Text.IsBalanced argument := by
      by_contra unbalanced
      exact complete ⟨given, unbalanced⟩
    have opens : ∃ mark, argument.head? = some mark :=
      Option.ne_none_iff_exists'.mp (mt List.head?_eq_none_iff.mp given)
    obtain ⟨mark, head⟩ := opens
    rw [fitsArgument_iff_of_ne_nil _ _ _ given] at fits
    rw [head, Option.some_or] at endsName first
    refine ⟨isName, ?_, ?_, ?_⟩
    · rwa [head, Option.some_or]
    · rwa [head, Option.some_or]
    · rw [fitsArgument_iff_of_ne_nil _ _ _ given]
      exact ⟨fits.1, fits.2.opens, fits.2.earliest, Or.inl balanced⟩

/-- A segment that is not cut short fits before every character that parts it from what
follows. -/
theorem fitsBefore_of_parts {segment : Segment} (fits : segment.FitsBefore none)
    (complete : ¬segment.CutShort) {mark : Char} (parts : Parts (some segment) mark) :
    segment.FitsBefore (some mark) := by
  obtain ⟨notName, notColon, notOpening⟩ := parts
  have ends : EndsName (some mark) := (endsName_some mark).mpr notName
  match segment, fits with
  | .element _, ⟨nonempty, isName, _⟩ => exact ⟨nonempty, isName, ends⟩
  | .classSelector _, ⟨isName, _⟩ => exact ⟨isName, ends⟩
  | .idSelector _, ⟨isName, _⟩ => exact ⟨isName, ends⟩
  | .pseudoElement _, ⟨isName, _⟩ => exact ⟨isName, ends⟩
  | .separator _, fits => exact fitsBefore_of_endsItself fits complete trivial _
  | .attribute _ _, fits =>
    exact fitsBefore_of_endsItself fits complete (Bool.ne_false_iff.mp complete) _
  | .pseudoClass name (opening :: argument), fits =>
    exact fitsBefore_of_endsItself fits complete (List.cons_ne_nil _ _) _
  | .pseudoClass name [], ⟨isName, _, first, _⟩ =>
    refine ⟨isName, ends, ?_, ?_⟩
    · cases name with
      | nil => exact fun same => notColon rfl (Option.some.inj same)
      | cons letter more => exact first
    · rw [fitsArgument_nil_iff]
      exact fun takes => notOpening name rfl takes.1 (Option.some.inj takes.2)

/-- Whether segments fit before a character is decided by the last one of them. -/
theorem allFitBefore_of_getLast? {segments : List Segment} {next : Option Char}
    (fits : AllFitBefore none segments)
    (last : ∀ segment, segments.getLast? = some segment → segment.FitsBefore none →
      segment.FitsBefore next) : AllFitBefore next segments := by
  induction segments with
  | nil => trivial
  | cons segment rest inductionHypothesis =>
    obtain ⟨fitsFirst, fitsRest⟩ := fits
    cases rest with
    | nil => exact ⟨last segment rfl fitsFirst, trivial⟩
    | cons second others =>
      refine ⟨?_, inductionHypothesis fitsRest fun final isLast => last final ?_⟩
      · obtain ⟨mark, more, text⟩ := List.exists_cons_of_ne_nil (text_ne_nil fitsRest.1)
        rw [List.flatMap_cons, List.head?_append, text, List.head?_cons] at fitsFirst ⊢
        exact fitsFirst
      · rwa [List.getLast?_cons_cons]

/-- Cuts of two texts are a cut of the joined text when the first fits before the second. -/
theorem IsCutOf.append {first second : List Segment} {left right : List Char}
    (covers : first.flatMap text = left) (fits : AllFitBefore right.head? first)
    (cut : IsCutOf second right) : IsCutOf (first ++ second) (left ++ right) := by
  refine ⟨by rw [List.flatMap_append, covers, cut.covers], ?_⟩
  rw [allFitBefore_append_iff, cut.covers, Option.or_none]
  exact ⟨fits, cut.fits⟩

/-- The segments of a selector fit before a second one when the last segment is not cut
short and either ends itself or is parted from what follows. -/
theorem allFitBefore_ofSelector (first : String) (next : Option Char)
    (complete : ∀ segment ∈ ofSelector first, ¬segment.CutShort)
    (clean : (∀ last, (ofSelector first).getLast? = some last → last.EndsItself) ∨
      ∀ mark, next = some mark → Parts (ofSelector first).getLast? mark) :
    AllFitBefore next (ofSelector first) := by
  refine allFitBefore_of_getLast? (isCutOf_ofSelector first).fits fun last isLast fits => ?_
  have whole := complete last (List.mem_of_getLast? isLast)
  rcases clean with endsItself | parts
  · exact fitsBefore_of_endsItself fits whole (endsItself last isLast) next
  · cases next with
    | none => exact fits
    | some mark => exact fitsBefore_of_parts fits whole (isLast ▸ parts mark rfl)

end Segment

/-! ### Joining two selectors -/

/-- A segment that the segments in front of it fit before is read as if the selector began
with it, and so is what follows the segment. -/
theorem scan_append_segment {before : String} {segment : Segment} (text rest : String)
    (covers : segment.text = text.toList)
    (fitsBehind : Segment.AllFitBefore text.toList.head? (Segment.ofSelector before))
    (fits : segment.FitsBefore rest.toList.head?) :
    scan (before ++ text ++ rest) = scan before ++ segment.token?.toList ++ scan rest := by
  obtain ⟨mark, marks, begins⟩ := List.exists_cons_of_ne_nil (Segment.text_ne_nil fits)
  have follower : (segment.text ++ rest.toList).head? = text.toList.head? := by
    rw [← covers, begins, List.cons_append, List.head?_cons, List.head?_cons]
  have cut : Segment.IsCutOf (Segment.ofSelector before ++ segment :: Segment.ofSelector rest)
      (before ++ text ++ rest).toList := by
    rw [String.toList_append, String.toList_append, List.append_assoc, ← covers]
    exact .append (Segment.isCutOf_ofSelector before).covers (follower ▸ fitsBehind)
      (.cons fits (Segment.isCutOf_ofSelector rest))
  rw [scan_of_isCutOf _ _ cut, List.filterMap_append, Segment.filterMap_token?_cons,
    ← scan_eq_filterMap, ← scan_eq_filterMap, List.append_assoc]

/-- Scanning two joined selectors gives the tokens of the first and then those of the
second, when the first is not cut short and nothing at the join is read across it. The
first character of the second selector only matters when the last segment of the first
does not end itself. -/
theorem scan_append (first second : String)
    (complete : ∀ segment ∈ Segment.ofSelector first, ¬segment.CutShort)
    (clean : (∀ last, (Segment.ofSelector first).getLast? = some last → last.EndsItself) ∨
      ∀ mark, second.toList.head? = some mark →
        Segment.Parts (Segment.ofSelector first).getLast? mark) :
    scan (first ++ second) = scan first ++ scan second := by
  have cut : Segment.IsCutOf (Segment.ofSelector first ++ Segment.ofSelector second)
      (first ++ second).toList := by
    rw [String.toList_append]
    exact .append (Segment.isCutOf_ofSelector first).covers
      (Segment.allFitBefore_ofSelector first _ complete clean)
      (Segment.isCutOf_ofSelector second)
  rw [scan_of_isCutOf _ _ cut, List.filterMap_append, ← scan_eq_filterMap, ← scan_eq_filterMap]

/-- A pseudo-class in front of a class: the name ends where the dot begins. -/
theorem scan_append_hover : scan ("a:hover" ++ ".b[c]") = scan "a:hover" ++ scan ".b[c]" := by
  have segments : Segment.ofSelector "a:hover" =
      [.element ['a'], .pseudoClass ['h', 'o', 'v', 'e', 'r'] []] :=
    ((Segment.isCutOf_iff _ _).mp (by decide)).symm
  refine scan_append "a:hover" ".b[c]" ?_ (Or.inr ?_)
  · rw [segments]
    decide
  · rintro mark head
    obtain rfl : '.' = mark := Option.some.inj head
    rw [segments]
    exact ⟨by decide, by decide, fun _ _ _ => by decide⟩

end SelectorLexemes
