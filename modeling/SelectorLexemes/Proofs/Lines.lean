/-
This file says what the lines of a text hold. No line has the mark that ends it, and this goes
for raw input as well: a byte that ends a line is found in the encoding of no other character.
A trimmed line is therefore a selector without a line break that does not begin with a blank,
whether it was read from a source or in an interactive session.
-/

import Mathlib.Data.List.DropRight
import Mathlib.Data.List.TakeWhile
import SelectorLexemes.SelectorList

namespace SelectorLexemes

namespace Text

/-! ### Lines -/

theorem flatMap_marked_ends {Element : Type} (mark : Element) (parts : List (List Element)) :
    parts.flatMap (· ++ [mark]) = [] ∨ (parts.flatMap (· ++ [mark])).getLast? = some mark := by
  rcases List.eq_nil_or_concat' parts with rfl | ⟨front, last, rfl⟩
  · exact Or.inl rfl
  · refine Or.inr ?_
    rw [List.flatMap_append, List.flatMap_singleton, ← List.append_assoc, List.getLast?_concat]

section Lines

variable {Element : Type} [DecidableEq Element] {mark : Element}

theorem not_mem_of_mem_lines {elements line : List Element} (member : line ∈ lines mark elements) :
    mark ∉ line := by
  induction elements generalizing line with
  | nil => cases member
  | cons element rest inductionHypothesis =>
    rw [lines] at member
    split at member
    · rcases List.mem_cons.mp member with rfl | later
      · exact List.not_mem_nil
      · exact inductionHypothesis later
    · next other =>
      have different : mark ≠ element := Ne.symm other
      split at member
      · rw [List.mem_singleton.mp member, List.mem_singleton]
        exact different
      · next first more parts =>
        rw [parts] at inductionHypothesis
        rcases List.mem_cons.mp member with rfl | later
        · exact List.not_mem_cons_of_ne_of_not_mem different
            (inductionHypothesis List.mem_cons_self)
        · exact inductionHypothesis (List.mem_cons_of_mem first later)

theorem lines_append_mark {line : List Element} (rest : List Element) (whole : mark ∉ line) :
    lines mark (line ++ mark :: rest) = line :: lines mark rest := by
  induction line with
  | nil => rw [List.nil_append, lines, if_pos rfl]
  | cons element more inductionHypothesis =>
    obtain ⟨different, free⟩ := List.ne_and_not_mem_of_not_mem_cons whole
    rw [List.cons_append, lines, if_neg different.symm, inductionHypothesis free]

theorem lines_ne_nil {elements : List Element} (nonempty : elements ≠ []) :
    lines mark elements ≠ [] := by
  obtain ⟨element, rest, rfl⟩ := List.exists_cons_of_ne_nil nonempty
  rw [lines]
  split
  · exact List.cons_ne_nil _ _
  · split <;> exact List.cons_ne_nil _ _

/-- Behind a mark the lines begin anew. -/
theorem lines_append {first : List Element} (second : List Element)
    (ends : first = [] ∨ first.getLast? = some mark) :
    lines mark (first ++ second) = lines mark first ++ lines mark second := by
  induction first with
  | nil => rfl
  | cons element rest inductionHypothesis =>
    have last := ends.resolve_left (List.cons_ne_nil _ _)
    cases rest with
    | nil =>
      obtain rfl : element = mark := Option.some.inj last
      simp [lines]
    | cons next others =>
      rw [List.getLast?_cons_cons] at last
      have later := inductionHypothesis (Or.inr last)
      have read : lines mark (next :: others) ≠ [] := lines_ne_nil (List.cons_ne_nil next others)
      obtain ⟨line, more, parts⟩ := List.exists_cons_of_ne_nil read
      rw [List.cons_append, lines, lines, later, parts]
      split <;> rfl

theorem lines_of_not_mem {line : List Element} (whole : mark ∉ line) (nonempty : line ≠ []) :
    lines mark line = [line] := by
  induction line with
  | nil => exact absurd rfl nonempty
  | cons element rest inductionHypothesis =>
    obtain ⟨different, free⟩ := List.ne_and_not_mem_of_not_mem_cons whole
    rw [lines, if_neg different.symm]
    cases rest with
    | nil => rfl
    | cons next others => rw [inductionHypothesis free (List.cons_ne_nil _ _)]

/-- The lines in front of a line are what stands in front of it, each with its mark. -/
theorem exists_of_lines_eq_append {elements line : List Element} {front back : List (List Element)}
    (parts : lines mark elements = front ++ line :: back) :
    ∃ rest, elements = front.flatMap (· ++ [mark]) ++ rest ∧ lines mark rest = line :: back := by
  induction front generalizing elements with
  | nil => exact ⟨elements, rfl, parts⟩
  | cons first others inductionHypothesis =>
    have marked : mark ∈ elements := by
      by_contra unmarked
      have nonempty : elements ≠ [] := by
        rintro rfl
        cases parts
      rw [lines_of_not_mem unmarked nonempty, List.cons_append, List.cons.injEq] at parts
      exact List.append_ne_nil_of_right_ne_nil others (List.cons_ne_nil line back) parts.2.symm
    obtain ⟨start, behind, rfl, free⟩ := List.eq_append_cons_of_mem marked
    rw [lines_append_mark behind free, List.cons_append, List.cons.injEq] at parts
    obtain ⟨rfl, later⟩ := parts
    obtain ⟨rest, rfl, read⟩ := inductionHypothesis later
    refine ⟨rest, ?_, read⟩
    rw [List.flatMap_cons, List.append_assoc, List.append_assoc, List.singleton_append]

end Lines

/-- What holds of texts without a line break, and of a text as soon as it holds of what is behind
the first line break, holds of all texts. -/
@[elab_as_elim]
theorem break_induction {motive : List Char → Prop}
    (whole : ∀ line, '\n' ∉ line → motive line)
    (broken : ∀ line rest, '\n' ∉ line → motive rest → motive (line ++ '\n' :: rest))
    (text : List Char) : motive text := by
  by_cases member : '\n' ∈ text
  · obtain ⟨line, rest, parts, free⟩ := List.eq_append_cons_of_mem member
    have shorter : rest.length < text.length := by
      rw [parts, List.length_append, List.length_cons]
      omega
    rw [parts]
    exact broken line rest free (break_induction whole broken rest)
  · exact whole text member
termination_by text.length
decreasing_by exact shorter

/-! ### Raw input -/

theorem encode_append (first second : String) :
    encode (first ++ second) = encode first ++ encode second := by
  rw [encode, String.toByteArray_append, ByteArray.toList_data_append]
  rfl

theorem encode_of_decode? {bytes : Bytes} {text : String} (decoded : decode? bytes = some text) :
    encode text = bytes := by
  unfold decode? String.fromUTF8? at decoded
  split at decoded
  · rw [← Option.some.inj decoded]
    show bytes.toByteArray.data.toList = bytes
    rw [List.data_toByteArray]
  · cases decoded

theorem newlineByte_mem_encode {text : String} (member : '\n' ∈ text.toList) :
    newlineByte ∈ encode text := by
  obtain ⟨front, back, parts⟩ := List.append_of_mem member
  have cut : text = String.ofList front ++ ("\n" ++ String.ofList back) := by
    rw [← String.toList_inj, parts]
    simp
  have lineBreak : encode "\n" = [newlineByte] := by decide
  rw [cut, encode_append, encode_append, lineBreak]
  exact List.mem_append_right _ List.mem_cons_self

/-! ### Trimming -/

theorem trim_prefix_trimStart (text : List Char) : trim text <+: trimStart text := by
  rw [trim, ← List.reverse_suffix, trimEnd, List.reverse_reverse]
  exact List.dropWhile_suffix isBlank

theorem trim_infix (text : List Char) : trim text <:+: text :=
  (trim_prefix_trimStart text).isInfix.trans (List.dropWhile_suffix isBlank).isInfix

theorem head?_dropWhile_isBlank (text : List Char) :
    (text.dropWhile isBlank).head?.any isBlank = false := by
  have stops := List.head?_dropWhile_not isBlank text
  cases first : (text.dropWhile isBlank).head? with
  | none => rfl
  | some mark =>
    rw [first] at stops
    exact stops

theorem head?_trim (text : List Char) : (trim text).head?.any isBlank = false := by
  have stops := head?_dropWhile_isBlank text
  obtain ⟨back, parts⟩ := trim_prefix_trimStart text
  cases trimmed : trim text with
  | nil => rfl
  | cons mark more =>
    rw [trimmed, trimStart] at parts
    rw [← parts] at stops
    exact stops

theorem getLast?_trim (text : List Char) : (trim text).getLast?.any isBlank = false := by
  rw [trim, trimEnd, List.getLast?_reverse]
  exact head?_dropWhile_isBlank (trimStart text).reverse

end Text

/-! ### Selectors on lines -/

namespace SelectorList

/-- The selectors on the lines of raw input, up to the first line that is not text. -/
def ofInput (input : Text.Bytes) : List String :=
  (((Text.lines Text.newlineByte input).map Text.decode?).takeWhile Option.isSome).filterMap
    fun line? => line?.map Text.trimmed

/-- The selector has no line break and does not begin with a blank. -/
structure OnLine (selector : String) : Prop where
  /-- There is no line break. -/
  whole : '\n' ∉ selector.toList
  /-- The first character, if there is one, is not blank. -/
  unindented : selector.toList.head?.any Text.isBlank = false

theorem onLine_trim {line : List Char} (whole : '\n' ∉ line) :
    OnLine (String.ofList (Text.trim line)) := by
  constructor
  · rw [String.toList_ofList]
    exact fun member => whole ((Text.trim_infix line).subset member)
  · rw [String.toList_ofList]
    exact Text.head?_trim line

theorem onLine_of_mem_ofText {text selector : String} (member : selector ∈ ofText text) :
    OnLine selector := by
  obtain ⟨trimmed, kept, rfl⟩ := List.mem_map.mp member
  obtain ⟨line, read, rfl⟩ := List.mem_map.mp (List.mem_filter.mp kept).1
  exact onLine_trim (Text.not_mem_of_mem_lines read)

theorem onLine_of_mem_ofInput {input : Text.Bytes} {selector : String}
    (member : selector ∈ ofInput input) : OnLine selector := by
  obtain ⟨line?, taken, given⟩ := List.mem_filterMap.mp member
  obtain ⟨line, read, decoded⟩ := List.mem_map.mp ((List.takeWhile_sublist _).subset taken)
  obtain ⟨text, rfl, rfl⟩ := Option.map_eq_some_iff.mp given
  have bytes := Text.encode_of_decode? decoded
  refine onLine_trim fun lineBreak => Text.not_mem_of_mem_lines read ?_
  rw [← bytes]
  exact Text.newlineByte_mem_encode lineBreak

end SelectorList

end SelectorLexemes
