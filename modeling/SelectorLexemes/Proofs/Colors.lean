/-
This file proves that colours only decorate. When the control sequences are deleted from a
coloured listing, what is left is the listing without colours, and this goes for each of its lines
on its own. The headline and the headings are the only places where sequences stand. JSON has no
colours at all.

The selector and the lexemes must not hold an escape character of their own, and those of a
selector without one never do. A sequence then begins where a text is emphasised and nowhere else,
whatever digits, brackets or letters stand next to it. A sequence has no line break either, so
deleting begins anew behind every line break and a listing can be looked at one line at a time.
-/

import SelectorLexemes.Proofs.Restrictions

namespace SelectorLexemes

namespace Text

/-! ### Deleting control sequences -/

/-- The text is a code of one digit or more. -/
def IsCode (code : String) : Prop :=
  code ≠ "" ∧ ∀ digit ∈ code.toList, digit.isDigit = true

instance (code : String) : Decidable (IsCode code) :=
  decidable_of_iff (code ≠ "" ∧ code.toList.all Char.isDigit = true)
    (and_congr_right fun _ => List.all_eq_true)

/-- What is behind the control sequence that a text begins with, if it begins with one. -/
def behindSequence? : List Char → Option (List Char)
  | '\x1b' :: '[' :: rest =>
    match rest.takeWhile Char.isDigit, rest.dropWhile Char.isDigit with
    | _ :: _, 'm' :: behind => some behind
    | _, _ => none
  | _ => none

theorem toList_controlSequence (code : String) :
    (controlSequence code).toList = '\x1b' :: '[' :: (code.toList ++ ['m']) := by
  rw [controlSequence, String.toList_append, String.toList_append]
  rfl

theorem behindSequence?_eq_some_iff {text behind : List Char} :
    behindSequence? text = some behind ↔
      ∃ code, IsCode code ∧ text = (controlSequence code).toList ++ behind := by
  constructor
  · intro found
    unfold behindSequence? at found
    split at found
    · next rest =>
      split at found
      · next digit more left digits ends =>
        cases found
        refine ⟨String.ofList (rest.takeWhile Char.isDigit), ⟨?_, ?_⟩, ?_⟩
        · rw [digits]
          exact mt String.ofList_eq_empty_iff.mp (List.cons_ne_nil digit more)
        · rw [String.toList_ofList]
          exact fun digit member => List.mem_takeWhile_imp member
        · rw [toList_controlSequence, String.toList_ofList, List.cons_append, List.cons_append,
            List.append_assoc, List.singleton_append, ← ends, List.takeWhile_append_dropWhile]
      · cases found
    · cases found
  · rintro ⟨code, ⟨nonempty, digits⟩, rfl⟩
    obtain ⟨digit, more, parts⟩ :=
      List.exists_cons_of_ne_nil (mt String.toList_eq_nil_iff.mp nonempty)
    rw [toList_controlSequence, List.cons_append, List.cons_append, List.append_assoc,
      List.singleton_append, behindSequence?, List.takeWhile_append_of_pos digits,
      List.dropWhile_append_of_pos digits, parts]
    rfl

/-- The text without its control sequences. -/
def withoutSequences : List Char → List Char
  | [] => []
  | mark :: rest =>
    match _found : behindSequence? (mark :: rest) with
    | some behind => withoutSequences behind
    | none => mark :: withoutSequences rest
termination_by text => text.length
decreasing_by
  · obtain ⟨code, _, parts⟩ := behindSequence?_eq_some_iff.mp _found
    rw [parts, toList_controlSequence, List.length_append, List.length_cons]
    omega
  · exact Nat.lt_succ_self _

theorem withoutSequences_of_some {text behind : List Char}
    (found : behindSequence? text = some behind) :
    withoutSequences text = withoutSequences behind := by
  cases text with
  | nil => cases found
  | cons mark rest =>
    rw [withoutSequences]
    split
    · next same => rw [found] at same; cases same; rfl
    · next nothing => rw [found] at nothing; cases nothing

theorem withoutSequences_of_none {mark : Char} {rest : List Char}
    (nothing : behindSequence? (mark :: rest) = none) :
    withoutSequences (mark :: rest) = mark :: withoutSequences rest := by
  rw [withoutSequences]
  split
  · next found => rw [nothing] at found; cases found
  · rfl

theorem withoutSequences_controlSequence {code : String} (isCode : IsCode code)
    (rest : List Char) :
    withoutSequences ((controlSequence code).toList ++ rest) = withoutSequences rest :=
  withoutSequences_of_some (behindSequence?_eq_some_iff.mpr ⟨code, isCode, rfl⟩)

/-- Up to the first escape character there is nothing to delete. -/
theorem withoutSequences_append {plain : List Char} (free : '\x1b' ∉ plain) (rest : List Char) :
    withoutSequences (plain ++ rest) = plain ++ withoutSequences rest := by
  induction plain with
  | nil => rfl
  | cons mark more inductionHypothesis =>
    obtain ⟨other, freeMore⟩ := List.ne_and_not_mem_of_not_mem_cons free
    have nothing : behindSequence? (mark :: (more ++ rest)) = none := by
      rw [Option.eq_none_iff_forall_ne_some]
      intro behind found
      obtain ⟨code, _, parts⟩ := behindSequence?_eq_some_iff.mp found
      rw [toList_controlSequence] at parts
      exact other (List.cons.inj parts).1.symm
    rw [List.cons_append, withoutSequences_of_none nothing, inductionHypothesis freeMore]
    rfl

theorem newline_not_mem_controlSequence {code : String} (isCode : IsCode code) :
    '\n' ∉ (controlSequence code).toList := by
  have free : '\n' ∉ code.toList := fun member => absurd (isCode.2 '\n' member) (by decide)
  rw [toList_controlSequence]
  simp [free]

/-- A sequence that begins in front of a line break ends in front of it. -/
theorem behindSequence?_append_break (first second : List Char) :
    behindSequence? (first ++ '\n' :: second) =
      (behindSequence? first).map (· ++ '\n' :: second) := by
  cases found : behindSequence? first with
  | some behind =>
    obtain ⟨code, isCode, rfl⟩ := behindSequence?_eq_some_iff.mp found
    exact behindSequence?_eq_some_iff.mpr ⟨code, isCode, List.append_assoc _ _ _⟩
  | none =>
    rw [Option.map_none, Option.eq_none_iff_forall_ne_some]
    intro behind other
    obtain ⟨code, isCode, parts⟩ := behindSequence?_eq_some_iff.mp other
    have absent : ∀ left, first ≠ (controlSequence code).toList ++ left := by
      intro left begins
      rw [behindSequence?_eq_some_iff.mpr ⟨code, isCode, begins⟩] at found
      cases found
    rcases List.append_eq_append_iff.mp parts with ⟨cut, sequence, rest⟩ | ⟨left, begins, _⟩
    · cases cut with
      | nil => exact absent [] (by rw [sequence, List.append_nil, List.append_nil])
      | cons mark more =>
        obtain ⟨rfl, _⟩ := List.cons.inj rest
        refine newline_not_mem_controlSequence isCode ?_
        rw [sequence]
        exact List.mem_append_right first List.mem_cons_self
    · exact absent left begins

/-- Deleting sequences begins anew behind every line break. -/
theorem withoutSequences_append_break (first second : List Char) :
    withoutSequences (first ++ '\n' :: second) =
      withoutSequences first ++ '\n' :: withoutSequences second := by
  fun_induction withoutSequences first with
  | case1 =>
    rw [List.nil_append, List.nil_append]
    exact withoutSequences_of_none rfl
  | case2 mark rest behind found inductionHypothesis =>
    have same := behindSequence?_append_break (mark :: rest) second
    rw [found, Option.map_some] at same
    rw [withoutSequences_of_some same, inductionHypothesis]
  | case3 mark rest found inductionHypothesis =>
    have same := behindSequence?_append_break (mark :: rest) second
    rw [found, Option.map_none, List.cons_append] at same
    rw [List.cons_append, withoutSequences_of_none same, inductionHypothesis, List.cons_append]

/-! ### Texts without emphasis -/

/-- The text without the control sequences that emphasise parts of it. -/
def withoutEmphasis (text : String) : String :=
  String.ofList (withoutSequences text.toList)

theorem withoutEmphasis_of_not_mem {text : String} (free : '\x1b' ∉ text.toList) :
    withoutEmphasis text = text := by
  have plain := withoutSequences_append free []
  rw [List.append_nil, withoutSequences, List.append_nil] at plain
  rw [withoutEmphasis, plain, String.ofList_toList]

theorem Emphasis.isCode (emphasis : Emphasis) :
    IsCode emphasis.onCode ∧ IsCode emphasis.offCode := by
  cases emphasis <;> decide

/-- What is emphasised behind a text comes back as it was, even when it is empty or could be taken
for a part of a sequence. -/
theorem withoutEmphasis_append_wrap {lead text : String} (emphasis : Emphasis)
    (freeLead : '\x1b' ∉ lead.toList) (free : '\x1b' ∉ text.toList) :
    withoutEmphasis (lead ++ emphasis.wrap text) = lead ++ text := by
  obtain ⟨isOn, isOff⟩ := emphasis.isCode
  have off := withoutSequences_controlSequence isOff []
  rw [List.append_nil, withoutSequences] at off
  rw [withoutEmphasis, Emphasis.wrap, String.toList_append, String.toList_append,
    String.toList_append, withoutSequences_append freeLead, List.append_assoc,
    withoutSequences_controlSequence isOn, withoutSequences_append free, off, List.append_nil,
    ← String.toList_append, String.ofList_toList]

theorem withoutEmphasis_append_break (first second : String) :
    withoutEmphasis (first ++ "\n" ++ second) =
      withoutEmphasis first ++ "\n" ++ withoutEmphasis second := by
  have marks : (first ++ "\n" ++ second).toList = first.toList ++ '\n' :: second.toList := by
    rw [String.toList_append, String.toList_append, List.append_assoc]
    rfl
  rw [withoutEmphasis, marks, withoutSequences_append_break, ← String.toList_inj]
  simp [withoutEmphasis]

theorem withoutEmphasis_empty : withoutEmphasis "" = "" :=
  withoutEmphasis_of_not_mem List.not_mem_nil

theorem withoutEmphasis_append_newline (text : String) :
    withoutEmphasis (text ++ "\n") = withoutEmphasis text ++ "\n" := by
  have broken := withoutEmphasis_append_break text ""
  rwa [withoutEmphasis_empty, String.append_empty, String.append_empty] at broken

theorem withoutEmphasis_join (lines : List String) :
    withoutEmphasis (String.join (lines.map (· ++ "\n"))) =
      String.join ((lines.map withoutEmphasis).map (· ++ "\n")) := by
  induction lines with
  | nil => exact withoutEmphasis_empty
  | cons line rest inductionHypothesis =>
    rw [List.map_cons, String.join_cons, withoutEmphasis_append_break, inductionHypothesis,
      List.map_cons, List.map_cons, String.join_cons]

/-! ### Lines without emphasis -/

theorem withoutSequences_sublist (text : List Char) : (withoutSequences text).Sublist text := by
  fun_induction withoutSequences text with
  | case1 => exact List.Sublist.refl []
  | case2 mark rest behind found inductionHypothesis =>
    obtain ⟨code, _, parts⟩ := behindSequence?_eq_some_iff.mp found
    rw [parts]
    exact inductionHypothesis.trans (List.sublist_append_right _ behind)
  | case3 mark rest found inductionHypothesis => exact inductionHypothesis.cons_cons mark

theorem newline_not_mem_withoutSequences {line : List Char} (whole : '\n' ∉ line) :
    '\n' ∉ withoutSequences line :=
  fun member => whole ((withoutSequences_sublist line).subset member)

theorem map_withoutSequences_lines (text : List Char) :
    (lines '\n' (text ++ ['\n'])).map withoutSequences =
      lines '\n' (withoutSequences text ++ ['\n']) := by
  induction text using break_induction with
  | whole line whole =>
    have wholeLeft := newline_not_mem_withoutSequences whole
    rw [lines_append_mark [] whole, lines_append_mark [] wholeLeft]
    rfl
  | broken line rest whole inductionHypothesis =>
    have wholeLeft := newline_not_mem_withoutSequences whole
    rw [withoutSequences_append_break, List.append_assoc, List.append_assoc, List.cons_append,
      List.cons_append, lines_append_mark _ whole, lines_append_mark _ wholeLeft, List.map_cons,
      inductionHypothesis]

end Text

namespace Listing

open Text (withoutEmphasis)

/-- Sequences can be deleted from each line on its own. -/
theorem map_withoutEmphasis_linesOf (text : String) :
    (linesOf (text ++ "\n")).map withoutEmphasis = linesOf (withoutEmphasis text ++ "\n") := by
  have marks : ∀ other : String, (other ++ "\n").toList = other.toList ++ ['\n'] := fun other =>
    String.toList_append
  rw [linesOf, linesOf, marks, marks, withoutEmphasis, String.toList_ofList,
    ← Text.map_withoutSequences_lines, List.map_map, List.map_map]
  refine List.map_congr_left fun line _ => ?_
  rw [Function.comp_apply, Function.comp_apply, withoutEmphasis, String.toList_ofList]

/-! ### Listings without emphasis -/

theorem withoutEmphasis_page (headline : String) (blocks : List (List String)) :
    withoutEmphasis (page headline blocks) =
      page (withoutEmphasis headline) (blocks.map (List.map withoutEmphasis)) := by
  have remark : withoutEmphasis "  (no lexemes)" = "  (no lexemes)" :=
    Text.withoutEmphasis_of_not_mem (by decide)
  rw [page, Text.withoutEmphasis_join, List.map_cons, page]
  refine congrArg (fun body => String.join ((withoutEmphasis headline :: body).map (· ++ "\n"))) ?_
  by_cases nothing : blocks = []
  · rw [nothing, if_pos rfl, List.map_singleton, remark]
    rfl
  · rw [if_neg nothing, List.map_flatten, if_neg (mt List.map_eq_nil_iff.mp nothing)]

/-- The lines of the lexemes of a category. -/
def lexemeLines (inventory : Inventory) (category : Category) : List String :=
  (inventory.lexemes category).map fun lexeme => "    " ++ lexeme.listing

end Listing

/-! ### Escape characters in lexemes -/

namespace Lexeme

/-- The texts that a lexeme is made of. -/
def texts : Lexeme → List String
  | .text name => [name]
  | .attribute pair => [pair.key, pair.value]

/-- There is no escape character in the lexeme. -/
def IsPlain (lexeme : Lexeme) : Prop :=
  ∀ text ∈ lexeme.texts, '\x1b' ∉ text.toList

theorem IsPlain.listing {lexeme : Lexeme} (plain : lexeme.IsPlain) :
    '\x1b' ∉ lexeme.listing.toList := by
  match lexeme, plain with
  | .text name, plain => exact plain name List.mem_cons_self
  | .attribute pair, plain =>
    have key : '\x1b' ∉ pair.key.toList := plain pair.key List.mem_cons_self
    have value : '\x1b' ∉ pair.value.toList :=
      plain pair.value (List.mem_cons_of_mem _ List.mem_cons_self)
    rw [Lexeme.listing]
    split <;> simp [key, value]

end Lexeme

/-- A lexeme has no characters that the selector does not have. -/
theorem Token.TakenFrom.mem_of_mem_texts {selector : List Char} {category : Category}
    {lexeme : Lexeme} (taken : TakenFrom selector ⟨category, lexeme⟩) {text : String}
    (part : text ∈ lexeme.texts) {mark : Char} (member : mark ∈ text.toList) :
    mark ∈ selector := by
  cases taken with
  | @name _ name _ _ _ stretch =>
    rw [List.mem_singleton.mp part, String.toList_ofList] at member
    exact stretch.subset member
  | @pair content key value stretch _ sides _ =>
    rcases List.mem_cons.mp part with rfl | second
    · rw [String.toList_ofList] at member
      exact ((Text.trim_infix key).trans (sides.key_infix.trans stretch)).subset member
    · rw [List.mem_singleton.mp second, String.toList_ofList] at member
      exact ((Text.trim_infix value).trans (sides.value_infix.trans stretch)).subset member

theorem Inventory.isPlain_of_mem_lexemes {duplicates : Duplicates} {selector : String}
    (free : '\x1b' ∉ selector.toList) {category : Category} {lexeme : Lexeme}
    (member : lexeme ∈ (ofSelector duplicates selector).lexemes category) : lexeme.IsPlain :=
  fun _ part escape => free ((takenFrom_of_mem_lexemes member).mem_of_mem_texts part escape)

/-! ### Listings with and without colours -/

namespace Listing

open Text (withoutEmphasis)

variable {selector : String} {inventory : Inventory}

theorem escape_not_mem_lexemeLines {category : Category}
    (plain : ∀ lexeme ∈ inventory.lexemes category, lexeme.IsPlain) {line : String}
    (member : line ∈ lexemeLines inventory category) : '\x1b' ∉ line.toList := by
  obtain ⟨lexeme, listed, rfl⟩ := List.mem_map.mp member
  rw [String.toList_append, List.mem_append, not_or]
  exact ⟨by decide, (plain lexeme listed).listing⟩

theorem escape_not_mem_name (category : Category) : '\x1b' ∉ category.name.toList := by
  cases category <;> decide

/-- Deleting the sequences takes the colour from the headings and leaves the lexemes alone. -/
theorem map_withoutEmphasis_blocks
    (plain : ∀ category, ∀ lexeme ∈ inventory.lexemes category, lexeme.IsPlain)
    (categories : List Category) :
    (blocks true categories inventory).map (List.map withoutEmphasis) =
      blocks false categories inventory := by
  rw [blocks, blocks, List.map_map]
  refine List.map_congr_left fun category _ => ?_
  have heading : withoutEmphasis ("  " ++ Text.Emphasis.cyan.wrap category.name) =
      "  " ++ category.name :=
    Text.withoutEmphasis_append_wrap .cyan (by decide) (escape_not_mem_name category)
  have lexemes : (lexemeLines inventory category).map withoutEmphasis =
      lexemeLines inventory category :=
    (List.map_congr_left fun line member => Text.withoutEmphasis_of_not_mem
      (escape_not_mem_lexemeLines (plain category) member)).trans (List.map_id _)
  show withoutEmphasis ("  " ++ Text.Emphasis.cyan.wrap category.name) ::
    (lexemeLines inventory category).map withoutEmphasis = _
  rw [heading, lexemes]
  rfl

theorem withoutEmphasis_render (free : '\x1b' ∉ selector.toList)
    (plain : ∀ category, ∀ lexeme ∈ inventory.lexemes category, lexeme.IsPlain)
    (categories : List Category) :
    withoutEmphasis (render true categories selector inventory) =
      render false categories selector inventory := by
  have headline : withoutEmphasis (paint true .bold selector) = paint false .bold selector := by
    have wrapped : withoutEmphasis ("" ++ Text.Emphasis.bold.wrap selector) = "" ++ selector :=
      Text.withoutEmphasis_append_wrap .bold List.not_mem_nil free
    rwa [String.empty_append, String.empty_append] at wrapped
  rw [← String.append_left_inj "\n", ← Text.withoutEmphasis_append_newline, render_eq_page,
    render_eq_page, withoutEmphasis_page, headline, map_withoutEmphasis_blocks plain]

theorem escape_not_mem_join {lines : List String} (free : ∀ line ∈ lines, '\x1b' ∉ line.toList) :
    '\x1b' ∉ (String.join (lines.map (· ++ "\n"))).toList := by
  induction lines with
  | nil => exact List.not_mem_nil
  | cons line rest inductionHypothesis =>
    obtain ⟨freeFirst, freeRest⟩ := List.forall_mem_cons.mp free
    rw [List.map_cons, String.join_cons, String.toList_append, String.toList_append,
      List.mem_append, List.mem_append, not_or, not_or]
    exact ⟨⟨freeFirst, by decide⟩, inductionHypothesis freeRest⟩

theorem escape_not_mem_render (free : '\x1b' ∉ selector.toList)
    (plain : ∀ category, ∀ lexeme ∈ inventory.lexemes category, lexeme.IsPlain)
    (categories : List Category) :
    '\x1b' ∉ (render false categories selector inventory).toList := by
  have body : ∀ line ∈ (blocks false categories inventory).flatten, '\x1b' ∉ line.toList := by
    intro line member
    obtain ⟨lines, shown, inBlock⟩ := List.mem_flatten.mp member
    obtain ⟨category, _, rfl⟩ := List.mem_map.mp shown
    rcases List.mem_cons.mp inBlock with rfl | inList
    · rw [String.toList_append, List.mem_append, not_or]
      exact ⟨by decide, escape_not_mem_name category⟩
    · exact escape_not_mem_lexemeLines (plain category) inList
  have whole : '\x1b' ∉ (render false categories selector inventory ++ "\n").toList := by
    rw [render_eq_page, page]
    refine escape_not_mem_join (List.forall_mem_cons.mpr ⟨free, ?_⟩)
    split
    · exact List.forall_mem_singleton.mpr (by decide)
    · exact body
  rw [String.toList_append] at whole
  exact fun member => whole (List.mem_append_left _ member)

end Listing

/-- Colours only decorate. A JSON document is the same with and without them. A coloured listing
becomes the one without colours when its control sequences are deleted, and so does each of its
lines on its own, if neither the selector nor a lexeme holds an escape character, and this is so
for the lexemes of every selector without one. The headline and the headings are painted and the
lines of the lexemes never are. -/
theorem Presentation.render_colored (selector : String) (inventory : Inventory) :
    (∀ only : List Category,
      ({ format := .json, only, colored := true } : Presentation).render selector inventory =
        ({ format := .json, only, colored := false } : Presentation).render selector inventory) ∧
    ('\x1b' ∉ selector.toList → ∀ (duplicates : Duplicates) (category : Category),
      ∀ lexeme ∈ (Inventory.ofSelector duplicates selector).lexemes category, lexeme.IsPlain) ∧
    ('\x1b' ∉ selector.toList →
      (∀ category, ∀ lexeme ∈ inventory.lexemes category, lexeme.IsPlain) →
      ∀ only : List Category,
        Text.withoutEmphasis
            (({ format := .text, only, colored := true } : Presentation).render selector inventory) =
          ({ format := .text, only, colored := false } : Presentation).render selector inventory ∧
        (Listing.linesOf (({ format := .text, only, colored := true } : Presentation).render selector
            inventory ++ "\n")).map Text.withoutEmphasis =
          Listing.linesOf (({ format := .text, only, colored := false } : Presentation).render
            selector inventory ++ "\n") ∧
        '\x1b' ∉ (({ format := .text, only, colored := false } : Presentation).render selector
          inventory).toList ∧
        (∀ category, ∀ line ∈ Listing.lexemeLines inventory category, '\x1b' ∉ line.toList) ∧
        ∀ colored : Bool,
          ({ format := .text, only, colored } : Presentation).render selector inventory ++ "\n" =
            Listing.page (Listing.paint colored .bold selector)
              ((({ only } : Presentation).categories.filter fun category =>
                  !(inventory.lexemes category).isEmpty).map fun category =>
                ("  " ++ Listing.paint colored .cyan category.name) ::
                  Listing.lexemeLines inventory category)) := by
  refine ⟨fun only => rfl, fun free duplicates category lexeme member =>
    Inventory.isPlain_of_mem_lexemes free member, fun free plain only => ?_⟩
  have erased := Listing.withoutEmphasis_render free plain ({ only } : Presentation).categories
  refine ⟨erased, ?_, Listing.escape_not_mem_render free plain _, ?_, fun colored => ?_⟩
  · rw [Listing.map_withoutEmphasis_linesOf]
    exact congrArg (fun text => Listing.linesOf (text ++ "\n")) erased
  · exact fun category line member => Listing.escape_not_mem_lexemeLines (plain category) member
  · exact Listing.render_eq_page colored _ selector inventory

/-- Digits, brackets and letters next to the sequences are kept, also when they make up what could
be the rest of a sequence. -/
theorem Presentation.render_colored_brackets :
    '\x1b' ∉ "[31m]".toList ∧
      (∀ category, ∀ lexeme ∈ Inventory.lexemes { attributes := #[.attribute ⟨"31m", "31m"⟩] }
        category, lexeme.IsPlain) ∧
      Text.withoutEmphasis "\x1b[1m[31m]\x1b[0m\n  \x1b[36mattributes\x1b[39m\n    31m" =
        "[31m]\n  attributes\n    31m" := by
  have free : '\x1b' ∉ "[31m]".toList := by decide
  have plain : ∀ category, ∀ lexeme ∈
      Inventory.lexemes { attributes := #[.attribute ⟨"31m", "31m"⟩] } category,
        lexeme.IsPlain := by
    intro category lexeme member
    cases category
    case attributes =>
      rw [List.mem_singleton.mp member]
      intro text part
      simp only [Lexeme.texts, List.mem_cons, List.not_mem_nil, or_false, or_self] at part
      rw [part]
      decide
    all_goals cases member
  obtain ⟨_, _, listed⟩ :=
    render_colored "[31m]" { attributes := #[.attribute ⟨"31m", "31m"⟩] }
  exact ⟨free, plain, (listed free plain []).1⟩

end SelectorLexemes
