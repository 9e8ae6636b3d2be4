/-
This file reads listings back. Listings of several selectors, one after another, are cut into
lines, and a line shows by the spaces it begins with whether it is a selector, a heading or a
lexeme. The lines are taken up from the last to the first, so a heading finds its lexemes
decoded and a selector finds its categories decoded.

A selector from a line of input has no line break and does not begin with a blank, and this is
all that is needed. Its lexemes then have no line break either, so no line is cut in two; and
no key has an equals sign, so the first one in the line of a pair is the one between its sides.
What else an attribute holds does not matter, because it only ever stands behind four spaces.
-/

import SelectorLexemes.Proofs.Displays
import SelectorLexemes.Proofs.Lexemes

namespace SelectorLexemes

namespace Listing

/-! ### Decoding -/

/-- What a line of a listing says. -/
inductive Line where
  /-- A listing of this selector begins. -/
  | selector (text : String)
  /-- The lexemes of a category follow. -/
  | heading (category : Category)
  /-- A lexeme is listed as this text. -/
  | lexeme (text : String)
  /-- There are no lexemes. -/
  | remark

/-- What a line says, by the spaces that it begins with. -/
def Line.ofText (line : String) : Line :=
  match line.toList with
  | ' ' :: ' ' :: ' ' :: ' ' :: text => .lexeme (String.ofList text)
  | ' ' :: ' ' :: text =>
    match Category.all.find? (·.name.toList == text) with
    | some category => .heading category
    | none => .remark
  | _ => .selector line

/-- The pair that is listed as a text. The first equals sign has a space on either side; if
there is none, the sides are equal. -/
def pairOf (text : String) : Attribute :=
  match text.toList.dropWhile (· != '=') with
  | [] => ⟨text, text⟩
  | _ :: value =>
    ⟨String.ofList (text.toList.takeWhile (· != '=')).dropLast, String.ofList value.tail⟩

/-- The lexeme that is listed as a text below the heading of a category. -/
def lexemeOf (category : Category) (text : String) : Lexeme :=
  if category = .attributes then .attribute (pairOf text) else .text text

/-- Categories and what is listed for each of them. -/
abbrev Entries := List (Category × List Lexeme)

/-- What lines have been decoded to. -/
structure Decoded where
  /-- The texts that no heading has come for. -/
  texts : List String := []
  /-- The categories that no selector has come for, with their lexemes. -/
  entries : Entries := []
  /-- The selectors with their categories. -/
  selectors : List (String × Entries) := []

/-- What has been decoded once the line in front is taken up, too. -/
def Decoded.behind (decoded : Decoded) : Line → Decoded
  | .selector text => { selectors := (text, decoded.entries) :: decoded.selectors }
  | .heading category =>
    { decoded with
      texts := []
      entries := (category, decoded.texts.map (lexemeOf category)) :: decoded.entries }
  | .lexeme text => { decoded with texts := text :: decoded.texts }
  | .remark => decoded

/-- What has been decoded once the lines in front are taken up, too. -/
def Decoded.behindAll (lines : List String) (decoded : Decoded) : Decoded :=
  lines.foldr (fun line decoded => decoded.behind (Line.ofText line)) decoded

/-- The lines of a text. -/
def linesOf (text : String) : List String :=
  (Text.lines '\n' text.toList).map String.ofList

/-- The selectors whose listings make up a text, with their categories and lexemes. -/
def decode (text : String) : List (String × Entries) :=
  (({} : Decoded).behindAll (linesOf text)).selectors

/-! ### Lines -/

theorem linesOf_join (lines : List String) (whole : ∀ line ∈ lines, '\n' ∉ line.toList) :
    linesOf (String.join (lines.map (· ++ "\n"))) = lines := by
  induction lines with
  | nil => simp [linesOf, Text.lines]
  | cons line rest inductionHypothesis =>
    obtain ⟨wholeFirst, wholeRest⟩ := List.forall_mem_cons.mp whole
    have text : (String.join ((line :: rest).map (· ++ "\n"))).toList =
        line.toList ++ '\n' :: (String.join (rest.map (· ++ "\n"))).toList := by
      simp [String.join_cons]
    have later := inductionHypothesis wholeRest
    unfold linesOf at later ⊢
    rw [text, Text.lines_append_mark _ wholeFirst, List.map_cons, String.ofList_toList, later]

theorem intercalate_append (first : String) (rest : List String) :
    "\n".intercalate (first :: rest) ++ "\n" = String.join ((first :: rest).map (· ++ "\n")) := by
  induction rest generalizing first with
  | nil => simp
  | cons second rest inductionHypothesis =>
    rw [String.intercalate_cons_cons, String.append_assoc, inductionHypothesis,
      List.map_cons (l := second :: rest), String.join_cons]

/-! ### What lines say -/

namespace Line

theorem ofText_lexeme (text : String) : ofText ("    " ++ text) = .lexeme text := by
  have marks : ("    " ++ text).toList = ' ' :: ' ' :: ' ' :: ' ' :: text.toList :=
    String.toList_append
  rw [ofText, marks]
  exact congrArg Line.lexeme String.ofList_toList

theorem ofText_heading (category : Category) :
    ofText ("  " ++ category.name) = .heading category := by
  cases category <;> rfl

theorem ofText_selector (selector : String)
    (unindented : selector.toList.head?.any Text.isBlank = false) :
    ofText selector = .selector selector := by
  unfold ofText
  split
  · next text indented => rw [indented] at unindented; cases unindented
  · next text indented => rw [indented] at unindented; cases unindented
  · rfl

end Line

/-! ### Lexemes -/

variable {selector : String} {category : Category} {lexeme : Lexeme}

theorem pairOf_listing (pair : Attribute) (free : '=' ∉ pair.key.toList) :
    pairOf (Lexeme.attribute pair).listing = pair := by
  by_cases agree : pair.sidesAgree = true
  · obtain ⟨key, value⟩ := pair
    have same : key = value := eq_of_beq agree
    rw [Lexeme.listing, if_pos agree, pairOf, dropWhile_ne_equals_eq_nil free, same]
  · have marks : (pair.key ++ " = " ++ pair.value).toList =
        (pair.key.toList ++ [' ']) ++ '=' :: ' ' :: pair.value.toList := by
      simp
    have spaced : '=' ∉ pair.key.toList ++ [' '] := by
      simp [free]
    rw [Lexeme.listing, if_neg agree, pairOf, marks, dropWhile_ne_equals _ spaced,
      takeWhile_ne_equals _ spaced, List.dropLast_concat, String.ofList_toList]
    dsimp only
    rw [List.tail_cons, String.ofList_toList]

theorem lexemeOf_listing (taken : Token.TakenFrom selector.toList ⟨category, lexeme⟩) :
    lexemeOf category lexeme.listing = lexeme := by
  cases taken with
  | name notAttributes => exact if_neg notAttributes
  | @pair content key value stretch inside sides solid =>
    have free : '=' ∉ (String.ofList (Text.trim key)).toList := by
      rw [String.toList_ofList]
      exact fun member => sides.1 ((Text.trim_infix key).subset member)
    exact congrArg Lexeme.attribute (pairOf_listing ⟨_, _⟩ free)

theorem listing_whole (taken : Token.TakenFrom selector.toList ⟨category, lexeme⟩)
    (whole : '\n' ∉ selector.toList) : '\n' ∉ lexeme.listing.toList := by
  cases taken with
  | name notAttributes nonempty isName stretch =>
    rw [Lexeme.listing, String.toList_ofList]
    exact fun member => whole (stretch.subset member)
  | @pair content key value stretch inside sides solid =>
    have wholeKey : '\n' ∉ Text.trim key := fun member =>
      whole (((Text.trim_infix key).trans (sides.key_infix.trans stretch)).subset member)
    have wholeValue : '\n' ∉ Text.trim value := fun member =>
      whole (((Text.trim_infix value).trans (sides.value_infix.trans stretch)).subset member)
    rw [Lexeme.listing]
    split <;> simp [wholeKey, wholeValue]

/-! ### Decoding what is listed -/

/-- The categories that a listing has headings for, with their lexemes. -/
def entriesOf (categories : List Category) (inventory : Inventory) : Entries :=
  (categories.filter fun category => !(inventory.lexemes category).isEmpty).map fun category =>
    (category, inventory.lexemes category)

namespace Decoded

theorem behindAll_cons (line : String) (rest : List String) (decoded : Decoded) :
    decoded.behindAll (line :: rest) = (decoded.behindAll rest).behind (Line.ofText line) :=
  rfl

theorem behindAll_append (first second : List String) (decoded : Decoded) :
    decoded.behindAll (first ++ second) = (decoded.behindAll second).behindAll first :=
  List.foldr_append

theorem behindAll_lexemes (lexemes : List Lexeme) (decoded : Decoded) :
    decoded.behindAll (lexemes.map fun lexeme => "    " ++ lexeme.listing) =
      { decoded with texts := lexemes.map Lexeme.listing ++ decoded.texts } := by
  induction lexemes with
  | nil => rfl
  | cons lexeme rest inductionHypothesis =>
    rw [List.map_cons, behindAll_cons, inductionHypothesis, Line.ofText_lexeme]
    rfl

/-- The block of a category is decoded once the blocks below it are. -/
theorem behindAll_block (lexemes : List Lexeme)
    (listed : ∀ lexeme ∈ lexemes, lexemeOf category lexeme.listing = lexeme)
    (entries : Entries) (selectors : List (String × Entries)) :
    (⟨[], entries, selectors⟩ : Decoded).behindAll (block false category lexemes) =
      ⟨[], (category, lexemes) :: entries, selectors⟩ := by
  have decoded : (lexemes.map Lexeme.listing).map (lexemeOf category) = lexemes := by
    rw [List.map_map]
    exact (List.map_congr_left listed).trans (List.map_id lexemes)
  show (behindAll _ _).behind (Line.ofText ("  " ++ category.name)) = _
  rw [behindAll_lexemes, Line.ofText_heading, behind, List.append_nil, decoded]

theorem behindAll_blocks (categories : List Category) (inventory : Inventory)
    (listed : ∀ category, ∀ lexeme ∈ inventory.lexemes category,
      lexemeOf category lexeme.listing = lexeme)
    (entries : Entries) (selectors : List (String × Entries)) :
    (⟨[], entries, selectors⟩ : Decoded).behindAll (blocks false categories inventory).flatten =
      ⟨[], entriesOf categories inventory ++ entries, selectors⟩ := by
  unfold blocks entriesOf
  induction categories.filter fun category => !(inventory.lexemes category).isEmpty with
  | nil => rfl
  | cons category rest inductionHypothesis =>
    rw [List.map_cons, List.flatten_cons, behindAll_append, inductionHypothesis,
      behindAll_block _ (listed category)]
    rfl

theorem behindAll_listingLines (categories : List Category) (inventory : Inventory)
    (unindented : selector.toList.head?.any Text.isBlank = false)
    (listed : ∀ category, ∀ lexeme ∈ inventory.lexemes category,
      lexemeOf category lexeme.listing = lexeme)
    (selectors : List (String × Entries)) :
    (⟨[], [], selectors⟩ : Decoded).behindAll (listingLines false categories selector inventory) =
      ⟨[], [], (selector, entriesOf categories inventory) :: selectors⟩ := by
  have shown := behindAll_blocks categories inventory listed [] selectors
  rw [List.append_nil] at shown
  have body : (⟨[], [], selectors⟩ : Decoded).behindAll
      (listingLines false categories selector inventory).tail =
        ⟨[], entriesOf categories inventory, selectors⟩ := by
    rw [← shown, listingLines, List.tail_cons]
    -- The remark says nothing, so it may stand for an empty list of blocks.
    split
    · next empty => rw [empty]; rfl
    · next full => rw [full]
  show (behindAll (listingLines false categories selector inventory).tail _).behind
    (Line.ofText selector) = _
  rw [body, Line.ofText_selector selector unindented, behind]

end Decoded

/-! ### The listings of several selectors -/

open SelectorList (OnLine)

/-- The lines of the listings of several selectors, one listing after another. -/
def allLines (duplicates : Duplicates) (categories : List Category) (selectors : List String) :
    List String :=
  selectors.flatMap fun selector =>
    listingLines false categories selector (.ofSelector duplicates selector)

theorem listingLines_whole (duplicates : Duplicates) (categories : List Category)
    (onLine : OnLine selector) (line : String)
    (member : line ∈ listingLines false categories selector (.ofSelector duplicates selector)) :
    '\n' ∉ line.toList := by
  rw [listingLines] at member
  rcases List.mem_cons.mp member with rfl | inBody
  · exact onLine.whole
  split at inBody
  · rw [List.mem_singleton.mp inBody]
    decide
  · next first rest full =>
    rw [← full] at inBody
    obtain ⟨lines, shown, inBlock⟩ := List.mem_flatten.mp inBody
    obtain ⟨category, _, rfl⟩ := List.mem_map.mp shown
    rcases List.mem_cons.mp inBlock with rfl | inList
    · cases category <;> decide
    · obtain ⟨lexeme, listed, rfl⟩ := List.mem_map.mp inList
      have whole := listing_whole (Inventory.takenFrom_of_mem_lexemes listed) onLine.whole
      simp [whole]

theorem allLines_whole (duplicates : Duplicates) (categories : List Category)
    (selectors : List String) (onLines : ∀ selector ∈ selectors, OnLine selector) (line : String)
    (member : line ∈ allLines duplicates categories selectors) : '\n' ∉ line.toList := by
  obtain ⟨selector, given, inListing⟩ := List.mem_flatMap.mp member
  exact listingLines_whole duplicates categories (onLines selector given) line inListing

theorem behindAll_allLines (duplicates : Duplicates) (categories : List Category)
    (selectors : List String) (onLines : ∀ selector ∈ selectors, OnLine selector) :
    ({} : Decoded).behindAll (allLines duplicates categories selectors) =
      ⟨[], [], selectors.map fun selector =>
        (selector, entriesOf categories (.ofSelector duplicates selector))⟩ := by
  unfold allLines
  induction selectors with
  | nil => rfl
  | cons selector rest inductionHypothesis =>
    obtain ⟨onLine, onLaterLines⟩ := List.forall_mem_cons.mp onLines
    have listed : ∀ category,
        ∀ lexeme ∈ (Inventory.ofSelector duplicates selector).lexemes category,
          lexemeOf category lexeme.listing = lexeme := fun category lexeme member =>
      lexemeOf_listing (Inventory.takenFrom_of_mem_lexemes member)
    rw [List.flatMap_cons, Decoded.behindAll_append, inductionHypothesis onLaterLines,
      Decoded.behindAll_listingLines _ _ onLine.unindented listed]
    rfl

theorem join_render (duplicates : Duplicates) (categories : List Category)
    (selectors : List String) :
    String.join (selectors.map fun selector =>
        render false categories selector (.ofSelector duplicates selector) ++ "\n") =
      String.join ((allLines duplicates categories selectors).map (· ++ "\n")) := by
  unfold allLines
  induction selectors with
  | nil => rfl
  | cons selector rest inductionHypothesis =>
    rw [List.map_cons, String.join_cons, inductionHypothesis, List.flatMap_cons, List.map_append,
      String.join_append]
    exact congrArg (· ++ _) (intercalate_append _ _)

/-- Listings without colours can be told apart, and so can the selectors, categories and
lexemes in them. Every selector that is read from the lines of a source or of a session is one
of those that this is about. -/
theorem decode_displayAll :
    (∀ text, ∀ selector ∈ SelectorList.ofText text, OnLine selector) ∧
    (∀ input, ∀ selector ∈ SelectorList.ofInput input, OnLine selector) ∧
    ∀ (duplicates : Duplicates) (only : List Category) (quiet : Bool) (selectors : List String),
      (∀ selector ∈ selectors, OnLine selector) →
      decode (({ duplicates, presentation := { format := .text, only }, quiet } :
          Settings).displayAll {} selectors).out =
        selectors.map fun selector => (selector,
          (Category.all.filter fun category => (only = [] ∨ category ∈ only) ∧
            (Inventory.ofSelector duplicates selector).lexemes category ≠ []).map fun category =>
              (category, (Inventory.ofSelector duplicates selector).lexemes category)) := by
  refine ⟨fun text selector => SelectorList.onLine_of_mem_ofText,
    fun input selector => SelectorList.onLine_of_mem_ofInput,
    fun duplicates only quiet selectors onLines => ?_⟩
  let presentation : Presentation := { format := .text, only }
  have text : (({ duplicates, presentation, quiet } : Settings).displayAll {} selectors).out =
      String.join ((allLines duplicates presentation.categories selectors).map (· ++ "\n")) := by
    rw [Settings.out_displayAll, String.empty_append]
    exact join_render duplicates presentation.categories selectors
  rw [decode, text, linesOf_join _ (allLines_whole _ _ selectors onLines),
    behindAll_allLines _ _ selectors onLines]
  refine List.map_congr_left fun selector _ => ?_
  rw [entriesOf, Presentation.categories, List.filter_filter]
  congr 2
  refine List.filter_congr fun category _ => ?_
  rw [Bool.eq_iff_iff]
  simp [presentation, Presentation.shows, and_comm]

/-- Equals signs in a value, a selector that is empty and one without lexemes are all decoded. -/
theorem decode_displayAll_signs :
    (∀ selector ∈ ["a[k = v=w][d]", "", "> >"], OnLine selector) ∧
      decode (({ presentation := { format := .text } } : Settings).displayAll {}
        ["a[k = v=w][d]", "", "> >"]).out =
          [("a[k = v=w][d]", [(.elements, [.text "a"]),
            (.attributes, [.attribute ⟨"k", "v=w"⟩, .attribute ⟨"d", "d"⟩])]),
          ("", []), ("> >", [])] := by
  have onLines : ∀ selector ∈ ["a[k = v=w][d]", "", "> >"], OnLine selector := by
    simp only [List.forall_mem_cons]
    exact ⟨⟨by decide, by decide⟩, ⟨by decide, by decide⟩, ⟨by decide, by decide⟩,
      List.forall_mem_nil OnLine⟩
  have signs : scan "a[k = v=w][d]" = [⟨.elements, .text "a"⟩,
      ⟨.attributes, .attribute ⟨"k", "v=w"⟩⟩, ⟨.attributes, .attribute ⟨"d", "d"⟩⟩] :=
    scan_of_isCutOf [.element ['a'], .attribute "k = v=w".toList true, .attribute ['d'] true] _
      (by decide)
  have nothing : scan "" = [] := scan_of_isCutOf [] _ (by decide)
  have separators : scan "> >" = [] :=
    scan_of_isCutOf [.separator '>', .separator ' ', .separator '>'] _ (by decide)
  have decoded := decode_displayAll.2.2 .keep [] false _ onLines
  refine ⟨onLines, decoded.trans ?_⟩
  simp only [List.map_cons, List.map_nil, Inventory.ofSelector, signs, nothing, separators]
  rfl

end Listing

end SelectorLexemes
