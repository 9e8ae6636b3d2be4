/-
This file proves that the two layouts of a document differ in nothing but layout. Every character
of a written document stands at a place: outside of string literals, inside of one, or behind a
backslash inside of one. Only the spaces and line breaks that stand outside of literals are layout.
When they are deleted from the indented layout, what is left is the compact layout.

No piece of a document ends inside of a literal, so pieces can be looked at one at a time. The
places for line breaks and gaps are all that the layouts differ in, and what is written there is
layout. Inside of a literal nothing is layout, whatever spaces, braces and quotation marks the text
holds, so what stands there is kept as it is.
-/

import SelectorLexemes.Presentation
import SelectorLexemes.Proofs.Documents

namespace SelectorLexemes

namespace Json

/-! ### Places -/

/-- Where a character of a JSON text stands. -/
inductive Place where
  /-- Outside of string literals, or at the quotation mark that begins one. -/
  | outside
  /-- Inside of a string literal, or at the quotation mark that ends it. -/
  | inside
  /-- Directly behind the backslash of an escape. -/
  | escaped
deriving DecidableEq

/-- Where the character behind a character stands. -/
def Place.next (place : Place) (mark : Char) : Place :=
  match place with
  | .outside => if mark = '"' then .inside else .outside
  | .inside => if mark = '"' then .outside else if mark = '\\' then .escaped else .inside
  | .escaped => .inside

/-- The characters of a text that begins at a place, each with the place where it stands. -/
def placed (place : Place) : List Char → List (Place × Char)
  | [] => []
  | mark :: rest => (place, mark) :: placed (place.next mark) rest

/-- The place behind a text that begins at a place. -/
def placeBehind (place : Place) (text : List Char) : Place :=
  text.foldl Place.next place

/-- The character is layout: a space or a line break outside of string literals. -/
def isLayout (entry : Place × Char) : Bool :=
  entry.1 == .outside && (entry.2 == ' ' || entry.2 == '\n')

/-- The text without its layout. -/
def withoutLayout (text : String) : String :=
  String.ofList (((placed .outside text.toList).filter (!isLayout ·)).map Prod.snd)

/-- What stands inside of the string literals of a text, with the marks that end them. -/
def insideLiterals (text : String) : String :=
  String.ofList (((placed .outside text.toList).filter (·.1 != .outside)).map Prod.snd)

theorem placed_append (place : Place) (first second : List Char) :
    placed place (first ++ second) =
      placed place first ++ placed (placeBehind place first) second := by
  induction first generalizing place with
  | nil => rfl
  | cons mark rest inductionHypothesis =>
    rw [List.cons_append, placed, placed, inductionHypothesis]
    rfl

theorem placeBehind_append (place : Place) (first second : List Char) :
    placeBehind place (first ++ second) = placeBehind (placeBehind place first) second :=
  List.foldl_append

/-! ### Literals -/

/-- The text begins inside of a literal, stays there and does not end behind a backslash. -/
structure StaysInside (text : List Char) : Prop where
  ends : placeBehind .inside text = .inside
  within : ∀ entry ∈ placed .inside text, entry.1 ≠ .outside

theorem StaysInside.append {first second : List Char} (stays : StaysInside first)
    (staysToo : StaysInside second) : StaysInside (first ++ second) := by
  constructor
  · rw [placeBehind_append, stays.ends, staysToo.ends]
  · rw [placed_append, stays.ends]
    exact List.forall_mem_append.mpr ⟨stays.within, staysToo.within⟩

theorem staysInside_singleton {mark : Char} (notQuote : mark ≠ '"') (notEscape : mark ≠ '\\') :
    StaysInside [mark] := by
  constructor
  · show Place.next .inside mark = .inside
    rw [Place.next, if_neg notQuote, if_neg notEscape]
  · exact List.forall_mem_singleton.mpr Place.noConfusion

theorem staysInside_escape (letter : Char) : StaysInside ['\\', letter] := by
  constructor
  · rfl
  · exact List.forall_mem_cons.mpr
      ⟨Place.noConfusion, List.forall_mem_singleton.mpr Place.noConfusion⟩

theorem staysInside_hexEscape {mark : Char} (control : mark.toNat < 0x20) :
    StaysInside (hexEscape mark) := by
  have plain : ∀ value < 16, Nat.digitChar value ≠ '"' ∧ Nat.digitChar value ≠ '\\' := by decide
  have zero : StaysInside ['0'] := staysInside_singleton (by decide) (by decide)
  have high := plain (mark.toNat / 16) (by omega)
  have low := plain (mark.toNat % 16) (by omega)
  exact (staysInside_escape 'u').append (zero.append (zero.append
    ((staysInside_singleton high.1 high.2).append (staysInside_singleton low.1 low.2))))

theorem staysInside_escapeChar (mark : Char) : StaysInside (escapeChar mark) := by
  rcases escapeChar_cases mark with ⟨letter, _, _, _, writes⟩ | ⟨control, writes⟩ |
    ⟨notQuote, notEscape, _, writes⟩
  · rw [writes]
    exact staysInside_escape letter
  · rw [writes]
    exact staysInside_hexEscape control
  · rw [writes]
    exact staysInside_singleton notQuote notEscape

theorem staysInside_escaped (text : List Char) : StaysInside (text.flatMap escapeChar) := by
  induction text with
  | nil => exact ⟨rfl, List.forall_mem_nil _⟩
  | cons mark rest inductionHypothesis =>
    rw [List.flatMap_cons]
    exact (staysInside_escapeChar mark).append inductionHypothesis

theorem placed_quote (text : List Char) :
    placed .outside (quote text) =
      (.outside, '"') :: (placed .inside (text.flatMap escapeChar) ++ [(.inside, '"')]) := by
  show (.outside, '"') :: placed .inside (text.flatMap escapeChar ++ ['"']) = _
  rw [placed_append, (staysInside_escaped text).ends]
  rfl

theorem placeBehind_quote (text : List Char) : placeBehind .outside (quote text) = .outside := by
  show placeBehind .inside (text.flatMap escapeChar ++ ['"']) = .outside
  rw [placeBehind_append, (staysInside_escaped text).ends]
  rfl

/-! ### Pieces -/

theorem placeBehind_spaces (count : Nat) :
    placeBehind .outside (List.replicate count ' ') = .outside := by
  induction count with
  | zero => rfl
  | succ count inductionHypothesis => exact inductionHypothesis

/-- A written piece begins outside of literals and ends there. -/
theorem placeBehind_chars (layout : Layout) {piece : Piece} (proper : piece.IsProper) :
    placeBehind .outside (piece.chars layout) = .outside := by
  cases piece with
  | symbol mark =>
    have symbol : mark ∈ symbolMarks := proper mark rfl
    refine if_neg ?_
    rintro rfl
    exact absurd symbol (by decide)
  | literal text => exact placeBehind_quote text.toList
  | lineBreak depth =>
    cases layout with
    | compact => rfl
    | indented => exact placeBehind_spaces (2 * depth)
  | gap => cases layout <;> rfl

theorem placed_flatMap_chars (layout : Layout) (pieces : List Piece)
    (proper : ∀ piece ∈ pieces, piece.IsProper) :
    placed .outside (pieces.flatMap (Piece.chars layout)) =
      pieces.flatMap fun piece => placed .outside (piece.chars layout) := by
  induction pieces with
  | nil => rfl
  | cons piece rest inductionHypothesis =>
    obtain ⟨first, others⟩ := List.forall_mem_cons.mp proper
    rw [List.flatMap_cons, placed_append, placeBehind_chars layout first,
      inductionHypothesis others, List.flatMap_cons]

theorem isLayout_of_mem_placed_spaces {count : Nat} {entry : Place × Char}
    (member : entry ∈ placed .outside (List.replicate count ' ')) : isLayout entry = true := by
  induction count with
  | zero => cases member
  | succ count inductionHypothesis =>
    rcases List.mem_cons.mp member with rfl | later
    · rfl
    · exact inductionHypothesis later

/-- What the indented layout writes for a piece is what the compact layout writes for it, apart
from layout. -/
theorem filter_placed_chars {keep : Place × Char → Bool}
    (drops : ∀ entry, isLayout entry = true → keep entry = false) (piece : Piece) :
    (placed .outside (piece.chars .indented)).filter keep =
      (placed .outside (piece.chars .compact)).filter keep := by
  cases piece with
  | symbol mark => rfl
  | literal text => rfl
  | lineBreak depth =>
    refine List.filter_eq_nil_iff.mpr (List.forall_mem_cons.mpr ⟨?_, fun entry member => ?_⟩)
    · exact Bool.eq_false_iff.mp (drops _ rfl)
    · exact Bool.eq_false_iff.mp (drops entry (isLayout_of_mem_placed_spaces member))
  | gap =>
    refine List.filter_eq_nil_iff.mpr (List.forall_mem_singleton.mpr ?_)
    exact Bool.eq_false_iff.mp (drops _ rfl)

theorem isLayout_of_mem_compact {piece : Piece} (proper : piece.IsProper) :
    ∀ entry ∈ placed .outside (piece.chars .compact), isLayout entry = false := by
  cases piece with
  | symbol mark =>
    have symbol : mark ∈ symbolMarks := proper mark rfl
    refine List.forall_mem_singleton.mpr ?_
    simp only [symbolMarks, List.mem_cons, List.not_mem_nil, or_false] at symbol
    rcases symbol with rfl | rfl | rfl | rfl | rfl | rfl <;> rfl
  | literal text =>
    show ∀ entry ∈ placed .outside (quote text.toList), isLayout entry = false
    rw [placed_quote]
    refine List.forall_mem_cons.mpr ⟨rfl, List.forall_mem_append.mpr ⟨fun entry member => ?_, ?_⟩⟩
    · have within := (staysInside_escaped text.toList).within entry member
      rw [isLayout, beq_false_of_ne within, Bool.false_and]
    · exact List.forall_mem_singleton.mpr rfl
  | lineBreak depth => exact List.forall_mem_nil _
  | gap => exact List.forall_mem_nil _

/-! ### Written documents -/

theorem filter_placed_write (keep : Place × Char → Bool)
    (drops : ∀ entry, isLayout entry = true → keep entry = false) (document : Json) :
    (placed .outside (document.write .indented).toList).filter keep =
      (placed .outside (document.write .compact).toList).filter keep := by
  have proper := isProper_of_mem_pieces document 0
  rw [write, write, String.toList_ofList, String.toList_ofList, placed_flatMap_chars _ _ proper,
    placed_flatMap_chars _ _ proper, List.filter_flatMap, List.filter_flatMap]
  exact List.flatMap_congr fun piece _ => filter_placed_chars drops piece

theorem map_snd_placed (place : Place) (text : List Char) :
    (placed place text).map Prod.snd = text := by
  induction text generalizing place with
  | nil => rfl
  | cons mark rest inductionHypothesis => rw [placed, List.map_cons, inductionHypothesis]

theorem withoutLayout_compact (document : Json) :
    withoutLayout (document.write .compact) = document.write .compact := by
  have proper := isProper_of_mem_pieces document 0
  have solid : ∀ entry ∈ placed .outside (document.write .compact).toList,
      (!isLayout entry) = true := by
    intro entry member
    rw [write, String.toList_ofList, placed_flatMap_chars _ _ proper] at member
    obtain ⟨piece, inPieces, inPiece⟩ := List.mem_flatMap.mp member
    rw [isLayout_of_mem_compact (proper piece inPieces) entry inPiece]
    rfl
  rw [withoutLayout, List.filter_eq_self.mpr solid, map_snd_placed, String.ofList_toList]

/-- Without its layout, the indented document is the compact one. -/
theorem withoutLayout_indented (document : Json) :
    withoutLayout (document.write .indented) = document.write .compact := by
  have drops : ∀ entry, isLayout entry = true → (!isLayout entry) = false := fun entry layout =>
    congrArg not layout
  rw [← withoutLayout_compact, withoutLayout, filter_placed_write _ drops, ← withoutLayout]

/-- Spaces, braces and quotation marks inside of a literal are not layout. -/
example : withoutLayout ((Json.array [.string "a b", .string "\x7b \": \x7d"]).write .indented) =
    "[\"a b\",\"\x7b \\\": \x7d\"]" := by
  rfl

theorem insideLiterals_indented (document : Json) :
    insideLiterals (document.write .indented) = insideLiterals (document.write .compact) := by
  have drops : ∀ entry : Place × Char, isLayout entry = true → (entry.1 != .outside) = false := by
    intro entry layout
    rw [isLayout, Bool.and_eq_true] at layout
    rw [bne, layout.1]
    rfl
  rw [insideLiterals, filter_placed_write _ drops, ← insideLiterals]

end Json

/-- The rendering of all categories as JSON is the one-line text of the inventory, apart from the
spaces and line breaks outside of string literals. What stands inside of literals is the same in
both, and both are read as the same document. -/
theorem Inventory.withoutLayout_render (inventory : Inventory) (selector : String)
    (colored : Bool) :
    Json.withoutLayout (({ format := .json, only := [], colored } : Presentation).render selector
        inventory) = inventory.json ∧
    Json.insideLiterals (({ format := .json, only := [], colored } : Presentation).render selector
        inventory) = Json.insideLiterals inventory.json ∧
    Json.read? (({ format := .json, only := [], colored } : Presentation).render selector
        inventory) = some (inventory.document Category.all) ∧
    Json.read? inventory.json = some (inventory.document Category.all) := by
  have rendered : ({ format := .json, only := [], colored } : Presentation).render selector
      inventory = (inventory.document Category.all).write .indented := rfl
  rw [rendered, json]
  exact ⟨Json.withoutLayout_indented _, Json.insideLiterals_indented _, Json.read?_write _ _,
    Json.read?_write _ _⟩

end SelectorLexemes
