/-
This file reads JSON documents and proves that nothing is lost when one is written. The
pieces of a text are taken up one at a time; what is remembered is the arrays and objects
that are not complete, with what has been read of each. No piece is looked at twice, and
a piece that may not stand where it does refuses the whole text.

The pieces of a document bring every such reader from the place where a document may begin
to the place behind this document, whatever is around it. Both layouts are therefore read
as the document that was written. For inventories this means that the text on one line
tells all six buckets apart, down to every character of a key or a value.
-/

import Mathlib.Logic.Function.Basic
import SelectorLexemes.Inventory.Document
import SelectorLexemes.Proofs.Pieces

namespace SelectorLexemes

namespace Json

/-! ### Assembling documents -/

/-- An array or object that is not complete. -/
inductive Open where
  /-- An array, with the items before the next one. -/
  | array (items : List Json)
  /-- An object, with the members before the next one and the name of the next one. -/
  | object (members : List (String × Json)) (name : String)

/-- What may come next. -/
inductive Expected where
  /-- A document, or the end of an array that has no items yet. -/
  | document
  /-- The name of a member behind these members, or the end if there are none. -/
  | name (members : List (String × Json))
  /-- The colon behind the name of a member. -/
  | colon (members : List (String × Json)) (name : String)
  /-- What may stand behind a document that is complete. -/
  | behind (document : Json)

/-- A document that is being assembled. -/
structure Assembly where
  /-- The arrays and objects around the place, the nearest first. -/
  around : List Open := []
  /-- What may come next. -/
  expected : Expected := .document

namespace Assembly

/-- The assembly behind a symbol that follows a complete document. -/
def goOn? (document : Json) : List Open → Char → Option Assembly
  | .array items :: around, ',' => some ⟨.array (items ++ [document]) :: around, .document⟩
  | .array items :: around, ']' => some ⟨around, .behind (.array (items ++ [document]))⟩
  | .object members name :: around, ',' => some ⟨around, .name (members ++ [(name, document)])⟩
  | .object members name :: around, '}' =>
    some ⟨around, .behind (.object (members ++ [(name, document)]))⟩
  | _, _ => none

/-- The assembly behind one more piece, unless the piece may not stand there. -/
def next? : Assembly → Piece → Option Assembly
  | ⟨around, .document⟩, .literal text => some ⟨around, .behind (.string text)⟩
  | ⟨around, .document⟩, .symbol '[' => some ⟨.array [] :: around, .document⟩
  | ⟨.array [] :: around, .document⟩, .symbol ']' => some ⟨around, .behind (.array [])⟩
  | ⟨around, .document⟩, .symbol '{' => some ⟨around, .name []⟩
  | ⟨around, .name []⟩, .symbol '}' => some ⟨around, .behind (.object [])⟩
  | ⟨around, .name members⟩, .literal name => some ⟨around, .colon members name⟩
  | ⟨around, .colon members name⟩, .symbol ':' => some ⟨.object members name :: around, .document⟩
  | ⟨around, .behind document⟩, .symbol mark => goOn? document around mark
  | _, _ => none

/-- The assembly behind a sequence of pieces. -/
def run? (assembly : Assembly) (pieces : List Piece) : Option Assembly :=
  pieces.foldlM next? assembly

/-- The document, if it is complete and nothing is around it. -/
def document? : Assembly → Option Json
  | ⟨[], .behind document⟩ => some document
  | _ => none

end Assembly

/-- Reads a document. Numbers and the names `true`, `false` and `null` are no documents
here, so a text that holds one is refused. -/
def read? (text : String) : Option Json :=
  (solids? text.toList).bind fun pieces => (Assembly.run? {} pieces).bind Assembly.document?

theorem Assembly.run?_cons {assembly next : Assembly} {piece : Piece}
    (step : assembly.next? piece = some next) (pieces : List Piece) :
    assembly.run? (piece :: pieces) = next.run? pieces := by
  rw [run?, List.foldlM_cons, step]
  rfl

theorem Assembly.run?_append {assembly next : Assembly} {first : List Piece}
    (run : assembly.run? first = some next) (second : List Piece) :
    assembly.run? (first ++ second) = next.run? second := by
  rw [run?, List.foldlM_append, ← run?, run]
  rfl

/-! ### Reading what was written -/

/-- The pieces that are read again. -/
def solidOf (pieces : List Piece) : List Piece :=
  pieces.filter Piece.isSolid

open Assembly in
mutual

/-- The pieces of a document assemble it, whatever is around it. -/
theorem run?_pieces (document : Json) (depth : Nat) (around : List Open) :
    run? ⟨around, .document⟩ (solidOf (document.pieces depth)) =
      some ⟨around, .behind document⟩ := by
  match document with
  | .string text => rfl
  | .array [] => rfl
  | .object [] => rfl
  | .array (item :: items) =>
    have pieces : solidOf ((Json.array (item :: items)).pieces depth) =
        .symbol '[' :: (solidOf (item.pieces (depth + 1)) ++
          (solidOf (itemPieces (depth + 1) items) ++ [.symbol ']'])) := by
      simp [pieces, solidOf, List.filter_cons, Piece.isSolid]
    have begins : next? ⟨around, .document⟩ (.symbol '[') =
        some ⟨.array [] :: around, .document⟩ := by rw [next?]
    rw [pieces, run?_cons begins, run?_append (run?_pieces item (depth + 1) (.array [] :: around)),
      run?_itemPieces items (depth + 1) item [] around]
    rfl
  | .object ((name, value) :: members) =>
    have pieces : solidOf ((Json.object ((name, value) :: members)).pieces depth) =
        .symbol '{' :: .literal name :: .symbol ':' :: (solidOf (value.pieces (depth + 1)) ++
          (solidOf (memberPieces (depth + 1) members) ++ [.symbol '}'])) := by
      simp [pieces, solidOf, List.filter_cons, Piece.isSolid]
    have begins : next? ⟨around, .document⟩ (.symbol '{') = some ⟨around, .name []⟩ := by
      rw [next?]
    have named : next? ⟨around, .name []⟩ (.literal name) = some ⟨around, .colon [] name⟩ := by
      rw [next?]
    have colon : next? ⟨around, .colon [] name⟩ (.symbol ':') =
        some ⟨.object [] name :: around, .document⟩ := by
      rw [next?]
    rw [pieces, run?_cons begins, run?_cons named, run?_cons colon,
      run?_append (run?_pieces value (depth + 1) (.object [] name :: around)),
      run?_memberPieces members (depth + 1) (name, value) [] around]
    rfl

theorem run?_itemPieces (items : List Json) (depth : Nat) (last : Json) (before : List Json)
    (around : List Open) :
    run? ⟨.array before :: around, .behind last⟩
        (solidOf (itemPieces depth items) ++ [.symbol ']']) =
      some ⟨around, .behind (.array (before ++ last :: items))⟩ := by
  match items with
  | [] =>
    rfl
  | item :: items =>
    have pieces : solidOf (itemPieces depth (item :: items)) ++ [.symbol ']'] =
        .symbol ',' :: (solidOf (item.pieces depth) ++
          (solidOf (itemPieces depth items) ++ [.symbol ']'])) := by
      simp [itemPieces, solidOf, List.filter_cons, Piece.isSolid]
    have comma : next? ⟨.array before :: around, .behind last⟩ (.symbol ',') =
        some ⟨.array (before ++ [last]) :: around, .document⟩ := by
      rw [next?, goOn?]
    rw [pieces, run?_cons comma,
      run?_append (run?_pieces item depth (.array (before ++ [last]) :: around)),
      run?_itemPieces items depth item (before ++ [last]) around, List.append_assoc,
      List.singleton_append]

theorem run?_memberPieces (members : List (String × Json)) (depth : Nat) (last : String × Json)
    (before : List (String × Json)) (around : List Open) :
    run? ⟨.object before last.1 :: around, .behind last.2⟩
        (solidOf (memberPieces depth members) ++ [.symbol '}']) =
      some ⟨around, .behind (.object (before ++ last :: members))⟩ := by
  match members with
  | [] =>
    rfl
  | (name, value) :: members =>
    have pieces : solidOf (memberPieces depth ((name, value) :: members)) ++ [.symbol '}'] =
        .symbol ',' :: .literal name :: .symbol ':' :: (solidOf (value.pieces depth) ++
          (solidOf (memberPieces depth members) ++ [.symbol '}'])) := by
      simp [memberPieces, solidOf, List.filter_cons, Piece.isSolid]
    have comma : next? ⟨.object before last.1 :: around, .behind last.2⟩ (.symbol ',') =
        some ⟨around, .name (before ++ [last])⟩ := by
      rw [next?, goOn?]
    have named : next? ⟨around, .name (before ++ [last])⟩ (.literal name) =
        some ⟨around, .colon (before ++ [last]) name⟩ := by
      rw [next?]
    have colon : next? ⟨around, .colon (before ++ [last]) name⟩ (.symbol ':') =
        some ⟨.object (before ++ [last]) name :: around, .document⟩ := by
      rw [next?]
    rw [pieces, run?_cons comma, run?_cons named, run?_cons colon,
      run?_append (run?_pieces value depth (.object (before ++ [last]) name :: around)),
      run?_memberPieces members depth (name, value) (before ++ [last]) around, List.append_assoc,
      List.singleton_append]

end

mutual

theorem isProper_of_mem_pieces (document : Json) (depth : Nat) :
    ∀ piece ∈ document.pieces depth, piece.IsProper := by
  match document with
  | .string text => simp [pieces, Piece.IsProper]
  | .array [] => simp [pieces, Piece.IsProper, symbolMarks]
  | .object [] => simp [pieces, Piece.IsProper, symbolMarks]
  | .array (item :: items) =>
    have first := isProper_of_mem_pieces item (depth + 1)
    have others := isProper_of_mem_itemPieces items (depth + 1)
    simp only [pieces, List.forall_mem_cons, List.forall_mem_append]
    refine ⟨?_, ?_, ⟨first, others⟩, ?_⟩
    all_goals simp [Piece.IsProper, symbolMarks]
  | .object ((name, value) :: members) =>
    have first := isProper_of_mem_pieces value (depth + 1)
    have others := isProper_of_mem_memberPieces members (depth + 1)
    simp only [pieces, List.forall_mem_cons, List.forall_mem_append]
    refine ⟨?_, ?_, ?_, ?_, ?_, ⟨first, others⟩, ?_⟩
    all_goals simp [Piece.IsProper, symbolMarks]

theorem isProper_of_mem_itemPieces (items : List Json) (depth : Nat) :
    ∀ piece ∈ itemPieces depth items, piece.IsProper := by
  match items with
  | [] => simp [itemPieces]
  | item :: items =>
    have first := isProper_of_mem_pieces item depth
    have others := isProper_of_mem_itemPieces items depth
    simp only [itemPieces, List.forall_mem_cons, List.forall_mem_append]
    refine ⟨?_, ?_, first, others⟩
    all_goals simp [Piece.IsProper, symbolMarks]

theorem isProper_of_mem_memberPieces (members : List (String × Json)) (depth : Nat) :
    ∀ piece ∈ memberPieces depth members, piece.IsProper := by
  match members with
  | [] => simp [memberPieces]
  | (name, value) :: members =>
    have first := isProper_of_mem_pieces value depth
    have others := isProper_of_mem_memberPieces members depth
    simp only [memberPieces, List.forall_mem_cons, List.forall_mem_append]
    refine ⟨?_, ?_, ?_, ?_, ?_, first, others⟩
    all_goals simp [Piece.IsProper, symbolMarks]

end

/-- A document is read from what it is written as, in either layout. -/
theorem read?_write (layout : Layout) (document : Json) :
    read? (document.write layout) = some document := by
  have cut := solids?_flatMap_chars layout (document.pieces 0) (isProper_of_mem_pieces document 0)
  rw [read?, write, String.toList_ofList, cut, Option.bind_some]
  have assembled := run?_pieces document 0 []
  rw [solidOf] at assembled
  rw [assembled]
  rfl

/-! ### Control characters -/

theorem visible_of_mem_escapeChar (mark : Char) :
    ∀ written ∈ escapeChar mark, 0x20 ≤ written.toNat := by
  have digits : ∀ value < 16, 0x20 ≤ (Nat.digitChar value).toNat := by decide
  rcases escapeChar_cases mark with ⟨letter, _, visible, _, writes⟩ | ⟨control, writes⟩ |
    ⟨_, _, visible, writes⟩
  · simp [writes, visible]
  · have high := digits (mark.toNat / 16) (by omega)
    have low := digits (mark.toNat % 16) (by omega)
    simp [writes, hexEscape, high, low]
  · simp [writes, visible]

theorem visible_of_mem_chars {piece : Piece} (proper : piece.IsProper) :
    ∀ written ∈ piece.chars .compact, 0x20 ≤ written.toNat := by
  intro written member
  cases piece with
  | symbol mark =>
    obtain rfl := List.mem_singleton.mp member
    have symbol : written ∈ symbolMarks := proper written rfl
    simp only [symbolMarks, List.mem_cons, List.not_mem_nil, or_false] at symbol
    rcases symbol with rfl | rfl | rfl | rfl | rfl | rfl <;> decide
  | literal text =>
    rw [Piece.chars, quote, List.mem_append, List.mem_cons, List.mem_singleton,
      List.mem_flatMap] at member
    rcases member with (rfl | ⟨mark, _, escaped⟩) | rfl
    · decide
    · exact visible_of_mem_escapeChar mark written escaped
    · decide
  | lineBreak depth => cases member
  | gap => cases member

/-- The compact layout holds no character before the space. -/
theorem visible_of_mem_write (document : Json) :
    ∀ mark ∈ (document.write .compact).toList, 0x20 ≤ mark.toNat := by
  intro mark member
  rw [write, String.toList_ofList, List.mem_flatMap] at member
  obtain ⟨piece, inPieces, inPiece⟩ := member
  exact visible_of_mem_chars (isProper_of_mem_pieces document 0 piece inPieces) mark inPiece

end Json

/-! ### Inventories as documents -/

theorem Lexeme.document_injective : Function.Injective Lexeme.document := by
  rintro (name | ⟨key, value⟩) (otherName | ⟨otherKey, otherValue⟩) same
  · exact congrArg Lexeme.text (Json.string.inj same)
  · cases same
  · cases same
  · simp only [Lexeme.document, Json.object.injEq, List.cons.injEq, Prod.mk.injEq,
      Json.string.injEq, true_and, and_true] at same
    rw [same.1, same.2]

/-- The documents of two inventories differ if the inventories do. -/
theorem Inventory.document_all_injective :
    Function.Injective fun inventory : Inventory => inventory.document Category.all := by
  intro first second same
  refine Inventory.ext_lexemes fun category => ?_
  have members := Json.object.inj same
  have member := List.map_inj_left.mp members category (Category.mem_all category)
  exact List.map_injective_iff.mpr Lexeme.document_injective (Json.array.inj (Prod.mk.inj member).2)

/-- The text of an inventory is read back as an object with one array for each category, which
holds the lexemes in order. No character of it comes before the space, and no other inventory
has the same text. -/
theorem Inventory.json_lossless (inventory : Inventory) :
    (∃ members, Json.read? inventory.json = some (.object members) ∧
      members.map Prod.fst =
        ["elements", "classes", "ids", "pseudoElements", "pseudoClasses", "attributes"] ∧
      ∀ category : Category, members[category.index]? = some (category.name,
        .array ((inventory.lexemes category).map fun lexeme =>
          match lexeme with
          | .text name => .string name
          | .attribute pair =>
            .object [("key", .string pair.key), ("value", .string pair.value)]))) ∧
    (∀ mark ∈ inventory.json.toList, 0x20 ≤ mark.toNat) ∧
    ∀ other : Inventory, inventory.json = other.json ↔ inventory = other := by
  have read : ∀ other : Inventory,
      Json.read? other.json = some (other.document Category.all) :=
    fun other => Json.read?_write .compact (other.document Category.all)
  refine ⟨⟨_, read inventory, rfl, fun category => ?_⟩, Json.visible_of_mem_write _,
    fun other => ⟨fun same => ?_, fun same => same ▸ rfl⟩⟩
  · rw [List.getElem?_map, Category.all_getElem?_index]
    rfl
  · have documents := read inventory
    rw [same, read other] at documents
    exact (Inventory.document_all_injective (Option.some.inj documents)).symm

end SelectorLexemes
