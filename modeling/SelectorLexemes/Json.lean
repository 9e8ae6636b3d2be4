/-
This file holds JSON documents and their writing. The documents here are made of strings,
arrays and objects whose members keep their order. A document is first laid out as a
sequence of pieces, which says where line breaks and gaps may stand; the compact layout
leaves those out and the indented layout fills them in, so that the two differ in
nothing else.
-/

import SelectorLexemes.Json.Quoted

namespace SelectorLexemes

/-- A JSON document. -/
inductive Json where
  /-- A string. -/
  | string (text : String)
  /-- A sequence of documents. -/
  | array (items : List Json)
  /-- Named documents, in the order in which they are written. -/
  | object (members : List (String × Json))

namespace Json

/-! ### Pieces -/

/-- A piece of a document that is laid out. -/
inductive Piece where
  /-- A bracket, a brace, a comma or a colon. -/
  | symbol (mark : Char)
  /-- A string literal. -/
  | literal (text : String)
  /-- The place for a line break before a line at this depth. -/
  | lineBreak (depth : Nat)
  /-- The place for a gap between a colon and the document that it introduces. -/
  | gap

mutual

/-- The pieces of a document whose last line stands at this depth. -/
def pieces (depth : Nat) : Json → List Piece
  | .string text => [.literal text]
  | .array [] => [.symbol '[', .symbol ']']
  | .array (item :: items) =>
    .symbol '[' :: .lineBreak (depth + 1) ::
      (item.pieces (depth + 1) ++ itemPieces (depth + 1) items ++ [.lineBreak depth, .symbol ']'])
  | .object [] => [.symbol '{', .symbol '}']
  | .object ((name, value) :: members) =>
    .symbol '{' :: .lineBreak (depth + 1) :: .literal name :: .symbol ':' :: .gap ::
      (value.pieces (depth + 1) ++ memberPieces (depth + 1) members ++
        [.lineBreak depth, .symbol '}'])

/-- The pieces of the items after the first, each on a line at this depth. -/
def itemPieces (depth : Nat) : List Json → List Piece
  | [] => []
  | item :: items =>
    .symbol ',' :: .lineBreak depth :: (item.pieces depth ++ itemPieces depth items)

/-- The pieces of the members after the first, each on a line at this depth. -/
def memberPieces (depth : Nat) : List (String × Json) → List Piece
  | [] => []
  | (name, value) :: members =>
    .symbol ',' :: .lineBreak depth :: .literal name :: .symbol ':' :: .gap ::
      (value.pieces depth ++ memberPieces depth members)

end

/-! ### Layouts -/

/-- How much room a document takes. -/
inductive Layout where
  /-- Everything on one line, without spaces. -/
  | compact
  /-- Every item and member on a line of its own, with two spaces for each level. -/
  | indented
deriving DecidableEq

/-- What a piece is written as. -/
def Piece.chars (layout : Layout) : Piece → List Char
  | .symbol mark => [mark]
  | .literal text => quote text.toList
  | .lineBreak depth =>
    match layout with
    | .compact => []
    | .indented => '\n' :: List.replicate (2 * depth) ' '
  | .gap =>
    match layout with
    | .compact => []
    | .indented => [' ']

/-- The written document. -/
def write (layout : Layout) (document : Json) : String :=
  String.ofList ((document.pieces 0).flatMap (Piece.chars layout))

end Json

end SelectorLexemes
