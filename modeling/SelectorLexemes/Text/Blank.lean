/-
This file holds the blank characters of Unicode and the trimming of texts. A
character is blank when it has the White_Space property, which is a closed set of
25 code points; trimming removes blanks from both ends and leaves the middle alone.
-/

namespace SelectorLexemes.Text

/-! ### Blank characters -/

/-- The ranges of code points, both ends included, that have the White_Space property. -/
def blankRanges : List (Nat × Nat) :=
  [(0x09, 0x0D), (0x20, 0x20), (0x85, 0x85), (0xA0, 0xA0), (0x1680, 0x1680), (0x2000, 0x200A),
    (0x2028, 0x2029), (0x202F, 0x202F), (0x205F, 0x205F), (0x3000, 0x3000)]

/-- A character is blank when its code point lies in one of the ranges. -/
def isBlank (mark : Char) : Bool :=
  blankRanges.any fun (first, last) => decide (first ≤ mark.toNat) && decide (mark.toNat ≤ last)

/-! ### Trimming -/

/-- The text without the blanks at its start. -/
def trimStart (text : List Char) : List Char :=
  text.dropWhile isBlank

/-- The text without the blanks at its end. -/
def trimEnd (text : List Char) : List Char :=
  (text.reverse.dropWhile isBlank).reverse

/-- The text without the blanks at either end. -/
def trim (text : List Char) : List Char :=
  trimEnd (trimStart text)

/-- The string without the blanks at either end. -/
def trimmed (text : String) : String :=
  String.ofList (trim text.toList)

@[simp] theorem toList_trimmed (text : String) : (trimmed text).toList = trim text.toList := by
  simp [trimmed]

end SelectorLexemes.Text
