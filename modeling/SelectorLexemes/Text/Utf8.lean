/-
This file decodes raw input. Input is a list of bytes, and it is text when it is
well-formed UTF-8: no overlong form, no surrogate, nothing above U+10FFFF and no
sequence cut short.
-/

namespace SelectorLexemes.Text

/-- Raw input, as read from a file or from standard input. -/
abbrev Bytes := List UInt8

/-- The text that the bytes encode, if they are well-formed UTF-8. -/
def decode? (bytes : Bytes) : Option String :=
  String.fromUTF8? bytes.toByteArray

/-- The bytes that encode a text. -/
def encode (text : String) : Bytes :=
  text.toByteArray.data.toList

theorem decode?_encode (text : String) : decode? (encode text) = some text := by
  have bytes : (encode text).toByteArray = text.toByteArray := by
    apply ByteArray.ext
    simp [encode, List.data_toByteArray]
  simp only [decode?, bytes, String.fromUTF8?, dif_pos text.isValidUTF8]
  rfl

end SelectorLexemes.Text
