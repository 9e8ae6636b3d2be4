/-
This file writes string literals of JSON. A quotation mark, a backslash and every control
character below U+0020 are escaped, with the short escape where there is one; all other
characters, those outside ASCII included, stand for themselves.
-/

namespace SelectorLexemes.Json

/-- The escape of a control character that has no short one: its code point as four
hexadecimal digits in lower case. -/
def hexEscape (mark : Char) : List Char :=
  ['\\', 'u', '0', '0', Nat.digitChar (mark.toNat / 16), Nat.digitChar (mark.toNat % 16)]

/-- How a character is written inside a string literal. -/
def escapeChar (mark : Char) : List Char :=
  if mark = '"' then ['\\', '"']
  else if mark = '\\' then ['\\', '\\']
  else if mark = '\x08' then ['\\', 'b']
  else if mark = '\t' then ['\\', 't']
  else if mark = '\n' then ['\\', 'n']
  else if mark = '\x0c' then ['\\', 'f']
  else if mark = '\r' then ['\\', 'r']
  else if mark.toNat < 0x20 then hexEscape mark
  else [mark]

/-- The text as a string literal. -/
def quote (text : List Char) : List Char :=
  '"' :: text.flatMap escapeChar ++ ['"']

end SelectorLexemes.Json
