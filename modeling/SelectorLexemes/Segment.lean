/-
This file holds segments, the consecutive pieces that a selector is cut into. Every
character of a selector lies in exactly one segment, so the texts of the segments make
up the selector; most segments give a token, and separators never do.
-/

import SelectorLexemes.Token

namespace SelectorLexemes

/-- A character that names are made of: an ASCII letter or digit, a hyphen or an
underscore. -/
def isNameChar (mark : Char) : Bool :=
  mark.isAlphanum || mark == '-' || mark == '_'

/-- Pseudo-classes whose name starts with `nth`, in any case, take an argument that is
not a selector. -/
def takesArgument (name : List Char) : Bool :=
  Text.equalIgnoringCase (name.take 3) ['n', 't', 'h']

/-- A piece of a selector. -/
inductive Segment where
  /-- A character that only separates: a blank, a combinator, a comma, a parenthesis or
  anything else that starts no other segment. -/
  | separator (mark : Char)
  /-- A bare name. -/
  | element (name : List Char)
  /-- A dot and a name. -/
  | classSelector (name : List Char)
  /-- A hash sign and a name. -/
  | idSelector (name : List Char)
  /-- Two colons and a name. -/
  | pseudoElement (name : List Char)
  /-- One colon, a name and the argument in its parentheses, which is empty for most
  names. -/
  | pseudoClass (name argument : List Char)
  /-- Brackets and their content; the closing one is missing at the end of a selector
  that is cut short. -/
  | attribute (content : List Char) (closed : Bool)
deriving DecidableEq

namespace Segment

/-- The stretch of the selector that the segment covers. -/
def text : Segment → List Char
  | .separator mark => [mark]
  | .element name => name
  | .classSelector name => '.' :: name
  | .idSelector name => '#' :: name
  | .pseudoElement name => ':' :: ':' :: name
  | .pseudoClass name argument => ':' :: name ++ argument
  | .attribute content closed => '[' :: content ++ if closed then [']'] else []

/-- The token of an attribute selector with this content. The first equals sign splits
the content; without one the content is key and value at once. -/
def attributeToken? (content : List Char) : Option Token :=
  match content.dropWhile (· != '=') with
  | [] => Token.attribute? content content
  | _ :: value => Token.attribute? (content.takeWhile (· != '=')) value

/-- The token that the segment gives, if any. -/
def token? : Segment → Option Token
  | .separator _ => none
  | .element name => Token.named? .elements name
  | .classSelector name => Token.named? .classes name
  | .idSelector name => Token.named? .ids name
  | .pseudoElement name => Token.named? .pseudoElements name
  | .pseudoClass name _ => Token.named? .pseudoClasses name
  | .attribute content _ => attributeToken? content

end Segment

end SelectorLexemes
