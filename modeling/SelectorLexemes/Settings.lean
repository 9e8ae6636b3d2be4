/-
This file shows selectors under fixed settings. A selector without lexemes is shown like
any other, but a warning goes out first unless warnings are switched off. In an
interactive session every line of input is a selector of its own, and each line begins
with a console that has forgotten the warnings of the lines before.
-/

import SelectorLexemes.Console
import SelectorLexemes.Presentation
import SelectorLexemes.SelectorList

namespace SelectorLexemes

/-- What stays fixed while selectors are shown. -/
structure Settings where
  /-- What happens to repeated lexemes. -/
  duplicates : Duplicates := .keep
  /-- How inventories are shown. -/
  presentation : Presentation := {}
  /-- Whether warnings are switched off. -/
  quiet : Bool := false

namespace Settings

/-- The text that shows a selector. -/
def rendering (settings : Settings) (selector : String) : String :=
  settings.presentation.render selector (Inventory.ofSelector settings.duplicates selector) ++ "\n"

/-- The selector calls for a warning. -/
def warnsAbout (settings : Settings) (selector : String) : Bool :=
  !settings.quiet && (Inventory.ofSelector settings.duplicates selector).isEmpty

/-- Shows a selector, after the warning that it calls for. -/
def display (settings : Settings) (console : Console) (selector : String) : Console :=
  if settings.warnsAbout selector then
    (console.warn (Warning.noLexemes selector)).print (settings.rendering selector)
  else
    console.print (settings.rendering selector)

/-- Shows selectors one after another. -/
def displayAll (settings : Settings) (console : Console) (selectors : List String) : Console :=
  selectors.foldl settings.display console

/-! ### Interactive sessions -/

/-- Shows the selector on a line of input, if the line is text. -/
def followLine? (settings : Settings) (console : Console) (line : Text.Bytes) : Option Console :=
  (Text.decode? line).map fun text => settings.display console.forget (Text.trimmed text)

/-- Shows the selectors on lines of input, up to the first line that is not text. -/
def followLines (settings : Settings) (console : Console) :
    List Text.Bytes → Console × Option Failure
  | [] => (console, none)
  | line :: rest =>
    match settings.followLine? console line with
    | none => (console, some (.unreadableLine .invalidUtf8))
    | some next => settings.followLines next rest

/-- Shows the selectors on the lines of the input. -/
def follow (settings : Settings) (console : Console) (input : Text.Bytes) :
    Console × Option Failure :=
  settings.followLines console (Text.lines Text.newlineByte input)

end Settings

end SelectorLexemes
