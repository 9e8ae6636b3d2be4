/-
This file holds the failures that end a run, with their wording. A failure has a headline
and may have a cause; on standard error the cause stands below the headline, and where a
single line is wanted it follows the headline after a colon.
-/

import SelectorLexemes.Source

namespace SelectorLexemes

/-- Why a run ends early. -/
inductive Failure where
  /-- A source of selectors could not be read. -/
  | unreadableSource (source : Source) (cause : ReadFailure)
  /-- A line of an interactive session could not be read. -/
  | unreadableLine (cause : ReadFailure)
  /-- Neither the arguments nor a source gave a selector. -/
  | noSelector
deriving DecidableEq

namespace Failure

/-- What went wrong. -/
def headline : Failure → String
  | unreadableSource .standardInput _ => "failed to read selectors from stdin"
  | unreadableSource (.file path) _ => "failed to read selectors from '" ++ path ++ "'"
  | unreadableLine _ => "failed to read selector from stdin"
  | noSelector =>
    "no selector given\n\nUsage: selcat <SELECTOR>...\n       selcat --file <FILE>\n" ++
      "       selcat --interactive"

/-- Why it went wrong, if there is more to say. -/
def cause? : Failure → Option ReadFailure
  | unreadableSource _ cause => some cause
  | unreadableLine cause => some cause
  | noSelector => none

/-- The failure on one line. -/
def summary (failure : Failure) : String :=
  match failure.cause? with
  | none => failure.headline
  | some cause => failure.headline ++ ": " ++ cause.message

/-- The failure as it is reported on standard error. -/
def report (failure : Failure) : String :=
  match failure.cause? with
  | none => "Error: " ++ failure.headline ++ "\n"
  | some cause =>
    "Error: " ++ failure.headline ++ "\n\nCaused by:\n    " ++ cause.message ++ "\n"

end Failure

end SelectorLexemes
