/-
This file runs sessions, in which selectors are shown one at a time or as lines of input
while the settings may change and the console may be told to forget. The settings belong
to the session and the remembered warnings to its console, so that a change of settings
leaves them alone.
-/

import SelectorLexemes.Settings

namespace SelectorLexemes

/-- Something that happens in a session. -/
inductive Step where
  /-- A selector is shown. -/
  | display (selector : String)
  /-- The lines of some input are shown. -/
  | follow (input : Text.Bytes)
  /-- The settings are replaced. -/
  | replace (settings : Settings)
  /-- All warnings are forgotten. -/
  | forget

/-- The settings in force and the console. -/
structure Session where
  /-- The settings in force. -/
  settings : Settings := {}
  /-- What has been written, and which warnings are remembered. -/
  console : Console := {}

namespace Session

/-- The session after a step, and the failure of the step, if it failed. -/
def step (session : Session) : Step → Session × Option Failure
  | .display selector =>
    ({ session with console := session.settings.display session.console selector }, none)
  | .follow input =>
    let (console, failure?) := session.settings.follow session.console input
    ({ session with console := console }, failure?)
  | .replace settings => ({ session with settings := settings }, none)
  | .forget => ({ session with console := session.console.forget }, none)

/-- What a single step wrote to each stream, and its failure. -/
structure Report where
  /-- What the step wrote to standard output. -/
  out : String
  /-- What the step wrote to standard error. -/
  err : String
  /-- Why the step failed, if it did. -/
  failure? : Option Failure

/-- The reports of steps taken one after another. -/
def reports (session : Session) : List Step → List Report
  | [] => []
  | step :: rest =>
    let (next, failure?) := { session with console := session.console.flushed }.step step
    ⟨next.console.out, next.console.err, failure?⟩ :: next.reports rest

end Session

end SelectorLexemes
