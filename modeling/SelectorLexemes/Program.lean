/-
This file runs the program on a command line. Without an interactive session all
selectors are gathered before the first one is shown, so a source that cannot be read
leaves standard output empty. The outcome of a run is its exit code and the two streams
that it wrote.
-/

import SelectorLexemes.CommandLine.Reading
import SelectorLexemes.Surroundings

namespace SelectorLexemes

/-- What a run leaves behind. -/
structure Outcome where
  /-- Zero for success and one for failure. -/
  exitCode : Nat
  /-- What the run wrote to standard output. -/
  out : String
  /-- What the run wrote to standard error. -/
  err : String
deriving DecidableEq

namespace Outcome

/-- The outcome of a run that wrote to the console and then ended, perhaps in failure. -/
def ofConsole (console : Console) : Option Failure → Outcome
  | none => ⟨0, console.out, console.err⟩
  | some failure => ⟨1, console.out, console.err ++ failure.report⟩

end Outcome

/-- The line that tells the version. -/
def versionLine : String := "selcat 0.1.0\n"

/-- The lines that tell the usage. -/
def usageLines : String :=
  "Usage: selcat [OPTIONS] [SELECTOR]...\n\n" ++
    "  -f, --file <FILE>      read selectors from a file, one on each line\n" ++
    "  -i, --interactive      read selectors from standard input and show each at once\n" ++
    "      --format <FORMAT>  json or text\n" ++
    "      --unique           collapse repeated lexemes\n" ++
    "      --only <CATEGORY>  show this category, and others given likewise\n" ++
    "      --color <WHEN>     auto, always or never\n" ++
    "  -q, --quiet            suppress warnings\n" ++
    "  -h, --help             print this text\n" ++
    "  -V, --version          print the version\n"

namespace Options

/-- All selectors of a run that is not interactive: those among the arguments, then those
in the source. -/
def gather (options : Options) (contents : Contents) : Except Failure (List String) :=
  match options.source? with
  | none => .ok options.selectors
  | some source => (source.selectors (contents source)).map (options.selectors ++ ·)

/-- Shows all selectors of a run that is not interactive. -/
def runGathered (options : Options) (terminal : Bool) (contents : Contents) : Outcome :=
  match options.gather contents with
  | .error failure => Outcome.ofConsole {} (some failure)
  | .ok [] => Outcome.ofConsole {} (some .noSelector)
  | .ok selectors =>
    Outcome.ofConsole ((options.settings terminal).displayAll {} selectors) none

/-- Shows the selectors on the lines of standard input, unless it cannot be read. -/
def runInteractive (options : Options) (terminal : Bool) :
    Except ReadFailure Text.Bytes → Outcome
  | .error cause => Outcome.ofConsole {} (some (.unreadableLine cause))
  | .ok input =>
    let (console, failure?) := (options.settings terminal).follow {} input
    Outcome.ofConsole console failure?

/-- Runs the program with these options. -/
def run (options : Options) (terminal : Bool) (contents : Contents) : Outcome :=
  if options.interactive then
    options.runInteractive terminal (contents .standardInput)
  else
    options.runGathered terminal contents

end Options

/-- The outcome of carrying out a request. -/
def Request.outcome (request : Request) (terminal : Bool) (contents : Contents) : Outcome :=
  match request with
  | .run options => options.run terminal contents
  | .help => ⟨0, usageLines, ""⟩
  | .version => ⟨0, versionLine, ""⟩

/-- Runs the program on a command line, unless the command line is refused. -/
def executeWith (arguments : List String) (terminal : Bool) (contents : Contents) :
    Except Refusal Outcome :=
  (Request.ofArguments arguments).map fun request => request.outcome terminal contents

/-- Runs the program on a command line in a working directory. -/
def execute (arguments : List String) (terminal : Bool) (surroundings : Surroundings) :
    Except Refusal Outcome :=
  executeWith arguments terminal surroundings.contents

end SelectorLexemes
