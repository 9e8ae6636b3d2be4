/-
This file is the command line program. It reads what a request needs, hands it to the
library and writes the outcome; in an interactive session it does so line by line, so
that every selector is shown as soon as its line is complete.
-/

import SelectorLexemes.Program

namespace SelectorLexemes.Main

/-! ### Reading -/

/-- The rest of a stream. -/
partial def readRest (input : IO.FS.Stream) (read : ByteArray) : IO ByteArray := do
  let chunk ← input.read 65536
  if chunk.isEmpty then
    return read
  readRest input (read ++ chunk)

/-- The next line of a stream without the byte that ends it, or nothing at the end. -/
partial def readLine? (input : IO.FS.Stream) (read : ByteArray) : IO (Option ByteArray) := do
  let chunk ← input.read 1
  if chunk.isEmpty then
    return if read.isEmpty then none else some read
  if chunk.data == #[Text.newlineByte] then
    return some read
  readLine? input (read ++ chunk)

/-- The reason behind an error of the system. -/
def readFailure : IO.Error → ReadFailure
  | .noFileOrDirectory _ _ _ => .notFound
  | .inappropriateType _ 20 _ => .notDirectory
  | .inappropriateType _ 21 _ => .isDirectory
  | error => .other (toString error)

/-- What reading a source gives. -/
def readSource (source : Source) : IO (Except ReadFailure Text.Bytes) := do
  try
    match source with
    | .standardInput => return .ok (← readRest (← IO.getStdin) .empty).data.toList
    | .file path => return .ok (← IO.FS.readBinFile path).data.toList
  catch error =>
    return .error (readFailure error)

/-! ### Writing -/

/-- Writes to both streams. -/
def write (out err : String) : IO Unit := do
  IO.eprint err
  IO.print out
  (← IO.getStdout).flush

/-- Writes an outcome and gives its exit code. -/
def finish (outcome : Outcome) : IO UInt32 := do
  write outcome.out outcome.err
  return UInt32.ofNat outcome.exitCode

/-! ### Running -/

/-- Shows the selectors on the lines of standard input while they come in. -/
partial def follow (settings : Settings) (console : Console) : IO UInt32 := do
  match ← (readLine? (← IO.getStdin) .empty).toBaseIO with
  | .error error =>
    finish (Outcome.ofConsole {} (some (.unreadableLine (readFailure error))))
  | .ok none => return 0
  | .ok (some line) =>
    match settings.followLine? console.flushed line.data.toList with
    | none => finish (Outcome.ofConsole {} (some (.unreadableLine .invalidUtf8)))
    | some next =>
      write next.out next.err
      follow settings next

/-- Carries out a request. -/
def perform (request : Request) : IO UInt32 := do
  let terminal ← (← IO.getStdout).isTty
  match request with
  | .run options =>
    if options.interactive then
      follow (options.settings terminal) {}
    else
      let content ← (options.source?.map readSource).getD (return .ok [])
      finish (options.runGathered terminal fun _ => content)
  | .help | .version => finish (request.outcome terminal fun _ => .ok [])

end SelectorLexemes.Main

/-- Runs the program; a command line that is refused gives the exit code two. -/
def main (arguments : List String) : IO UInt32 := do
  match SelectorLexemes.Request.ofArguments arguments with
  | .ok request => SelectorLexemes.Main.perform request
  | .error refusal =>
    IO.eprintln ("error: " ++ refusal.report)
    return 2
