/-
This file reads command lines, one argument at a time. A value may follow its field as
an argument of its own; such a value is kept back and judged only when the next switch
or selector is taken up, so that an argument which is no switch at all is refused first.
A value written into the same argument as its field is judged at once. Whatever starts
with a hyphen is never a value, except for a lone hyphen. After two hyphens every
argument is a selector.
-/

import SelectorLexemes.CommandLine

namespace SelectorLexemes

/-- Why the reading of a command line stops before its end. -/
inductive Interruption where
  /-- The command line is refused. -/
  | refused (refusal : Refusal)
  /-- The usage is asked for, and what follows does not matter. -/
  | help
  /-- The version is asked for, and what follows does not matter. -/
  | version

/-- A command line that is read up to some argument. -/
structure Reading where
  /-- What has been asked for so far. -/
  options : Options := {}
  /-- The switches that may not be given again. -/
  given : List Switch := []
  /-- The field taken up last, with its value once that has come. -/
  awaiting : Option (Field × Option String) := none

namespace Reading

/-! ### Fields -/

/-- Gives a field its value. -/
def assign (reading : Reading) (field : Field) (value : String) :
    Except Interruption Reading :=
  if .field field ∈ reading.given then
    .error (.refused (.repeated (.field field)))
  else
    match field with
    | .file =>
      if value = "" then
        .error (.refused (.invalidValue .file value))
      else
        .ok { reading with
          options := { reading.options with file := some value }
          given := .field .file :: reading.given }
    | .format =>
      match Format.ofName? value with
      | none => .error (.refused (.invalidValue .format value))
      | some format =>
        .ok { reading with
          options := { reading.options with format := format }
          given := .field .format :: reading.given }
    | .only =>
      match Category.ofName? value with
      | none => .error (.refused (.unknownCategory value))
      | some category =>
        .ok { reading with
          options := { reading.options with only := reading.options.only ++ [category] } }
    | .color =>
      match ColorChoice.ofName? value with
      | none => .error (.refused (.invalidValue .color value))
      | some choice =>
        .ok { reading with
          options := { reading.options with color := choice }
          given := .field .color :: reading.given }

/-- Judges the value that was kept back, if there is one. -/
def settle (reading : Reading) : Except Interruption Reading :=
  match reading.awaiting with
  | none => .ok reading
  | some (field, none) => .error (.refused (.missingValue field))
  | some (field, some value) => { reading with awaiting := none }.assign field value

/-- Takes up a field whose value stands in the same argument. -/
def takeField (reading : Reading) (field : Field) (value : String) :
    Except Interruption Reading := do
  (← reading.settle).assign field value

/-- Takes up a field whose value is still to come. -/
def awaitValue (reading : Reading) (field : Field) : Except Interruption Reading := do
  return { (← reading.settle) with awaiting := some (field, none) }

/-! ### Flags -/

/-- Raises a flag. -/
def raise (reading : Reading) (flag : Flag) : Except Interruption Reading :=
  let repeated := Interruption.refused (.repeated (.flag flag))
  let given := .flag flag :: reading.given
  if .flag flag ∈ reading.given then
    .error repeated
  else
    match flag with
    | .interactive =>
      .ok { reading with options := { reading.options with interactive := true }, given := given }
    | .unique =>
      .ok { reading with options := { reading.options with unique := true }, given := given }
    | .quiet =>
      .ok { reading with options := { reading.options with quiet := true }, given := given }
    | .help => .error .help
    | .version => .error .version

/-- Takes up a flag. -/
def takeFlag (reading : Reading) (flag : Flag) : Except Interruption Reading := do
  (← reading.settle).raise flag

/-! ### Arguments -/

/-- Takes up what follows two hyphens: a long name, and behind the first equals sign a
value. -/
def takeLong (reading : Reading) (body : List Char) : Except Interruption Reading :=
  let name := String.ofList (body.takeWhile (· != '='))
  match Switch.ofName? name, body.dropWhile (· != '=') with
  | none, _ => .error (.refused (.unknownSwitch name))
  | some (.flag flag), [] => reading.takeFlag flag
  | some (.flag flag), _ :: value =>
    .error (.refused (.unexpectedValue flag (String.ofList value)))
  | some (.field field), [] => reading.awaitValue field
  | some (.field field), _ :: value => reading.takeField field (String.ofList value)

/-- Takes up what follows a single hyphen: the letters of flags, of which the last may
be the letter of a field. The rest of the argument is then the value, without the equals
sign that may stand before it. -/
def takeLetters (reading : Reading) : List Char → Except Interruption Reading
  | [] => .ok reading
  | letter :: rest =>
    match Switch.ofLetter? letter with
    | none => .error (.refused (.unknownSwitch (String.ofList [letter])))
    | some (.flag flag) => do (← reading.takeFlag flag).takeLetters rest
    | some (.field field) =>
      match rest with
      | [] => reading.awaitValue field
      | '=' :: value => reading.takeField field (String.ofList value)
      | value => reading.takeField field (String.ofList value)

/-- Takes up selectors, after the value that was kept back. -/
def takeSelectors (reading : Reading) (selectors : List String) :
    Except Interruption Reading := do
  let settled ← reading.settle
  return { settled with
    options := { settled.options with selectors := settled.options.selectors ++ selectors } }

/-- Takes up an argument that is no switch: the value that a field waits for, or else a
selector. -/
def takePlain (reading : Reading) (argument : String) : Except Interruption Reading :=
  match reading.awaiting with
  | some (field, none) => .ok { reading with awaiting := some (field, some argument) }
  | _ => reading.takeSelectors [argument]

/-- Takes up an argument other than two hyphens alone. -/
def take (reading : Reading) (argument : String) : Except Interruption Reading :=
  match argument.toList with
  | '-' :: '-' :: body => reading.takeLong body
  | '-' :: letter :: rest => reading.takeLetters (letter :: rest)
  | _ => reading.takePlain argument

/-- Takes up all arguments. -/
def takeAll (reading : Reading) : List String → Except Interruption Reading
  | [] => reading.settle
  | argument :: rest =>
    if argument = "--" then
      reading.takeSelectors rest
    else do
      (← reading.take argument).takeAll rest

/-- An interactive session excludes every other way to name selectors. -/
def conflicts (options : Options) : Bool :=
  options.interactive && (!options.selectors.isEmpty || options.file.isSome)

end Reading

/-- What a command line asks for, or why it is refused. -/
def Request.ofArguments (arguments : List String) : Except Refusal Request :=
  match Reading.takeAll {} arguments with
  | .error (.refused refusal) => .error refusal
  | .error .help => .ok .help
  | .error .version => .ok .version
  | .ok reading =>
    if Reading.conflicts reading.options then .error .conflict else .ok (.run reading.options)

end SelectorLexemes
