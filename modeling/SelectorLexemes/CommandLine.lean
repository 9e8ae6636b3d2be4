/-
This file holds what a command line can ask for. Flags stand alone and fields take a
value; both have a long name, and some have a letter as well. Every flag and field may
be given once, except for the restriction to categories, which adds up.
-/

import SelectorLexemes.Settings
import SelectorLexemes.Text.Printable

namespace SelectorLexemes

/-- When listings are coloured. -/
inductive ColorChoice where
  /-- On a terminal. -/
  | automatic
  /-- Always. -/
  | always
  /-- Never. -/
  | never
deriving DecidableEq

/-- The colours are wanted, on a terminal or elsewhere. -/
def ColorChoice.colors (choice : ColorChoice) (terminal : Bool) : Bool :=
  match choice with
  | .automatic => terminal
  | .always => true
  | .never => false

/-- The choice that a value names, in this spelling only. -/
def ColorChoice.ofName? : String → Option ColorChoice
  | "auto" => some .automatic
  | "always" => some .always
  | "never" => some .never
  | _ => none

/-- The format that a value names, in this spelling only. -/
def Format.ofName? : String → Option Format
  | "json" => some .json
  | "text" => some .text
  | _ => none

/-- What a run of the program is told. -/
structure Options where
  /-- The selectors among the arguments. -/
  selectors : List String := []
  /-- The path to read more selectors from. -/
  file : Option String := none
  /-- Whether selectors are read from standard input line by line. -/
  interactive : Bool := false
  /-- What inventories are written as. -/
  format : Format := .json
  /-- Whether repeated lexemes are collapsed. -/
  unique : Bool := false
  /-- The categories to show, or none for all of them. -/
  only : List Category := []
  /-- When listings are coloured. -/
  color : ColorChoice := .automatic
  /-- Whether warnings are switched off. -/
  quiet : Bool := false

namespace Options

/-- The settings that the options stand for. -/
def settings (options : Options) (terminal : Bool) : Settings where
  duplicates := if options.unique then .collapse else .keep
  presentation :=
    { format := options.format
      only := options.only
      colored := options.color.colors terminal }
  quiet := options.quiet

/-- The source that the options name, if they name one. -/
def source? (options : Options) : Option Source :=
  options.file.map Source.ofPath

end Options

/-! ### Flags and fields -/

/-- An option without a value. -/
inductive Flag where
  /-- Selectors are read from standard input line by line. -/
  | interactive
  /-- Repeated lexemes are collapsed. -/
  | unique
  /-- Warnings are switched off. -/
  | quiet
  /-- The usage is printed. -/
  | help
  /-- The version is printed. -/
  | version
deriving DecidableEq

/-- An option with a value. -/
inductive Field where
  /-- The path to read selectors from. -/
  | file
  /-- What inventories are written as. -/
  | format
  /-- A category to show. -/
  | only
  /-- When listings are coloured. -/
  | color
deriving DecidableEq

/-- A flag or a field. -/
inductive Switch where
  /-- A flag. -/
  | flag (flag : Flag)
  /-- A field. -/
  | field (field : Field)
deriving DecidableEq

/-- The switch with this long name. Names are not abbreviated. -/
def Switch.ofName? : String → Option Switch
  | "file" => some (.field .file)
  | "interactive" => some (.flag .interactive)
  | "format" => some (.field .format)
  | "unique" => some (.flag .unique)
  | "only" => some (.field .only)
  | "color" => some (.field .color)
  | "quiet" => some (.flag .quiet)
  | "help" => some (.flag .help)
  | "version" => some (.flag .version)
  | _ => none

/-- The switch with this letter. -/
def Switch.ofLetter? : Char → Option Switch
  | 'f' => some (.field .file)
  | 'i' => some (.flag .interactive)
  | 'q' => some (.flag .quiet)
  | 'h' => some (.flag .help)
  | 'V' => some (.flag .version)
  | _ => none

/-! ### Requests and refusals -/

/-- What an accepted command line asks for. -/
inductive Request where
  /-- Selectors are shown. -/
  | run (options : Options)
  /-- The usage is printed. -/
  | help
  /-- The version is printed. -/
  | version

/-- Why a command line is refused. -/
inductive Refusal where
  /-- No switch has the name or letter. -/
  | unknownSwitch (name : String)
  /-- A flag was given a value. -/
  | unexpectedValue (flag : Flag) (value : String)
  /-- A field was given no value. -/
  | missingValue (field : Field)
  /-- A switch was given twice. -/
  | repeated (switch : Switch)
  /-- A value is none that the field takes. -/
  | invalidValue (field : Field) (value : String)
  /-- A category to show does not exist. -/
  | unknownCategory (name : String)
  /-- An interactive session was asked for together with other selectors. -/
  | conflict
deriving DecidableEq

/-- The long name of a flag. -/
def Flag.name : Flag → String
  | .interactive => "--interactive"
  | .unique => "--unique"
  | .quiet => "--quiet"
  | .help => "--help"
  | .version => "--version"

/-- The long name of a field. -/
def Field.name : Field → String
  | .file => "--file"
  | .format => "--format"
  | .only => "--only"
  | .color => "--color"

/-- The long name of a switch. -/
def Switch.name : Switch → String
  | .flag plain => plain.name
  | .field valued => valued.name

/-- The refusal of a category that does not exist, in words. -/
def unknownCategoryMessage (name : String) : String :=
  "unknown category '" ++ name ++ "' (expected one of: " ++
    ", ".intercalate (Category.all.map Category.name) ++ ")"

/-- A refusal in words. -/
def Refusal.message : Refusal → String
  | .unknownSwitch name => "no option is called '" ++ name ++ "'"
  | .unexpectedValue flag value => flag.name ++ " takes no value, but '" ++ value ++ "' was given"
  | .missingValue field => field.name ++ " needs a value"
  | .repeated switch => switch.name ++ " was given twice"
  | .invalidValue field value => field.name ++ " does not take '" ++ value ++ "'"
  | .unknownCategory name => unknownCategoryMessage name
  | .conflict => "--interactive excludes selectors and --file"

/-- A refusal as it is printed. The words repeat parts of the command line, and nothing
in those may reach a terminal as a control sequence. -/
def Refusal.report (refusal : Refusal) : String :=
  Text.printable refusal.message

end SelectorLexemes
