/-
This file proves that a run which is not interactive shows either all of its selectors or
none. The selectors come from the arguments and from the lines of the source, and they are
all known before the first is shown: a source without text, or a run without selectors, ends
in a failure that leaves standard output empty and warns about nothing.

Otherwise standard output is the renderings of the selectors one after another, and standard
error is one warning for each of them without lexemes, in the order in which they come first.
Nothing is assumed about the source: reading it may give any bytes and may fail for any reason.
-/

import SelectorLexemes.Program
import SelectorLexemes.Proofs.CommandOptions
import SelectorLexemes.Proofs.Displays
import SelectorLexemes.Proofs.Inventories
import SelectorLexemes.Proofs.Segmentation

namespace SelectorLexemes

/-! ### The selectors of a run -/

/-- The text of a source, if it can be read and is text. -/
def Contents.text? (contents : Contents) (source : Source) : Option String :=
  match contents source with
  | .error _ => none
  | .ok bytes => Text.decode? bytes

/-- One source holds a text, and nothing else can be read. -/
def Contents.ofSource (source : Source) (text : String) : Contents := fun other =>
  if other = source then .ok (Text.encode text) else .error .notFound

theorem Contents.text?_ofSource (source : Source) (text : String) :
    (ofSource source text).text? source = some text := by
  rw [text?, ofSource, if_pos rfl]
  exact Text.decode?_encode text

theorem Source.selectors_of_text? {source : Source} {contents : Contents} {text : String}
    (readable : contents.text? source = some text) :
    source.selectors (contents source) = .ok (SelectorList.ofText text) := by
  unfold Contents.text? at readable
  cases content : contents source with
  | error cause => simp only [content, reduceCtorEq] at readable
  | ok bytes =>
    simp only [content] at readable
    simp only [selectors, readable]

theorem Source.selectors_of_text?_eq_none {source : Source} {contents : Contents}
    (unreadable : contents.text? source = none) :
    ∃ cause, source.selectors (contents source) = .error (.unreadableSource source cause) := by
  unfold Contents.text? at unreadable
  cases content : contents source with
  | error cause => exact ⟨cause, rfl⟩
  | ok bytes =>
    simp only [content] at unreadable
    exact ⟨.invalidUtf8, by simp only [selectors, unreadable]⟩

namespace Options

/-- The selectors of a run that is not interactive: those among the arguments, then those
on the lines of the source, unless there is a source and it has no text. -/
def selected? (options : Options) (contents : Contents) : Option (List String) :=
  match options.file with
  | none => some options.selectors
  | some path =>
    (contents.text? (.ofPath path)).map fun text => options.selectors ++ SelectorList.ofText text

variable {options : Options} {contents : Contents}

theorem gather_of_selected? {selectors : List String}
    (selected : options.selected? contents = some selectors) :
    options.gather contents = .ok selectors := by
  unfold selected? at selected
  cases named : options.file with
  | none =>
    simp only [named, Option.some.injEq] at selected
    simp only [gather, source?, named, Option.map_none, selected]
  | some path =>
    simp only [named] at selected
    obtain ⟨text, readable, rfl⟩ := Option.map_eq_some_iff.mp selected
    simp only [gather, source?, named, Option.map_some, Source.selectors_of_text? readable]
    rfl

theorem gather_of_selected?_eq_none (unselected : options.selected? contents = none) :
    ∃ path cause, options.file = some path ∧
      options.gather contents = .error (.unreadableSource (.ofPath path) cause) := by
  unfold selected? at unselected
  cases named : options.file with
  | none => simp only [named, reduceCtorEq] at unselected
  | some path =>
    simp only [named] at unselected
    have unreadable := Option.map_eq_none_iff.mp unselected
    obtain ⟨cause, failed⟩ := Source.selectors_of_text?_eq_none unreadable
    refine ⟨path, cause, rfl, ?_⟩
    simp only [gather, source?, named, Option.map_some, failed]
    rfl

end Options

/-! ### Reports -/

theorem Failure.report_unreadableSource (path : String) (cause : ReadFailure) :
    (unreadableSource (.ofPath path) cause).report =
      (if isDash path then "Error: failed to read selectors from stdin"
        else "Error: failed to read selectors from '" ++ path ++ "'") ++
          "\n\nCaused by:\n    " ++ cause.message ++ "\n" := by
  have front : "Error: " ++ (unreadableSource (.ofPath path) cause).headline =
      if isDash path then "Error: failed to read selectors from stdin"
        else "Error: failed to read selectors from '" ++ path ++ "'" := by
    by_cases dash : isDash path = true
    · rw [Source.ofPath, if_pos dash, if_pos dash]
      exact (by decide : "Error: " ++ "failed to read selectors from stdin" =
        "Error: failed to read selectors from stdin")
    · have words : "Error: " ++ "failed to read selectors from '" =
          "Error: failed to read selectors from '" := by decide
      rw [Source.ofPath, if_neg dash, if_neg dash]
      calc "Error: " ++ ("failed to read selectors from '" ++ path ++ "'")
        _ = "Error: " ++ "failed to read selectors from '" ++ path ++ "'" := by
          simp only [String.append_assoc]
        _ = "Error: failed to read selectors from '" ++ path ++ "'" :=
          congrArg (· ++ path ++ "'") words
  exact congrArg (· ++ "\n\nCaused by:\n    " ++ cause.message ++ "\n") front

theorem Failure.report_noSelector :
    noSelector.report =
      "Error: no selector given\n\nUsage: selcat <SELECTOR>...\n" ++
        "       selcat --file <FILE>\n       selcat --interactive\n" := by
  decide

/-! ### Outcomes -/

namespace Settings

variable (settings : Settings)

/-- The outcome of a run that gathers these selectors before it shows them. -/
def outcome (selectors : List String) : Outcome :=
  if selectors = [] then Outcome.ofConsole {} (some .noSelector)
  else Outcome.ofConsole (settings.displayAll {} selectors) none

theorem dueIn_fresh (selectors : List String) :
    settings.dueIn {} selectors =
      if settings.quiet then []
      else (selectors.filter fun selector =>
        (Inventory.ofSelector settings.duplicates selector).isEmpty).eraseDups := by
  have warns : ∀ selector, decide (settings.WarnsNow {} selector) =
      (!settings.quiet && (Inventory.ofSelector settings.duplicates selector).isEmpty) := by
    intro selector
    simp [WarnsNow, warnsAbout]
  unfold dueIn
  simp only [warns]
  cases settings.quiet <;> simp

theorem outcome_of_ne_nil {selectors : List String} (nonempty : selectors ≠ []) :
    settings.outcome selectors = Outcome.ofConsole (settings.displayAll {} selectors) none :=
  if_neg nonempty

theorem out_outcome (selectors : List String) :
    (settings.outcome selectors).out = String.join (selectors.map settings.rendering) := by
  by_cases empty : selectors = []
  · rw [empty]
    rfl
  · rw [settings.outcome_of_ne_nil empty]
    exact (settings.out_displayAll {} selectors).trans String.empty_append

theorem err_outcome {selectors : List String} (nonempty : selectors ≠ []) :
    (settings.outcome selectors).err =
      if settings.quiet then ""
      else String.join ((selectors.filter fun selector =>
        (Inventory.ofSelector settings.duplicates selector).isEmpty).eraseDups.map
          Warning.lineAbout) := by
  have written := (settings.err_displayAll {} selectors).trans String.empty_append
  rw [dueIn_fresh] at written
  simp only [Warning.line_noLexemes] at written
  rw [settings.outcome_of_ne_nil nonempty]
  refine Eq.trans written ?_
  cases settings.quiet <;> rfl

end Settings

/-! ### Runs that are not interactive -/

theorem Options.run_of_selected? {options : Options} {contents : Contents}
    {selectors : List String} (gathered : options.interactive = false)
    (selected : options.selected? contents = some selectors) (terminal : Bool) :
    options.run terminal contents = (options.settings terminal).outcome selectors := by
  rw [run, if_neg (Bool.eq_false_iff.mp gathered), runGathered, gather_of_selected? selected]
  cases selectors <;> rfl

theorem Options.run_of_selected?_eq_none {options : Options} {contents : Contents}
    (gathered : options.interactive = false) (unselected : options.selected? contents = none)
    (terminal : Bool) :
    ∃ path cause, options.file = some path ∧
      options.run terminal contents =
        ⟨1, "", (Failure.unreadableSource (.ofPath path) cause).report⟩ := by
  obtain ⟨path, cause, named, failed⟩ := gather_of_selected?_eq_none unselected
  refine ⟨path, cause, named, ?_⟩
  rw [run, if_neg (Bool.eq_false_iff.mp gathered), runGathered, failed]
  rfl

theorem executeWith_of_accepted {arguments : List String} {options : Options}
    (accepted : Request.ofArguments arguments = .ok (.run options)) (terminal : Bool)
    (contents : Contents) :
    executeWith arguments terminal contents = .ok (options.run terminal contents) := by
  rw [executeWith, accepted]
  rfl

/-- A run that is not interactive fails before anything is shown, or shows all of its selectors
in order and warns once about each of them that has no lexemes. Repeated lexemes are collapsed and
warnings are switched off by the flags among the items of the command line. -/
theorem execute_all_or_nothing (arguments : List String) (options : Options) (terminal : Bool)
    (contents : Contents)
    (accepted : Request.ofArguments arguments = .ok (.run options))
    (gathered : options.interactive = false) :
    (∃ items, Item.Spells arguments items) ∧
    ∀ items, Item.Spells arguments items →
      options = .ofItems items ∧
      ∃ outcome, executeWith arguments terminal contents = .ok outcome ∧
        match options.selected? contents with
        | none =>
          ∃ (path : String) (cause : ReadFailure), options.file = some path ∧
            outcome = ⟨1, "",
              (if isDash path then "Error: failed to read selectors from stdin"
                else "Error: failed to read selectors from '" ++ path ++ "'") ++
                  "\n\nCaused by:\n    " ++ cause.message ++ "\n"⟩
        | some [] =>
          outcome = ⟨1, "", "Error: no selector given\n\nUsage: selcat <SELECTOR>...\n" ++
            "       selcat --file <FILE>\n       selcat --interactive\n"⟩
        | some selectors =>
          outcome.exitCode = 0 ∧
          outcome.out = String.join (selectors.map fun selector =>
            (options.settings terminal).presentation.render selector
              (Inventory.ofSelector (if .flag .unique ∈ items then .collapse else .keep)
                selector) ++ "\n") ∧
          outcome.err =
            if .flag .quiet ∈ items then ""
            else String.join ((selectors.filter fun selector =>
              (Inventory.ofSelector (if .flag .unique ∈ items then .collapse else .keep)
                selector).isEmpty).eraseDups.map Warning.lineAbout) := by
  refine ⟨Request.exists_spells accepted, fun items spells => ?_⟩
  obtain ⟨_, stands⟩ := (Request.ofArguments_eq_run_iff spells).mp accepted
  refine ⟨stands.symm, _, executeWith_of_accepted accepted terminal contents, ?_⟩
  cases selected : options.selected? contents with
  | none =>
    obtain ⟨path, cause, named, failed⟩ :=
      Options.run_of_selected?_eq_none gathered selected terminal
    rw [Failure.report_unreadableSource] at failed
    exact ⟨path, cause, named, failed⟩
  | some selectors =>
    rw [Options.run_of_selected? gathered selected]
    cases selectors with
    | nil => exact congrArg (Outcome.mk 1 "") Failure.report_noSelector
    | cons first rest =>
      have nonempty : first :: rest ≠ [] := List.cons_ne_nil first rest
      have duplicates : (options.settings terminal).duplicates =
          if .flag .unique ∈ items then .collapse else .keep := by
        simp [← stands, Options.settings, Options.ofItems]
      have quiet : ((options.settings terminal).quiet = true) = (.flag .quiet ∈ items) := by
        simp [← stands, Options.settings, Options.ofItems]
      have err := (options.settings terminal).err_outcome nonempty
      simp only [quiet] at err
      rw [← duplicates]
      refine ⟨?_, (options.settings terminal).out_outcome _, err⟩
      rw [(options.settings terminal).outcome_of_ne_nil nonempty]
      rfl

/-- A selector that is given twice, once among the arguments and once in a file, is shown twice and
warned about once. With the flags for it repeated lexemes are shown once, and there is no warning
at all. -/
theorem execute_all_or_nothing_twice :
    (Request.ofArguments ["--format", "text", "-f", "list", "> >"] =
        .ok (.run { selectors := ["> >"], file := some "list", format := .text }) ∧
      ∃ outcome, executeWith ["--format", "text", "-f", "list", "> >"] false
          (Contents.ofSource (.file "list") "a a\n\n > > \r\n") = .ok outcome ∧
        outcome.exitCode = 0 ∧
        outcome.out =
          "> >\n  (no lexemes)\n" ++ "a a\n  elements\n    a\n    a\n" ++
            "> >\n  (no lexemes)\n" ∧
        outcome.err = "\x1b[33m[selcat Selector] ⚠ no lexemes found in `> >`\x1b[39m\n") ∧
    (Request.ofArguments ["--format=text", "--unique", "-qflist", "> >"] =
        .ok (.run
          { selectors := ["> >"], file := some "list", format := .text, unique := true
            quiet := true }) ∧
      ∃ outcome, executeWith ["--format=text", "--unique", "-qflist", "> >"] false
          (Contents.ofSource (.file "list") "a a\n\n > > \r\n") = .ok outcome ∧
        outcome.exitCode = 0 ∧
        outcome.out =
          "> >\n  (no lexemes)\n" ++ "a a\n  elements\n    a\n" ++
            "> >\n  (no lexemes)\n" ∧
        outcome.err = "") := by
  have noFlags : Item.AreLettersOf [] [] := rfl
  have quiet : Item.AreLettersOf ['q'] [.quiet] := rfl
  have loud : Item.Spells ["--format", "text", "-f", "list", "> >"]
      [.field .format "text", .field .file "list", .selector "> >"] :=
    .group (.field .format (by decide))
      (.group (.letters noFlags (.apart rfl (by decide)) (by decide) rfl)
        (.group (.selector (by decide)) .done))
  have silent : Item.Spells ["--format=text", "--unique", "-qflist", "> >"]
      [.field .format "text", .flag .unique, .flag .quiet, .field .file "list",
        .selector "> >"] :=
    .group (.fieldEquals .format "text")
      (.group (.flag .unique)
        (.group (.letters quiet (.joined "list" rfl (by decide) (by decide)) (by decide) rfl)
          (.group (.selector (by decide)) .done)))
  have separators : scan "> >" = [] :=
    scan_of_isCutOf [.separator '>', .separator ' ', .separator '>'] _ (by decide)
  have elements : scan "a a" = [⟨.elements, .text "a"⟩, ⟨.elements, .text "a"⟩] :=
    scan_of_isCutOf [.element ['a'], .separator ' ', .element ['a']] _ (by decide)
  have selected : ∀ options : Options, options.selectors = ["> >"] → options.file = some "list" →
      options.selected? (Contents.ofSource (.file "list") "a a\n\n > > \r\n") =
        some ["> >", "a a", "> >"] := by
    intro options given named
    simp only [Options.selected?, given, named]
    exact congrArg (Option.map fun text => ["> >"] ++ SelectorList.ofText text)
      (Contents.text?_ofSource (.file "list") "a a\n\n > > \r\n")
  have due : (["> >", "a a", "> >"].filter fun selector =>
      (Inventory.ofSelector .keep selector).isEmpty).eraseDups = ["> >"] := by
    simp [Inventory.isEmpty_ofSelector, separators, elements, List.eraseDups_cons]
  constructor
  · obtain ⟨_, spelled⟩ := execute_all_or_nothing ["--format", "text", "-f", "list", "> >"]
      { selectors := ["> >"], file := some "list", format := .text } false
      (Contents.ofSource (.file "list") "a a\n\n > > \r\n") rfl rfl
    obtain ⟨_, outcome, executed, shown⟩ := spelled _ loud
    rw [selected _ rfl rfl] at shown
    obtain ⟨exitCode, out, err⟩ := shown
    refine ⟨rfl, outcome, executed, exitCode, out.trans ?_, err.trans ?_⟩
    · simp only [List.map_cons, List.map_nil, Inventory.ofSelector, separators, elements]
      decide
    · exact congrArg (fun selectors => String.join (selectors.map Warning.lineAbout)) due
  · obtain ⟨_, spelled⟩ := execute_all_or_nothing
      ["--format=text", "--unique", "-qflist", "> >"]
      { selectors := ["> >"], file := some "list", format := .text, unique := true, quiet := true }
      false (Contents.ofSource (.file "list") "a a\n\n > > \r\n") rfl rfl
    obtain ⟨_, outcome, executed, shown⟩ := spelled _ silent
    rw [selected _ rfl rfl] at shown
    obtain ⟨exitCode, out, err⟩ := shown
    have collapsed : Inventory.ofSelector .collapse "a a" = { elements := #[.text "a"] } := by
      simp [Inventory.ofSelector, elements, Inventory.ofTokens, Inventory.add, Inventory.bucket,
        Inventory.push, Inventory.empty]
    have nothing : Inventory.ofSelector .collapse "> >" = {} := by
      rw [Inventory.ofSelector, separators]
      rfl
    have flag : .flag .unique ∈ [Item.field .format "text", .flag .unique, .flag .quiet,
        .field .file "list", .selector "> >"] := by
      decide
    refine ⟨rfl, outcome, executed, exitCode, out.trans ?_, err⟩
    simp only [List.map_cons, List.map_nil, if_pos flag, collapsed, nothing]
    decide

end SelectorLexemes
