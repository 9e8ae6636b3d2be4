/-
This file proves that it does not matter where selectors come from. A run that is not interactive
does nothing with its source but gather selectors from it, so its outcome depends on the gathered
list and on how the selectors are shown. Selectors that stand on the lines of a text are gathered
like the same selectors among the arguments, whatever blanks there are around them.
-/

import SelectorLexemes.Proofs.CommandLines
import SelectorLexemes.Proofs.Padding
import SelectorLexemes.Proofs.Runs

namespace SelectorLexemes

theorem Options.selected?_of_lists {options : Options} {contents : Contents}
    {path text : String} {listed : List String} (named : options.file = some path)
    (readable : contents.text? (.ofPath path) = some text)
    (lists : SelectorList.Lists listed text.toList)
    (entries : ∀ selector ∈ listed, SelectorList.IsEntry selector) :
    options.selected? contents = some (options.selectors ++ listed) := by
  have read := SelectorList.ofText_of_lists lists entries
  rw [String.ofList_toList] at read
  simp only [selected?, named, readable, Option.map_some, read]

theorem executeWith_of_selected? {arguments : List String} {options : Options}
    {contents : Contents} {selectors : List String}
    (accepted : Request.ofArguments arguments = .ok (.run options))
    (gathered : options.interactive = false)
    (selected : options.selected? contents = some selectors) (terminal : Bool) :
    executeWith arguments terminal contents =
      .ok ((options.settings terminal).outcome selectors) := by
  rw [executeWith_of_accepted accepted, Options.run_of_selected? gathered selected]

/-- Selectors that are listed in a file or in standard input, which the path `-` names, are shown
like the same selectors at the end of the arguments, wherever the command line names the path. -/
theorem execute_origin_irrelevant (settings : List String) (options : Options)
    (set : options.AreSetBy settings) (given listed : List String)
    (entries : ∀ selector ∈ listed, SelectorList.IsEntry selector) (text : String)
    (lists : SelectorList.Lists listed text.toList) (terminal : Bool) :
    (∀ contents, executeWith (settings ++ "--" :: (given ++ listed)) terminal contents =
      .ok ((options.settings terminal).outcome (given ++ listed))) ∧
    ∀ (path : String) (contents : Contents), contents.text? (.ofPath path) = some text →
      (∀ source, Reading.NamesSource path source → path ≠ "" →
        executeWith (settings ++ source ++ "--" :: given) terminal contents =
          .ok ((options.settings terminal).outcome (given ++ listed))) ∧
      ∀ arguments,
        Request.ofArguments arguments =
          .ok (.run { options with selectors := given, file := some path }) →
        executeWith arguments terminal contents =
          .ok ((options.settings terminal).outcome (given ++ listed)) := by
  constructor
  · intro contents
    have accepted := set.ofArguments_selectors (given ++ listed)
    have selected : Options.selected? { options with selectors := given ++ listed } contents =
        some (given ++ listed) := by
      simp only [Options.selected?, set.unsourced]
    exact executeWith_of_selected? accepted set.gathered selected terminal
  · intro path contents readable
    have sourced : ∀ arguments, Request.ofArguments arguments =
          .ok (.run { options with selectors := given, file := some path }) →
        executeWith arguments terminal contents =
          .ok ((options.settings terminal).outcome (given ++ listed)) := by
      intro arguments accepted
      have selected : Options.selected? { options with selectors := given, file := some path }
          contents = some (given ++ listed) :=
        Options.selected?_of_lists rfl readable lists entries
      exact executeWith_of_selected? accepted set.gathered selected terminal
    exact ⟨fun source names solid => sourced _ (set.ofArguments_source names solid given), sourced⟩

/-- Two selectors on indented lines, with a blank line between them and no line break at the end,
are shown alike from the arguments, from a file and from standard input. -/
theorem execute_origin_irrelevant_padded :
    Options.AreSetBy { format := .text, quiet := true } ["--format", "text", "-q"] ∧
      (∀ selector ∈ ["b c", "#d"], SelectorList.IsEntry selector) ∧
      SelectorList.Lists ["b c", "#d"] "\t\n  b c\t\r\n\u00a0\r\n #d".toList ∧
      executeWith ["--format", "text", "-q", "--", "a", "b c", "#d"] true
          (fun _ => .error .notFound) =
        executeWith ["--format", "text", "-q", "--file", "list", "--", "a"] true
          (Contents.ofSource (.file "list") "\t\n  b c\t\r\n\u00a0\r\n #d") ∧
      executeWith ["--format", "text", "-q", "--", "a", "b c", "#d"] true
          (fun _ => .error .notFound) =
        executeWith ["--format", "text", "-q", "-f-", "--", "a"] true
          (Contents.ofSource .standardInput "\t\n  b c\t\r\n\u00a0\r\n #d") := by
  have set : Options.AreSetBy { format := .text, quiet := true } ["--format", "text", "-q"] :=
    ⟨rfl, by decide, rfl, rfl, rfl⟩
  have entries : ∀ selector ∈ ["b c", "#d"], SelectorList.IsEntry selector := by
    intro selector member
    rcases List.mem_pair.mp member with rfl | rfl <;> exact ⟨by decide, rfl, by decide⟩
  have lists : SelectorList.Lists ["b c", "#d"] "\t\n  b c\t\r\n\u00a0\r\n #d".toList :=
    .line (by decide : Text.AllBlank "\t\n  ".toList) (by decide : Text.AllBlank "\t\r".toList)
      (.last (by decide : Text.AllBlank "\u00a0\r\n ".toList) (by decide : Text.AllBlank []))
  obtain ⟨fromArguments, fromSource⟩ := execute_origin_irrelevant ["--format", "text", "-q"] _ set
    ["a"] ["b c", "#d"] entries _ lists true
  obtain ⟨fromFile, _⟩ := fromSource "list"
    (Contents.ofSource (.file "list") "\t\n  b c\t\r\n\u00a0\r\n #d") (Contents.text?_ofSource _ _)
  obtain ⟨fromInput, _⟩ := fromSource "-"
    (Contents.ofSource .standardInput "\t\n  b c\t\r\n\u00a0\r\n #d") (Contents.text?_ofSource _ _)
  refine ⟨set, entries, lists, ?_, ?_⟩
  · exact (fromArguments _).trans (fromFile _ (.long (.inr (by decide))) (by decide)).symm
  · exact (fromArguments _).trans (fromInput _ (.letterJoined (by decide)) (by decide)).symm

end SelectorLexemes
