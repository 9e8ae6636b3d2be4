/-
This file proves that an interactive session and a file show the same selectors. The session cuts
its raw input into lines and decodes each of them; the file is decoded as a whole and its text is
cut into lines. Both come to the same lines, because the byte that ends a line is part of no other
character, and a line that is trimmed does not show where it came from.

What is left are the lines of blanks: the session shows the empty selector for each of them and
the file skips them. Without such lines the two runs write the same to standard output. This holds
for the empty text as well, where the run over the file fails and still writes nothing there.
-/

import SelectorLexemes.Proofs.Interactions
import SelectorLexemes.Proofs.Origins
import SelectorLexemes.Proofs.Warnings

namespace SelectorLexemes

namespace Text

/-! ### Lines of raw input -/

/-- A byte below 128 is a character of its own: the encodings of characters that take several
bytes have none. -/
theorem toNat_of_mem_utf8EncodeChar {mark : Char} {byte : UInt8}
    (member : byte ∈ String.utf8EncodeChar mark) (ascii : byte.toNat < 128) :
    mark.toNat = byte.toNat := by
  rw [String.utf8EncodeChar.eq_def] at member
  dsimp only at member
  split_ifs at member with one two three
  all_goals simp only [List.mem_cons, List.not_mem_nil, or_false] at member
  · rw [member, UInt8.toNat_ofNat', Nat.mod_eq_of_lt (Nat.lt_of_le_of_lt one (by decide))]
    rfl
  · rcases member with rfl | rfl
    all_goals
      rw [UInt8.toNat_ofNat'] at ascii
      omega
  · rcases member with rfl | rfl | rfl
    all_goals
      rw [UInt8.toNat_ofNat'] at ascii
      omega
  · rcases member with rfl | rfl | rfl | rfl
    all_goals
      rw [UInt8.toNat_ofNat'] at ascii
      omega

theorem encode_ofList (chars : List Char) :
    encode (String.ofList chars) = chars.flatMap String.utf8EncodeChar := by
  show (chars.flatMap String.utf8EncodeChar).toByteArray.data.toList = _
  rw [List.data_toByteArray]

theorem newlineByte_not_mem_encode {line : List Char} (whole : '\n' ∉ line) :
    newlineByte ∉ encode (String.ofList line) := by
  rw [encode_ofList, List.mem_flatMap]
  rintro ⟨mark, inLine, inMark⟩
  have value : mark.toNat = 10 := toNat_of_mem_utf8EncodeChar inMark (by decide)
  obtain rfl : mark = '\n' := Char.ext (UInt32.toNat_inj.mp value)
  exact whole inLine

theorem lines_encode_ofList (text : List Char) :
    lines newlineByte (encode (String.ofList text)) =
      (lines '\n' text).map fun line => encode (String.ofList line) := by
  induction text using break_induction with
  | whole line free =>
    cases line with
    | nil => rfl
    | cons mark rest =>
      have nonempty : encode (String.ofList (mark :: rest)) ≠ [] := by
        rw [encode_ofList, List.flatMap_cons]
        exact List.append_ne_nil_of_left_ne_nil String.utf8EncodeChar_ne_nil _
      rw [lines_of_not_mem (newlineByte_not_mem_encode free) nonempty,
        lines_of_not_mem free (List.cons_ne_nil mark rest), List.map_singleton]
  | broken line rest free inductionHypothesis =>
    have parts : encode (String.ofList (line ++ '\n' :: rest)) =
        encode (String.ofList line) ++ newlineByte :: encode (String.ofList rest) := by
      rw [encode_ofList, encode_ofList, encode_ofList, List.flatMap_append, List.flatMap_cons]
      rfl
    rw [parts, lines_append_mark _ (newlineByte_not_mem_encode free), lines_append_mark _ free,
      List.map_cons, inductionHypothesis]

/-- Raw input is cut into the encodings of the lines of its text. -/
theorem lines_encode (text : String) :
    lines newlineByte (encode text) =
      (lines '\n' text.toList).map fun line => encode (String.ofList line) := by
  have cut := lines_encode_ofList text.toList
  rwa [String.ofList_toList] at cut

end Text

namespace SelectorList

theorem ofInput_encode (text : String) :
    ofInput (Text.encode text) =
      ((Text.lines '\n' text.toList).map Text.trim).map String.ofList := by
  have decoded : ((Text.lines '\n' text.toList).map fun line =>
        Text.encode (String.ofList line)).map Text.decode? =
      (Text.lines '\n' text.toList).map fun line => some (String.ofList line) := by
    rw [List.map_map]
    exact List.map_congr_left fun line _ => Text.decode?_encode (String.ofList line)
  have whole : ((Text.lines '\n' text.toList).map fun line =>
        some (String.ofList line)).takeWhile Option.isSome =
      (Text.lines '\n' text.toList).map fun line => some (String.ofList line) := by
    rw [List.takeWhile_eq_self_iff]
    exact List.forall_mem_map.mpr fun line _ => rfl
  rw [ofInput, Text.lines_encode, decoded, whole, List.filterMap_map, List.map_map]
  simp [Function.comp_def, Text.trimmed]

/-- Without the empty ones, the selectors on the lines of raw input are those in its text. -/
theorem filter_ofInput_encode (text : String) :
    (ofInput (Text.encode text)).filter (· ≠ "") = ofText text := by
  rw [ofInput_encode, ofText, List.filter_map]
  congr 1
  refine List.filter_congr fun line _ => ?_
  simp

theorem ne_empty_of_mem_ofInput_encode {text selector : String}
    (solid : ∀ line ∈ Text.lines '\n' text.toList, ¬Text.AllBlank line)
    (member : selector ∈ ofInput (Text.encode text)) : selector ≠ "" := by
  rw [ofInput_encode, List.map_map] at member
  obtain ⟨line, read, rfl⟩ := List.mem_map.mp member
  refine mt String.ofList_eq_empty_iff.mp ?_
  rw [Text.trim_eq_nil_iff]
  exact solid line read

end SelectorList

namespace Settings

variable (settings : Settings) (console : Console)

/-! ### Selectors that are followed -/

/-- Shows selectors one after another, on a console that forgets before each of them. -/
def displayForgetting (selectors : List String) : Console :=
  selectors.foldl (fun console selector => settings.display console.forget selector) console

theorem follow_fst (input : Text.Bytes) :
    (settings.follow console input).1 =
      settings.displayForgetting console (SelectorList.ofInput input) := by
  rw [follow, followLines_fst, List.foldl_flatMap]
  rfl

theorem follow_snd_encode (text : String) :
    (settings.follow console (Text.encode text)).2 = none := by
  rw [follow, Text.lines_encode]
  refine settings.followLines_snd_of_text console fun bytes member => ?_
  obtain ⟨line, _, rfl⟩ := List.mem_map.mp member
  rw [Text.decode?_encode]
  rfl

theorem out_displayForgetting (selectors : List String) :
    (settings.displayForgetting console selectors).out =
      console.out ++ String.join (selectors.map settings.rendering) := by
  unfold displayForgetting
  induction selectors generalizing console with
  | nil => simp
  | cons selector rest inductionHypothesis =>
    rw [List.foldl_cons, inductionHypothesis, out_display, List.map_cons, String.join_cons,
      String.append_assoc]
    rfl

end Settings

theorem executeWith_of_interactive {arguments : List String} {options : Options}
    {contents : Contents} {input : Text.Bytes}
    (accepted : Request.ofArguments arguments = .ok (.run options))
    (interactive : options.interactive = true)
    (readable : contents .standardInput = .ok input) (terminal : Bool) :
    executeWith arguments terminal contents =
      .ok (options.runInteractive terminal (.ok input)) := by
  rw [executeWith_of_accepted accepted, Options.run, if_pos interactive, readable]

theorem Options.out_runInteractive (options : Options) (terminal : Bool) (input : Text.Bytes) :
    (options.runInteractive terminal (.ok input)).out =
      ((options.settings terminal).follow {} input).1.out := by
  rw [runInteractive]
  cases (options.settings terminal).follow {} input with
  | mk console failure? => cases failure? <;> rfl

/-- An interactive session over the encoding of a text shows the selectors on its lines one after
another and does not fail. Without the empty ones these are the selectors that are read from a
source which holds the text. If no line is blank, a run over the source and an interactive run
under the same settings write the same to standard output. -/
theorem follow_agrees_with_source (text : String) :
    (∀ (settings : Settings) (console : Console),
      settings.follow console (Text.encode text) =
        (settings.displayForgetting console (SelectorList.ofInput (Text.encode text)), none)) ∧
    (∀ (source : Source) (contents : Contents), contents.text? source = some text →
      source.selectors (contents source) =
        .ok ((SelectorList.ofInput (Text.encode text)).filter (· ≠ ""))) ∧
    ((∀ line ∈ Text.lines '\n' text.toList, ¬Text.AllBlank line) →
      ∀ (arguments interactiveArguments : List String) (options interactiveOptions : Options)
        (path : String) (contents interactiveContents : Contents) (terminal : Bool),
        Request.ofArguments arguments = .ok (.run options) → options.interactive = false →
        options.selectors = [] → options.file = some path →
        contents.text? (.ofPath path) = some text →
        Request.ofArguments interactiveArguments = .ok (.run interactiveOptions) →
        interactiveOptions.interactive = true →
        interactiveContents .standardInput = .ok (Text.encode text) →
        interactiveOptions.settings terminal = options.settings terminal →
        ∃ outcome interactiveOutcome,
          executeWith arguments terminal contents = .ok outcome ∧
          executeWith interactiveArguments terminal interactiveContents =
            .ok interactiveOutcome ∧
          outcome.out = interactiveOutcome.out) := by
  refine ⟨fun settings console => ?_, fun source contents readable => ?_, ?_⟩
  · exact Prod.ext (settings.follow_fst console _) (settings.follow_snd_encode console text)
  · rw [Source.selectors_of_text? readable, SelectorList.filter_ofInput_encode]
  intro solid arguments interactiveArguments options interactiveOptions path contents
    interactiveContents terminal accepted gathered unselected named readable
    interactiveAccepted interactive input same
  have selected : options.selected? contents = some (SelectorList.ofText text) := by
    simp only [Options.selected?, named, readable, Option.map_some, unselected, List.nil_append]
  have followed : SelectorList.ofInput (Text.encode text) = SelectorList.ofText text := by
    rw [← SelectorList.filter_ofInput_encode, eq_comm, List.filter_eq_self]
    exact fun selector member =>
      decide_eq_true (SelectorList.ne_empty_of_mem_ofInput_encode solid member)
  refine ⟨_, _, executeWith_of_selected? accepted gathered selected terminal,
    executeWith_of_interactive interactiveAccepted interactive input terminal, ?_⟩
  rw [Options.out_runInteractive, Settings.follow_fst, Settings.out_displayForgetting,
    Settings.out_outcome, followed, same, String.empty_append]

/-- A line that ends with a carriage return and an indented last line that is not ended are shown
alike from a file and in an interactive session. -/
theorem follow_agrees_with_source_returns :
    (∀ line ∈ Text.lines '\n' "a\r\n\u00a0> .b".toList, ¬Text.AllBlank line) ∧
      ∃ outcome interactiveOutcome,
        executeWith ["--file", "list", "--unique"] false
          (Contents.ofSource (.file "list") "a\r\n\u00a0> .b") = .ok outcome ∧
        executeWith ["--unique", "-i"] false
          (Contents.ofSource .standardInput "a\r\n\u00a0> .b") = .ok interactiveOutcome ∧
        outcome.out = interactiveOutcome.out := by
  have solid : ∀ line ∈ Text.lines '\n' "a\r\n\u00a0> .b".toList, ¬Text.AllBlank line := by
    intro line member
    have lines : Text.lines '\n' "a\r\n\u00a0> .b".toList = ["a\r".toList, "\u00a0> .b".toList] :=
      rfl
    rw [lines] at member
    rcases List.mem_pair.mp member with rfl | rfl <;> decide
  obtain ⟨_, _, alike⟩ := follow_agrees_with_source "a\r\n\u00a0> .b"
  exact ⟨solid, alike solid ["--file", "list", "--unique"] ["--unique", "-i"]
    { file := some "list", unique := true } { interactive := true, unique := true } "list" _ _ false
    rfl rfl rfl rfl (Contents.text?_ofSource _ _) rfl rfl rfl rfl⟩

end SelectorLexemes
