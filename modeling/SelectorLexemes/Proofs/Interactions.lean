/-
This file says how an interactive session takes its input. Every line is shown on a console
that has just forgotten, and what a line writes does not depend on what was written before.
Input that ends with a whole line can therefore be followed in two parts, the second part on
a fresh console that remembers what the first part left behind.

A line that is not text ends the session. Nothing has been done for it by then, neither has
anything been shown nor have the warnings been forgotten, so the console is the one behind
the lines in front of it, and the lines behind it are never looked at.
-/

import SelectorLexemes.Proofs.Lines
import SelectorLexemes.Settings

namespace SelectorLexemes

/-! ### Writing on a fresh console -/

namespace Console

/-- The console with what was written later to a fresh console, and with the memory of the
later one. -/
def andThen (console later : Console) : Console :=
  ⟨console.out ++ later.out, console.err ++ later.err, later.remembered⟩

theorem andThen_flushed (console : Console) : console.andThen console.flushed = console := by
  rw [andThen, flushed, String.append_empty, String.append_empty]

theorem andThen_assoc (first second third : Console) :
    (first.andThen second).andThen third = first.andThen (second.andThen third) := by
  simp only [andThen, String.append_assoc]

theorem print_eq_andThen (console : Console) (text : String) :
    console.print text = console.andThen (console.flushed.print text) := by
  simp only [andThen, print, flushed, String.append_empty, String.empty_append]

theorem warn_eq_andThen (console : Console) (warning : Warning) :
    console.warn warning = console.andThen (console.flushed.warn warning) := by
  unfold warn
  by_cases known : warning.label ∈ console.remembered
  · rw [if_pos known, if_pos (c := _ ∈ console.flushed.remembered) known, andThen_flushed]
  · rw [if_neg known, if_neg (c := _ ∈ console.flushed.remembered) known]
    simp only [andThen, flushed, String.append_empty, String.empty_append]

end Console

namespace Settings

variable (settings : Settings)

theorem display_eq_andThen (console : Console) (selector : String) :
    settings.display console selector =
      console.andThen (settings.display console.flushed selector) := by
  unfold display
  split
  · rw [Console.print_eq_andThen, Console.warn_eq_andThen, Console.andThen_assoc]
    congr 1
    exact (Console.print_eq_andThen _ _).symm
  · exact console.print_eq_andThen _

theorem followLine?_eq_andThen (console : Console) (line : Text.Bytes) :
    settings.followLine? console line =
      (settings.followLine? console.flushed line).map console.andThen := by
  rw [followLine?, followLine?, Option.map_map]
  refine congrArg (Option.map · (Text.decode? line)) (funext fun text => ?_)
  exact settings.display_eq_andThen console.forget (Text.trimmed text)

theorem followLines_eq_andThen (console : Console) (lines : List Text.Bytes) :
    settings.followLines console lines =
      (console.andThen (settings.followLines console.flushed lines).1,
        (settings.followLines console.flushed lines).2) := by
  induction lines generalizing console with
  | nil => rw [followLines, followLines, console.andThen_flushed]
  | cons line rest inductionHypothesis =>
    rw [followLines, followLines, settings.followLine?_eq_andThen console line]
    cases settings.followLine? console.flushed line with
    | none => rw [Option.map_none, console.andThen_flushed]
    | some next =>
      show settings.followLines (console.andThen next) rest =
        (console.andThen (settings.followLines next rest).1, (settings.followLines next rest).2)
      rw [inductionHypothesis (console.andThen next), inductionHypothesis next,
        Console.andThen_assoc]
      rfl

/-! ### Input in two parts -/

theorem followLines_append (console : Console) (first second : List Text.Bytes) :
    settings.followLines console (first ++ second) =
      match settings.followLines console first with
      | (after, some failure) => (after, some failure)
      | (after, none) => settings.followLines after second := by
  induction first generalizing console with
  | nil => rfl
  | cons line rest inductionHypothesis =>
    rw [List.cons_append, followLines, followLines]
    cases settings.followLine? console line with
    | none => rfl
    | some next => exact inductionHypothesis next

theorem follow_append (console : Console) (first second : Text.Bytes)
    (ends : first = [] ∨ first.getLast? = some Text.newlineByte) :
    settings.follow console (first ++ second) =
      match settings.follow console first with
      | (after, some failure) => (after, some failure)
      | (after, none) =>
        (after.andThen (settings.follow after.flushed second).1,
          (settings.follow after.flushed second).2) := by
  rw [follow, Text.lines_append second ends, followLines_append, follow]
  cases settings.followLines console (Text.lines Text.newlineByte first) with
  | mk after failure? =>
    cases failure? with
    | none => exact settings.followLines_eq_andThen after _
    | some failure => rfl

/-! ### Lines that are not text -/

/-- Lines that are text are all shown. -/
theorem followLines_snd_of_text (console : Console) {lines : List Text.Bytes}
    (areText : ∀ line ∈ lines, (Text.decode? line).isSome) :
    (settings.followLines console lines).2 = none := by
  induction lines generalizing console with
  | nil => rfl
  | cons line rest inductionHypothesis =>
    obtain ⟨isText, others⟩ := List.forall_mem_cons.mp areText
    obtain ⟨text, decoded⟩ := Option.isSome_iff_exists.mp isText
    rw [followLines, followLine?, decoded]
    exact inductionHypothesis _ others

/-- A line that is not text leaves the console as it is and ends the session. -/
theorem follow_of_bad_line (console : Console) {input bad : Text.Bytes} {later : List Text.Bytes}
    (read : Text.lines Text.newlineByte input = bad :: later) (notText : Text.decode? bad = none) :
    settings.follow console input = (console, some (.unreadableLine .invalidUtf8)) := by
  rw [follow, read, followLines, followLine?, notText]
  rfl

/-- The lines in front of the first line that is not text are shown, and nothing else happens. -/
theorem follow_until_bad_line (console : Console) {input bad : Text.Bytes}
    {good later : List Text.Bytes}
    (parts : Text.lines Text.newlineByte input = good ++ bad :: later)
    (areText : ∀ line ∈ good, (Text.decode? line).isSome) (notText : Text.decode? bad = none) :
    good.flatMap (· ++ [Text.newlineByte]) <+: input ∧
      ∃ after,
        settings.follow console (good.flatMap (· ++ [Text.newlineByte])) = (after, none) ∧
        settings.follow console input = (after, some (.unreadableLine .invalidUtf8)) := by
  obtain ⟨rest, rfl, read⟩ := Text.exists_of_lines_eq_append parts
  have ends := Text.flatMap_marked_ends Text.newlineByte good
  have goodLines : Text.lines Text.newlineByte (good.flatMap (· ++ [Text.newlineByte])) = good := by
    rw [Text.lines_append rest ends, read] at parts
    exact List.append_cancel_right parts
  have shown : (settings.follow console (good.flatMap (· ++ [Text.newlineByte]))).2 = none := by
    rw [follow, goodLines]
    exact settings.followLines_snd_of_text console areText
  have split : settings.follow console (good.flatMap (· ++ [Text.newlineByte])) =
      ((settings.follow console (good.flatMap (· ++ [Text.newlineByte]))).1, none) :=
    Prod.ext rfl shown
  refine ⟨List.prefix_append _ _, _, split, ?_⟩
  rw [settings.follow_append console _ rest ends, split]
  dsimp only
  rw [settings.follow_of_bad_line _ read notText, Console.andThen_flushed]

/-- Input that ends with a whole line may be followed by more input: the lines of both are
shown one after another, unless the first input fails. The first line that is not text makes
the session fail with what the lines in front of it have left behind, whatever is behind it. -/
theorem follow_append_until_bad_line (console : Console) :
    (∀ first second : Text.Bytes,
      first = [] ∨ first.getLast? = some Text.newlineByte →
      settings.follow console (first ++ second) =
        match settings.follow console first with
        | (after, some failure) => (after, some failure)
        | (after, none) =>
          (after.andThen (settings.follow after.flushed second).1,
            (settings.follow after.flushed second).2)) ∧
    (∀ (input bad : Text.Bytes) (good later : List Text.Bytes),
      Text.lines Text.newlineByte input = good ++ bad :: later →
      (∀ line ∈ good, (Text.decode? line).isSome) → Text.decode? bad = none →
        good.flatMap (· ++ [Text.newlineByte]) <+: input ∧
        ∃ after,
          settings.follow console (good.flatMap (· ++ [Text.newlineByte])) = (after, none) ∧
          settings.follow console input = (after, some (.unreadableLine .invalidUtf8))) ∧
    Failure.headline (.unreadableLine .invalidUtf8) = "failed to read selector from stdin" := by
  refine ⟨settings.follow_append console, ?_, rfl⟩
  intro input bad good later parts areText notText
  exact settings.follow_until_bad_line console parts areText notText

/-- Bytes that are not text on the second line end the session behind the first line. -/
theorem follow_append_until_bad_line_second :
    Text.lines Text.newlineByte [62, 10, 255, 10, 98] = [[62]] ++ [255] :: [[98]] ∧
      ∃ after, ({} : Settings).follow {} [62, 10] = (after, none) ∧
        ({} : Settings).follow {} [62, 10, 255, 10, 98] =
          (after, some (.unreadableLine .invalidUtf8)) := by
  have parts : Text.lines Text.newlineByte [62, 10, 255, 10, 98] = [[62]] ++ [255] :: [[98]] := by
    decide
  have areText : ∀ line ∈ [[62]], (Text.decode? line).isSome := by
    intro line member
    rw [List.mem_singleton.mp member]
    decide
  obtain ⟨_, stops, _⟩ := ({} : Settings).follow_append_until_bad_line {}
  exact ⟨parts, (stops _ _ _ _ parts areText (by decide)).2⟩

end Settings

end SelectorLexemes
