/-
This file says what showing selectors leaves behind on a console. Every selector adds its
rendering to standard output. A warning goes out for a selector that calls for one, unless
the console remembers it; the warnings are labelled by the selectors, so one selector never
uses up the warning about another.

For many selectors in a row this gives one warning for each of those that call for one, in
the order in which they come first.
-/

import Mathlib.Data.List.Basic
import SelectorLexemes.Settings

namespace SelectorLexemes

/-! ### One warning -/

theorem Warning.label_noLexemes_injective :
    Function.Injective fun selector => (noLexemes selector).label := by
  intro first second same
  simp only [label, noLexemes] at same
  have marks := congrArg String.toList same
  simp only [String.toList_append, List.append_cancel_left_eq, List.append_cancel_right_eq] at marks
  exact String.toList_inj.mp marks

/-- The line that tells that a selector has no lexemes, as it is written: in yellow, between the
control sequences for it, and with a line break at its end. -/
def Warning.lineAbout (selector : String) : String :=
  "\x1b[33m[selcat Selector] ⚠ no lexemes found in `" ++ selector ++ "`\x1b[39m\n"

theorem Warning.line_noLexemes (selector : String) :
    (noLexemes selector).line = lineAbout selector := by
  have front : Text.controlSequence "33" ++ ("[selcat " ++ "Selector" ++ "] ⚠ " ++
      "no lexemes found in `") = "\x1b[33m[selcat Selector] ⚠ no lexemes found in `" := by
    decide
  have back : "`" ++ Text.controlSequence "39" ++ "\n" = "`\x1b[39m\n" := by
    decide
  have parts : (noLexemes selector).line =
      Text.controlSequence "33" ++ ("[selcat " ++ "Selector" ++ "] ⚠ " ++
        "no lexemes found in `") ++ selector ++ ("`" ++ Text.controlSequence "39" ++ "\n") := by
    simp only [line, noLexemes, Text.Emphasis.wrap, Text.Emphasis.onCode, Text.Emphasis.offCode,
      String.append_assoc]
  exact parts.trans (congrArg₂ (fun first last => first ++ selector ++ last) front back)

namespace Console

@[simp] theorem out_warn (console : Console) (warning : Warning) :
    (console.warn warning).out = console.out := by
  unfold warn
  split <;> rfl

theorem err_warn (console : Console) (warning : Warning) :
    (console.warn warning).err =
      console.err ++ if warning.label ∈ console.remembered then "" else warning.line := by
  unfold warn
  split
  · exact (String.append_empty).symm
  · rfl

/-- A warning is remembered behind its printing, and all others are as they were. -/
theorem mem_remembered_warn (console : Console) (warning : Warning) (label : String) :
    label ∈ (console.warn warning).remembered ↔
      label = warning.label ∨ label ∈ console.remembered := by
  unfold warn
  split
  · next known =>
    refine ⟨Or.inr, ?_⟩
    rintro (rfl | before)
    · exact known
    · exact before
  · exact List.mem_cons

end Console

namespace Settings

variable (settings : Settings) (console : Console)

theorem out_display (selector : String) :
    (settings.display console selector).out = console.out ++ settings.rendering selector := by
  unfold display
  split
  · rw [Console.print, Console.out_warn]
  · rfl

/-- A warning about the selector is printed when the selector is shown. -/
def WarnsNow (selector : String) : Prop :=
  settings.warnsAbout selector = true ∧
    (Warning.noLexemes selector).label ∉ console.remembered

instance (selector : String) : Decidable (settings.WarnsNow console selector) :=
  inferInstanceAs (Decidable (_ ∧ _))

theorem err_display (selector : String) :
    (settings.display console selector).err = console.err ++
      if settings.WarnsNow console selector then (Warning.noLexemes selector).line else "" := by
  unfold display
  by_cases warns : settings.warnsAbout selector = true
  · have now : settings.WarnsNow console selector ↔
        (Warning.noLexemes selector).label ∉ console.remembered := and_iff_right warns
    rw [if_pos warns, Console.print, Console.err_warn]
    simp only [now, ite_not]
  · have silent : ¬settings.WarnsNow console selector := fun now => warns now.1
    rw [if_neg warns, Console.print, if_neg silent, String.append_empty]

theorem mem_remembered_display (selector label : String) :
    label ∈ (settings.display console selector).remembered ↔
      settings.warnsAbout selector = true ∧ label = (Warning.noLexemes selector).label ∨
        label ∈ console.remembered := by
  unfold display
  by_cases warns : settings.warnsAbout selector = true
  · rw [if_pos warns, Console.print, Console.mem_remembered_warn]
    simp [warns]
  · rw [if_neg warns, Console.print]
    simp [warns]

/-- Showing a selector uses up the warning about it and no other. -/
theorem warnsNow_display (shown selector : String) :
    settings.WarnsNow (settings.display console shown) selector ↔
      settings.WarnsNow console selector ∧ selector ≠ shown := by
  rw [WarnsNow, WarnsNow, mem_remembered_display, Warning.label_noLexemes_injective.eq_iff, not_or,
    and_assoc]
  refine and_congr_right fun warns => ?_
  rw [and_comm]
  refine and_congr_right fun _ => not_congr ⟨And.right, fun same => ⟨same ▸ warns, same⟩⟩

/-! ### Many selectors -/

theorem out_displayAll (selectors : List String) :
    (settings.displayAll console selectors).out =
      console.out ++ String.join (selectors.map settings.rendering) := by
  unfold displayAll
  induction selectors generalizing console with
  | nil => simp
  | cons selector rest inductionHypothesis =>
    rw [List.foldl_cons, inductionHypothesis, out_display, List.map_cons, String.join_cons,
      String.append_assoc]

/-- The selectors among these that are still to be warned about, in the order in which they
come first. -/
def dueIn (selectors : List String) : List String :=
  (selectors.filter fun selector => settings.WarnsNow console selector).eraseDups

theorem dueIn_cons (selector : String) (rest : List String) :
    settings.dueIn console (selector :: rest) =
      (if settings.WarnsNow console selector then [selector] else []) ++
        settings.dueIn (settings.display console selector) rest := by
  have later : ∀ other,
      decide (settings.WarnsNow (settings.display console selector) other) =
        (decide (settings.WarnsNow console other) && !other == selector) := by
    intro other
    simp only [warnsNow_display, Bool.decide_and, ne_eq, decide_not]
    rfl
  unfold dueIn
  simp only [later]
  by_cases due : settings.WarnsNow console selector
  · simp only [if_pos due, List.filter_cons, decide_eq_true due, List.eraseDups_cons,
      List.filter_filter, List.singleton_append, ↓reduceIte]
    congr 2
    exact List.filter_congr fun other _ => Bool.and_comm _ _
  · simp only [if_neg due, List.filter_cons, decide_eq_false due, List.nil_append,
      Bool.false_eq_true, ↓reduceIte]
    congr 1
    refine List.filter_congr fun other _ => ?_
    by_cases same : other = selector
    · subst same
      simp [due]
    · simp [same]

theorem err_displayAll (selectors : List String) :
    (settings.displayAll console selectors).err = console.err ++ String.join
      ((settings.dueIn console selectors).map
        fun selector => (Warning.noLexemes selector).line) := by
  unfold displayAll
  induction selectors generalizing console with
  | nil => simp [dueIn]
  | cons selector rest inductionHypothesis =>
    rw [List.foldl_cons, inductionHypothesis, err_display, dueIn_cons, List.map_append,
      String.join_append, String.append_assoc]
    congr 2
    split <;> simp

end Settings

end SelectorLexemes
