/-
This file says when a warning is printed, for any sequence of warnings and any points at which
all of them are forgotten. The console remembers labels, so a warning is printed unless one
with the same label has come up since the warnings were last forgotten.

A label is meant to stand for its warning, but it does not always: the divider between the
component and the message may occur in either of them, and then two warnings share a label
although their components and their messages differ. The later one is lost. This is the only
way for labels to be equal, and it takes a component that contains the divider. As long as no
component does, a warning is printed whenever it has not come up since the last forgetting.
-/

import Mathlib.Data.List.Induction
import Mathlib.Data.List.Infix
import SelectorLexemes.Proofs.Displays

namespace SelectorLexemes

/-! ### Equal labels -/

namespace Warning

/-- What stands between the component and the message of a label. -/
def divider : List Char := [']', ' ']

/-- The longer component goes on behind the shorter one with a divider and a stretch of the
message of the shorter one, and the rest of that message is a divider and the other message. -/
def ReachesInto (longer shorter : Warning) : Prop :=
  ∃ stretch, longer.component.toList = shorter.component.toList ++ divider ++ stretch ∧
    shorter.message.toList = stretch ++ divider ++ longer.message.toList

/-- The warnings cannot be told apart by their labels. -/
def IsTakenFor (first second : Warning) : Prop :=
  first = second ∨ first.ReachesInto second ∨ second.ReachesInto first

/-- The component does not contain a divider. -/
def IsPlain (warning : Warning) : Prop :=
  ¬divider <:+: warning.component.toList

instance (warning : Warning) : Decidable warning.IsPlain :=
  inferInstanceAs (Decidable ¬_)

theorem toList_label (warning : Warning) :
    warning.label.toList =
      '[' :: (warning.component.toList ++ (divider ++ warning.message.toList)) := by
  simp [label, divider]

/-- Dividers do not overlap, so the second one is the first one or stands in the message. -/
theorem eq_or_exists_of_divider_append {message ending behind : List Char}
    (same : divider ++ message = behind ++ (divider ++ ending)) :
    behind = [] ∧ message = ending ∨
      ∃ stretch, behind = divider ++ stretch ∧ message = stretch ++ (divider ++ ending) := by
  match behind with
  | [] => exact Or.inl ⟨rfl, List.append_cancel_left same⟩
  | [first] =>
    have blank : ' ' = ']' := (List.cons.inj (List.cons.inj same).2).1
    exact absurd blank (by decide)
  | first :: second :: stretch =>
    obtain ⟨closing, rest⟩ := List.cons.inj same
    obtain ⟨blank, parts⟩ := List.cons.inj rest
    exact Or.inr ⟨stretch, by rw [← closing, ← blank]; rfl, parts⟩

theorem line_ne_empty (warning : Warning) : warning.line ≠ "" := by
  simp [line]

theorem ReachesInto.label_eq {longer shorter : Warning} (reaches : longer.ReachesInto shorter) :
    longer.label = shorter.label := by
  obtain ⟨stretch, component, message⟩ := reaches
  rw [← String.toList_inj, toList_label, toList_label, component, message]
  simp only [List.append_assoc]

/-- When the component of one warning begins with that of the other, equal labels make them the
same warning or make the longer component reach into the other message. -/
theorem eq_or_reachesInto {shorter longer : Warning} {behind : List Char}
    (component : longer.component.toList = shorter.component.toList ++ behind)
    (message : divider ++ shorter.message.toList = behind ++ (divider ++ longer.message.toList)) :
    shorter = longer ∨ longer.ReachesInto shorter := by
  rcases eq_or_exists_of_divider_append message with ⟨rfl, sameMessage⟩ | ⟨stretch, rfl, parts⟩
  · left
    rw [List.append_nil] at component
    obtain ⟨shorterComponent, shorterMessage⟩ := shorter
    obtain ⟨longerComponent, longerMessage⟩ := longer
    rw [Warning.mk.injEq]
    exact ⟨(String.toList_inj.mp component).symm, String.toList_inj.mp sameMessage⟩
  · right
    refine ⟨stretch, ?_, ?_⟩
    · rw [component, List.append_assoc]
    · rw [parts, List.append_assoc]

theorem label_eq_label_iff (first second : Warning) :
    first.label = second.label ↔ first.IsTakenFor second := by
  constructor
  · intro same
    rw [← String.toList_inj, toList_label, toList_label, List.cons.injEq] at same
    rcases List.append_eq_append_iff.mp same.2 with
      ⟨behind, component, message⟩ | ⟨behind, component, message⟩
    · rcases eq_or_reachesInto component message with equal | reaches
      · exact Or.inl equal
      · exact Or.inr (Or.inr reaches)
    · rcases eq_or_reachesInto component message with equal | reaches
      · exact Or.inl equal.symm
      · exact Or.inr (Or.inl reaches)
  · rintro (rfl | reaches | reaches)
    · rfl
    · exact reaches.label_eq
    · exact reaches.label_eq.symm

theorem IsPlain.not_reachesInto {longer : Warning} (plain : longer.IsPlain) (shorter : Warning) :
    ¬longer.ReachesInto shorter := by
  rintro ⟨stretch, component, _⟩
  exact plain ⟨_, _, component.symm⟩

theorem IsPlain.isTakenFor_iff {first second : Warning} (plainFirst : first.IsPlain)
    (plainSecond : second.IsPlain) : first.IsTakenFor second ↔ first = second := by
  have notFirst := plainFirst.not_reachesInto second
  have notSecond := plainSecond.not_reachesInto first
  exact or_iff_left (not_or.mpr ⟨notFirst, notSecond⟩)

end Warning

/-! ### One warning on a console -/

namespace Console

theorem err_warn_eq_append_iff (console : Console) (warning : Warning) :
    (console.warn warning).err = console.err ++ warning.line ↔
      warning.label ∉ console.remembered := by
  rw [err_warn]
  by_cases known : warning.label ∈ console.remembered
  · have longer : console.err ≠ console.err ++ warning.line :=
      fun same => warning.line_ne_empty (String.append_eq_left_iff.mp same.symm)
    simp [known, longer]
  · simp [known]

theorem err_warn_eq_iff (console : Console) (warning : Warning) :
    (console.warn warning).err = console.err ↔ warning.label ∈ console.remembered := by
  rw [err_warn]
  by_cases known : warning.label ∈ console.remembered
  · simp [known]
  · simp [known, warning.line_ne_empty]

end Console

/-! ### Many warnings -/

/-- Something that happens to the warnings on a console. -/
inductive Notice where
  | forgotten
  | raised (warning : Warning)
deriving DecidableEq

namespace Notice

def apply (console : Console) : Notice → Console
  | .forgotten => console.forget
  | .raised warning => console.warn warning

/-- The console that these notices leave behind when it was fresh before. -/
def replay (history : List Notice) : Console :=
  history.foldl apply {}

/-- The warning has come up, and the warnings have not been forgotten since. -/
def CameUp (history : List Notice) (warning : Warning) : Prop :=
  .raised warning ∈ history.reverse.takeWhile (· ≠ .forgotten)

instance (history : List Notice) (warning : Warning) : Decidable (CameUp history warning) :=
  inferInstanceAs (Decidable (_ ∈ _))

theorem replay_append (history : List Notice) (notice : Notice) :
    replay (history ++ [notice]) = apply (replay history) notice := by
  rw [replay, List.foldl_append, List.foldl_cons, List.foldl_nil, replay]

theorem not_cameUp_forgotten (history : List Notice) (warning : Warning) :
    ¬CameUp (history ++ [.forgotten]) warning := by
  simp [CameUp]

theorem cameUp_raised (history : List Notice) (raised warning : Warning) :
    CameUp (history ++ [.raised raised]) warning ↔
      warning = raised ∨ CameUp history warning := by
  simp [CameUp]

theorem CameUp.mem {history : List Notice} {warning : Warning} (cameUp : CameUp history warning) :
    .raised warning ∈ history :=
  List.mem_reverse.mp ((List.takeWhile_sublist _).subset cameUp)

/-- The console remembers the labels of the warnings that have come up since it last forgot. -/
theorem mem_remembered_replay (history : List Notice) (label : String) :
    label ∈ (replay history).remembered ↔
      ∃ earlier, CameUp history earlier ∧ earlier.label = label := by
  induction history using List.reverseRecOn with
  | nil => simp [replay, CameUp]
  | append_singleton history notice inductionHypothesis =>
    rw [replay_append]
    match notice with
    | .forgotten => simp [apply, Console.forget, not_cameUp_forgotten]
    | .raised warning =>
      rw [apply, Console.mem_remembered_warn, inductionHypothesis]
      simp only [cameUp_raised, or_and_right, exists_or, exists_eq_left]
      exact or_congr_left eq_comm

theorem label_mem_remembered_replay (history : List Notice) (warning : Warning) :
    warning.label ∈ (replay history).remembered ↔
      ∃ earlier, CameUp history earlier ∧ earlier.IsTakenFor warning := by
  simp only [mem_remembered_replay, Warning.label_eq_label_iff]

/-- A warning is printed unless one that it is taken for has come up since the warnings were
last forgotten, and then nothing is printed. Without dividers in the components this means
that it has not come up itself. -/
theorem raised_prints_unless_taken_for_earlier (history : List Notice) (warning : Warning) :
    ((replay (history ++ [.raised warning])).err = (replay history).err ++ warning.line ↔
        ¬∃ earlier, CameUp history earlier ∧ earlier.IsTakenFor warning) ∧
      ((replay (history ++ [.raised warning])).err = (replay history).err ↔
        ∃ earlier, CameUp history earlier ∧ earlier.IsTakenFor warning) ∧
      (warning.IsPlain → (∀ earlier, .raised earlier ∈ history → earlier.IsPlain) →
        ((replay (history ++ [.raised warning])).err = (replay history).err ++ warning.line ↔
          ¬CameUp history warning)) := by
  have prints : (replay (history ++ [.raised warning])).err = (replay history).err ++ warning.line ↔
      ¬∃ earlier, CameUp history earlier ∧ earlier.IsTakenFor warning := by
    rw [replay_append, apply, Console.err_warn_eq_append_iff, label_mem_remembered_replay]
  refine ⟨prints, ?_, ?_⟩
  · rw [replay_append, apply, Console.err_warn_eq_iff, label_mem_remembered_replay]
  · intro plain plainHistory
    rw [prints]
    refine not_congr ⟨?_, fun cameUp => ⟨warning, cameUp, Or.inl rfl⟩⟩
    rintro ⟨earlier, cameUp, taken⟩
    have same := ((plainHistory earlier cameUp.mem).isTakenFor_iff plain).mp taken
    exact same ▸ cameUp

/-- The component is what makes this warning a new one. -/
theorem raised_prints_unless_taken_for_earlier_other :
    (replay [.raised ⟨"Test", "seen"⟩, .raised ⟨"Other", "seen"⟩]).err =
      (replay [.raised ⟨"Test", "seen"⟩]).err ++ (Warning.mk "Other" "seen").line :=
  ((raised_prints_unless_taken_for_earlier [.raised ⟨"Test", "seen"⟩] ⟨"Other", "seen"⟩).2.2
    (by decide) (by simp; decide)).mpr (by decide)

/-- The divider may stand in a component, and then a warning that has never come up is lost. -/
theorem new_warning_lost :
    ¬∀ history warning,
      (replay (history ++ [.raised warning])).err = (replay history).err ++ warning.line ↔
        ¬CameUp history warning := by
  intro everyNewOne
  have new : ¬CameUp [.raised ⟨"x", "] y"⟩] ⟨"x] ", "y"⟩ := by decide
  have printed := (everyNewOne [.raised ⟨"x", "] y"⟩] ⟨"x] ", "y"⟩).mpr new
  have lost : (replay ([.raised ⟨"x", "] y"⟩] ++ [.raised ⟨"x] ", "y"⟩])).err =
      (replay [.raised ⟨"x", "] y"⟩]).err := by decide
  rw [lost] at printed
  revert printed
  decide

end Notice

end SelectorLexemes
