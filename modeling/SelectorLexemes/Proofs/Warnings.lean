/-
This file says which warnings a whole session writes. What matters of a session is a history
of events: a selector is shown under some settings, or the warnings are forgotten, which every
line of input does before its selector is shown. A warning is written for a selector without
lexemes unless warnings are switched off or the history since the warnings were last forgotten
already shows this selector with warnings switched on.

The console remembers labels and the history does not look at the console, so the invariant
between the two is what the run is carried by. Standard output needs no history at all.
-/

import SelectorLexemes.Proofs.Displays
import SelectorLexemes.Proofs.Inventories
import SelectorLexemes.Proofs.Lines
import SelectorLexemes.Session

namespace SelectorLexemes

/-! ### What happens in a session -/

/-- Something that happens to the warnings of a session. -/
inductive Event where
  /-- All warnings are forgotten. -/
  | forgotten
  /-- A selector is shown under these settings. -/
  | shown (settings : Settings) (selector : String)

namespace Step

/-- The settings behind a step. -/
def settingsAfter (settings : Settings) : Step → Settings
  | .replace new => new
  | .display _ | .follow _ | .forget => settings

/-- What happens in a step. A line of input first makes the session forget. -/
def events (settings : Settings) : Step → List Event
  | .display selector => [.shown settings selector]
  | .follow input =>
    (SelectorList.ofInput input).flatMap fun selector => [.forgotten, .shown settings selector]
  | .replace _ => []
  | .forget => [.forgotten]

/-- What happens in each of several steps. -/
def eventGroups (settings : Settings) : List Step → List (List Event)
  | [] => []
  | step :: rest => step.events settings :: eventGroups (step.settingsAfter settings) rest

end Step

namespace Event

/-- All warnings are forgotten. -/
def isForgotten : Event → Bool
  | .forgotten => true
  | .shown _ _ => false

/-- The selector is shown while warnings are switched on. -/
def showsAloud (selector : String) : Event → Bool
  | .forgotten => false
  | .shown settings other => !settings.quiet && other == selector

/-- The selector has been shown while warnings were switched on, and the warnings have not
been forgotten since. -/
def ShownAloud (history : List Event) (selector : String) : Prop :=
  ∃ event ∈ history.reverse.takeWhile (!·.isForgotten), event.showsAloud selector = true

instance (history : List Event) (selector : String) : Decidable (ShownAloud history selector) :=
  inferInstanceAs (Decidable (∃ event ∈ _, _))

/-- What an event writes to standard error when these events are behind it. -/
def warning (history : List Event) : Event → String
  | .forgotten => ""
  | .shown settings selector =>
    if settings.quiet = false ∧
        (Inventory.ofSelector settings.duplicates selector).isEmpty = true ∧
        ¬ShownAloud history selector then
      Warning.lineAbout selector
    else
      ""

/-- What events write to standard error, one after another. -/
def warnings (history : List Event) : List Event → String
  | [] => ""
  | event :: rest => event.warning history ++ warnings (history ++ [event]) rest

/-- What each group of events writes to standard error, one group after another. -/
def warningGroups (history : List Event) : List (List Event) → List String
  | [] => []
  | events :: rest => warnings history events :: warningGroups (history ++ events) rest

/-- What an event writes to standard output. -/
def output : Event → String
  | .forgotten => ""
  | .shown settings selector =>
    settings.presentation.render selector (Inventory.ofSelector settings.duplicates selector) ++
      "\n"

/-! ### Consoles and events -/

/-- What an event does to a console. -/
def apply (console : Console) : Event → Console
  | .forgotten => console.forget
  | .shown settings selector => settings.display console selector

theorem shownAloud_forgotten (history : List Event) (selector : String) :
    ¬ShownAloud (history ++ [.forgotten]) selector := by
  simp [ShownAloud, isForgotten]

theorem shownAloud_shown (history : List Event) (settings : Settings) (shown selector : String) :
    ShownAloud (history ++ [.shown settings shown]) selector ↔
      settings.quiet = false ∧ shown = selector ∨ ShownAloud history selector := by
  simp [ShownAloud, isForgotten, showsAloud]

end Event

/-- The console remembers the selectors without lexemes that have been shown while warnings
were switched on since they were last forgotten. -/
def Console.Remembers (console : Console) (history : List Event) : Prop :=
  ∀ selector, (Warning.noLexemes selector).label ∈ console.remembered ↔
    scan selector = [] ∧ Event.ShownAloud history selector

theorem Settings.warnsAbout_iff (settings : Settings) (selector : String) :
    settings.warnsAbout selector = true ↔ settings.quiet = false ∧ scan selector = [] := by
  rw [warnsAbout, Bool.and_eq_true, Inventory.isEmpty_ofSelector, Bool.not_eq_true']

namespace Event

/-- An event keeps the console in step with the history. -/
theorem remembers_apply {console : Console} {history : List Event} (event : Event)
    (remembers : console.Remembers history) :
    (event.apply console).Remembers (history ++ [event]) := by
  intro selector
  cases event with
  | forgotten =>
    have nothing := shownAloud_forgotten history selector
    simp [apply, Console.forget, nothing]
  | shown settings shown =>
    rw [apply, Settings.mem_remembered_display, Warning.label_noLexemes_injective.eq_iff,
      remembers selector, settings.warnsAbout_iff, shownAloud_shown]
    by_cases same : shown = selector
    · subst same
      tauto
    · have other : selector ≠ shown := Ne.symm same
      simp only [same, other, and_false, false_or]

theorem err_apply {console : Console} {history : List Event} (event : Event)
    (remembers : console.Remembers history) :
    (event.apply console).err = console.err ++ event.warning history := by
  cases event with
  | forgotten => exact String.append_empty.symm
  | shown settings selector =>
    rw [apply, Settings.err_display, Warning.line_noLexemes, warning]
    congr 1
    refine if_congr ?_ rfl rfl
    rw [Settings.WarnsNow, remembers selector, settings.warnsAbout_iff,
      Inventory.isEmpty_ofSelector]
    tauto

theorem out_apply (console : Console) (event : Event) :
    (event.apply console).out = console.out ++ event.output := by
  cases event with
  | forgotten => exact String.append_empty.symm
  | shown settings selector => exact settings.out_display console selector

theorem remembers_foldl {console : Console} {history : List Event} (events : List Event)
    (remembers : console.Remembers history) :
    (events.foldl apply console).Remembers (history ++ events) ∧
      (events.foldl apply console).err = console.err ++ warnings history events := by
  induction events generalizing console history with
  | nil => simp [warnings, remembers]
  | cons event rest inductionHypothesis =>
    obtain ⟨later, err⟩ := inductionHypothesis (remembers_apply event remembers)
    rw [List.append_assoc, List.singleton_append] at later
    refine ⟨later, ?_⟩
    rw [List.foldl_cons, err, err_apply event remembers, warnings, String.append_assoc]

theorem out_foldl (console : Console) (events : List Event) :
    (events.foldl apply console).out = console.out ++ String.join (events.map output) := by
  induction events generalizing console with
  | nil => simp
  | cons event rest inductionHypothesis =>
    rw [List.foldl_cons, inductionHypothesis, out_apply, List.map_cons, String.join_cons,
      String.append_assoc]

end Event

theorem Settings.followLines_fst (settings : Settings) (console : Console)
    (lines : List Text.Bytes) :
    (settings.followLines console lines).1 =
      ((((lines.map Text.decode?).takeWhile Option.isSome).filterMap
        fun line? => line?.map Text.trimmed).flatMap fun selector =>
          [.forgotten, .shown settings selector]).foldl Event.apply console := by
  induction lines generalizing console with
  | nil => rfl
  | cons line rest inductionHypothesis =>
    rw [followLines, followLine?]
    cases decoded : Text.decode? line with
    | none => simp [decoded]
    | some text =>
      simp only [Option.map_some, inductionHypothesis]
      simp [decoded]
      rfl

namespace Session

/-- A step does to the console what its events do. -/
theorem step_fst (session : Session) (step : Step) :
    (session.step step).1 =
      ⟨step.settingsAfter session.settings,
        (step.events session.settings).foldl Event.apply session.console⟩ := by
  cases step with
  | display selector => rfl
  | follow input =>
    exact congrArg (Session.mk session.settings) (session.settings.followLines_fst _ _)
  | replace settings => rfl
  | forget => rfl

theorem reports_cons (session : Session) (step : Step) (rest : List Step) :
    ∃ failure?, session.reports (step :: rest) =
      ⟨((step.events session.settings).foldl Event.apply session.console.flushed).out,
        ((step.events session.settings).foldl Event.apply session.console.flushed).err,
        failure?⟩ ::
      reports ⟨step.settingsAfter session.settings,
        (step.events session.settings).foldl Event.apply session.console.flushed⟩ rest := by
  have stepped : { session with console := session.console.flushed }.step step = (_, _) :=
    Prod.ext (step_fst _ step) rfl
  exact ⟨_, by rw [reports, stepped]⟩

theorem map_err_reports (session : Session) (steps : List Step) (history : List Event)
    (remembers : session.console.Remembers history) :
    (session.reports steps).map Report.err =
      Event.warningGroups history (Step.eventGroups session.settings steps) := by
  induction steps generalizing session history with
  | nil => rfl
  | cons step rest inductionHypothesis =>
    have flushed : session.console.flushed.Remembers history := remembers
    obtain ⟨later, err⟩ :=
      Event.remembers_foldl (step.events session.settings) flushed
    obtain ⟨failure?, split⟩ := session.reports_cons step rest
    rw [split, List.map_cons, inductionHypothesis _ _ later, err]
    rfl

theorem map_out_reports (session : Session) (steps : List Step) :
    (session.reports steps).map Report.out =
      (Step.eventGroups session.settings steps).map fun events =>
        String.join (events.map Event.output) := by
  induction steps generalizing session with
  | nil => rfl
  | cons step rest inductionHypothesis =>
    obtain ⟨failure?, split⟩ := session.reports_cons step rest
    rw [split, List.map_cons, inductionHypothesis, Event.out_foldl]
    rfl

/-- In a session that begins with nothing remembered, standard error is what the history asks
for. Switching warnings off keeps a selector from being remembered, too. Standard output is
the renderings of the selectors shown, whatever is remembered. -/
theorem reports_warn_until_forgotten :
    (∀ (settings : Settings) (steps : List Step),
      (({ settings := settings } : Session).reports steps).map Report.err =
        Event.warningGroups [] (Step.eventGroups settings steps)) ∧
    (∀ (settings : Settings) (console : Console) (selector : String),
      ({ settings with quiet := true }.display console selector).err = console.err ∧
      ({ settings with quiet := true }.display console selector).remembered =
        console.remembered) ∧
    ∀ (session : Session) (steps : List Step),
      (session.reports steps).map Report.out =
        (Step.eventGroups session.settings steps).map fun events =>
          String.join (events.map Event.output) := by
  refine ⟨fun settings steps => ?_, fun settings console selector => ⟨rfl, rfl⟩, map_out_reports⟩
  have remembers : ({} : Console).Remembers [] := by
    intro selector
    simp [Event.ShownAloud]
  exact map_err_reports { settings := settings } steps [] remembers

end Session

end SelectorLexemes
