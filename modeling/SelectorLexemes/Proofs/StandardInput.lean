/-
This file proves that standard input is read only when it is asked for. Two runs are compared that
may find anything on standard input. Nothing else that they find needs to agree but the content of
the file that the command line names, if it names one: neither run looks at anything else.

Neither an interactive session nor a path that consists of a dash may be asked for. The dash may be
written in more ways than one: slashes behind it, and dots between those, are no components of the
path. A file that the system fills from standard input does not read alike in both runs, so the
second hypothesis keeps it out.
-/

import SelectorLexemes.Program

namespace SelectorLexemes

/-! ### A lone dash -/

/-- The path consists of a dash, with nothing but slashes and dots between them behind it. -/
def IsLoneDash (path : String) : Prop :=
  ∃ stretches : List (List Char), (∀ stretch ∈ stretches, stretch = [] ∨ stretch = ['.']) ∧
    path.toList = '-' :: stretches.flatMap ('/' :: ·)

theorem intercalate_slash_cons (first : List Char) (rest : List (List Char)) :
    ['/'].intercalate (first :: rest) = first ++ rest.flatMap ('/' :: ·) := by
  induction rest generalizing first with
  | nil => simp
  | cons second rest inductionHypothesis =>
    rw [List.intercalate_cons_cons, inductionHypothesis second, List.flatMap_cons,
      List.append_assoc]
    rfl

theorem pathStretches_eq_iff {path first : List Char} {rest : List (List Char)}
    (solid : ∀ stretch ∈ first :: rest, '/' ∉ stretch) :
    pathStretches path = first :: rest ↔ path = first ++ rest.flatMap ('/' :: ·) := by
  constructor
  · intro cut
    have joined : ['/'].intercalate (pathStretches path) = path := List.intercalate_splitOn '/'
    rw [← joined, cut, intercalate_slash_cons]
  · rintro rfl
    rw [pathStretches, ← intercalate_slash_cons]
    exact List.splitOn_intercalate '/' solid (List.cons_ne_nil first rest)

theorem isDash_eq_true_iff (path : String) : isDash path = true ↔ IsLoneDash path := by
  have solid : ∀ stretches : List (List Char),
      (∀ stretch ∈ stretches, stretch = [] ∨ stretch = ['.']) →
      ∀ stretch ∈ ['-'] :: stretches, '/' ∉ stretch := by
    intro stretches blank stretch member
    rcases List.mem_cons.mp member with rfl | behind
    · decide
    · rcases blank stretch behind with rfl | rfl <;> decide
  constructor
  · intro dash
    unfold isDash at dash
    cases cut : pathStretches path.toList with
    | nil => simp only [cut, Bool.false_eq_true] at dash
    | cons first rest =>
      simp only [cut, Bool.and_eq_true, beq_iff_eq, List.all_eq_true, Bool.or_eq_true] at dash
      obtain ⟨rfl, blank⟩ := dash
      exact ⟨rest, blank, (pathStretches_eq_iff (solid rest blank)).mp cut⟩
  · rintro ⟨stretches, blank, spelled⟩
    have cut := (pathStretches_eq_iff (solid stretches blank)).mpr spelled
    simp only [isDash, cut, beq_self_eq_true, Bool.true_and, List.all_eq_true, Bool.or_eq_true,
      beq_iff_eq]
    exact blank

/-! ### Runs -/

namespace Options

variable {options : Options} {first second : Contents}

theorem gather_eq (named : ∀ path, options.file = some path → ¬IsLoneDash path)
    (alike : ∀ path, options.file = some path → first (.file path) = second (.file path)) :
    options.gather first = options.gather second := by
  cases file : options.file with
  | none => simp only [gather, source?, file, Option.map_none]
  | some path =>
    have source : Source.ofPath path = .file path :=
      if_neg fun dash => named path file ((isDash_eq_true_iff path).mp dash)
    simp only [gather, source?, file, Option.map_some, source, alike path file]

theorem run_eq (gathered : options.interactive = false)
    (named : ∀ path, options.file = some path → ¬IsLoneDash path)
    (alike : ∀ path, options.file = some path → first (.file path) = second (.file path))
    (terminal : Bool) : options.run terminal first = options.run terminal second := by
  have noSession : ¬options.interactive = true := Bool.eq_false_iff.mp gathered
  rw [run, run, if_neg noSession, if_neg noSession, runGathered, runGathered,
    gather_eq named alike]

end Options

/-- Two runs of a command line that asks neither for an interactive session nor for the lone dash
come out alike if the file that it names, if any, reads alike in both. -/
theorem execute_standardInput_unread (arguments : List String) (terminal : Bool)
    (first second : Contents)
    (unasked : ∀ options, Request.ofArguments arguments = .ok (.run options) →
      options.interactive = false ∧ ∀ path, options.file = some path → ¬IsLoneDash path)
    (alike : ∀ options path, Request.ofArguments arguments = .ok (.run options) →
      options.file = some path → first (.file path) = second (.file path)) :
    executeWith arguments terminal first = executeWith arguments terminal second := by
  rw [executeWith, executeWith]
  cases read : Request.ofArguments arguments with
  | error refusal => rfl
  | ok request =>
    cases request with
    | run options =>
      obtain ⟨gathered, named⟩ := unasked options read
      exact congrArg Except.ok (Options.run_eq gathered named (alike options · read) terminal)
    | help => rfl
    | version => rfl

/-- A dash behind a dot and a slash names a file, and standard input is not read for it: it may
hold a text in one run and fail in the other. -/
theorem execute_standardInput_unread_dashFile :
    Request.ofArguments ["-f", "./-"] = .ok (.run { file := some "./-" }) ∧
      ¬IsLoneDash "./-" ∧
      executeWith ["-f", "./-"] false (fun _ => .ok (Text.encode "a")) =
        executeWith ["-f", "./-"] false (fun source =>
          if source = .file "./-" then .ok (Text.encode "a")
          else .error (.other "Bad file descriptor (os error 9)")) := by
  have known : Request.ofArguments ["-f", "./-"] = .ok (.run { file := some "./-" }) := rfl
  have read : ∀ options, Request.ofArguments ["-f", "./-"] = .ok (.run options) →
      { file := some "./-" } = options :=
    fun options accepted => Request.run.inj (Except.ok.inj (known.symm.trans accepted))
  have unnamed : ¬IsLoneDash "./-" := by
    rw [← isDash_eq_true_iff]
    decide
  refine ⟨known, unnamed, execute_standardInput_unread _ _ _ _ ?_ ?_⟩
  · intro options accepted
    obtain rfl := read options accepted
    refine ⟨rfl, fun path named => ?_⟩
    obtain rfl := Option.some.inj named
    exact unnamed
  · intro options path accepted named
    obtain rfl := read options accepted
    obtain rfl := Option.some.inj named
    rfl

/-- Standard input holds a text, and the system offers it at a path as well. -/
def Contents.ofDevice (device text : String) : Contents := fun source =>
  if source = .standardInput ∨ source = .file device then .ok (Text.encode text)
  else .error .notFound

/-- A dash with a slash behind it and the path of the device are not spelled like a lone dash,
and yet what the runs do depends on standard input. -/
theorem execute_standardInput_spellings :
    (Request.ofArguments ["--file=-/"] = .ok (.run { file := some "-/" }) ∧
      (executeWith ["--file=-/"] false (.ofDevice "/dev/stdin" "a")).map Outcome.exitCode =
        .ok 0 ∧
      (executeWith ["--file=-/"] false (.ofDevice "/dev/stdin" "")).map Outcome.exitCode =
        .ok 1) ∧
    (Request.ofArguments ["-f", "/dev/stdin"] = .ok (.run { file := some "/dev/stdin" }) ∧
      (executeWith ["-f", "/dev/stdin"] false (.ofDevice "/dev/stdin" "a")).map
        Outcome.exitCode = .ok 0 ∧
      (executeWith ["-f", "/dev/stdin"] false (.ofDevice "/dev/stdin" "")).map
        Outcome.exitCode = .ok 1) := by
  have gathered : ∀ path text, Options.gather { file := some path }
      (fun _ => .ok (Text.encode text)) = .ok (SelectorList.ofText text) := by
    intro path text
    simp only [Options.gather, Options.source?, Option.map_some, Source.selectors,
      Text.decode?_encode]
    rfl
  have shown : ∀ path, (Options.runGathered { file := some path } false
      fun _ => .ok (Text.encode "a")).exitCode = 0 := by
    intro path
    rw [Options.runGathered, gathered]
    rfl
  have failed : ∀ path, (Options.runGathered { file := some path } false
      fun _ => .ok (Text.encode "")).exitCode = 1 := by
    intro path
    rw [Options.runGathered, gathered]
    rfl
  exact ⟨⟨rfl, congrArg Except.ok (shown "-/"), congrArg Except.ok (failed "-/")⟩,
    rfl, congrArg Except.ok (shown "/dev/stdin"), congrArg Except.ok (failed "/dev/stdin")⟩

end SelectorLexemes
