/-
This file proves how command lines can be put together. A command line that only says how selectors
are shown can be extended by a source and by selectors behind two hyphens, and it still says the
same about how they are shown.

The items of the parts are the items of the whole. A source may be named once only, and that none
has been named before is seen from the options: a file that is given is among them.
-/

import SelectorLexemes.Proofs.CommandOptions

namespace SelectorLexemes

namespace Item

/-! ### More items -/

theorem AreAccepted.append {items more : List Item} (accepted : AreAccepted items)
    (valid : ∀ item ∈ more, item.IsValid) (single : (singles more).Nodup)
    (apart : ∀ switch ∈ singles more, switch ∉ singles items)
    (gathered : .flag .interactive ∉ items ++ more) : AreAccepted (items ++ more) where
  valid := List.forall_mem_append.mpr ⟨accepted.valid, valid⟩
  single := by
    rw [singles_append]
    refine List.nodup_append.mpr ⟨accepted.single, single, ?_⟩
    rintro switch before _ behind rfl
    exact apart switch behind before
  alone := fun interactive => absurd interactive gathered

theorem field_not_mem_singles {valued : Field} {items : List Item}
    (ungiven : values valued items = []) : .field valued ∉ singles items := by
  intro member
  obtain ⟨item, among, single⟩ := List.mem_filterMap.mp member
  have unvalued := List.filterMap_eq_nil_iff.mp ungiven item among
  cases item with
  | flag | selector => cases single
  | field name value =>
    cases name with
    | only => cases single
    | file | format | color =>
      cases single
      cases unvalued

end Item

/-! ### Naming a source -/

namespace Reading

/-- The arguments give the path to read selectors from. -/
inductive NamesSource (path : String) : List String → Prop
  /-- The long name, with the path behind it. -/
  | long : IsPlain path → NamesSource path ["--file", path]
  /-- The letter, with the path behind it. -/
  | letter : IsPlain path → NamesSource path ["-f", path]
  /-- The long name and the path in one argument. -/
  | longEquals : NamesSource path ["--file=" ++ path]
  /-- The letter and the path in one argument, with an equals sign between them. -/
  | letterEquals : NamesSource path ["-f=" ++ path]
  /-- The letter and the path in one argument. -/
  | letterJoined : path.toList.head? ≠ some '=' → NamesSource path ["-f" ++ path]

theorem NamesSource.group {path : String} {source : List String} (names : NamesSource path source)
    (solid : path ≠ "") : Item.Group source [.field .file path] := by
  have noFlags : Item.AreLettersOf [] [] := rfl
  cases names with
  | long plain => exact .field .file plain
  | letter plain => exact .letters noFlags (.apart rfl plain) (List.cons_ne_nil _ _) rfl
  | longEquals => exact .fieldEquals .file path
  | letterEquals =>
    exact .letters noFlags (.equals path rfl) (List.cons_ne_nil _ _) String.toList_append
  | letterJoined unequal =>
    exact .letters noFlags (.joined path rfl solid unequal) (List.cons_ne_nil _ _)
      String.toList_append

end Reading

/-! ### Settings with selectors and a source -/

namespace Options

/-- The arguments say how selectors are shown. They name neither selectors nor a source. -/
structure AreSetBy (options : Options) (settings : List String) : Prop where
  accepted : Request.ofArguments settings = .ok (.run options)
  free : "--" ∉ settings
  gathered : options.interactive = false
  unselected : options.selectors = []
  unsourced : options.file = none

variable {options : Options} {settings : List String}

/-- What the settings are made of. -/
theorem AreSetBy.exists_items (set : options.AreSetBy settings) :
    ∃ items, Item.Spells settings items ∧ Item.AreAccepted items ∧ ofItems items = options ∧
      .flag .interactive ∉ items ∧ Item.selectors items = [] ∧ Item.values .file items = [] := by
  obtain ⟨items, spells⟩ := Request.exists_spells set.accepted
  obtain ⟨accepted, rfl⟩ := (Request.ofArguments_eq_run_iff spells).mp set.accepted
  exact ⟨items, spells, accepted, rfl, of_decide_eq_false set.gathered, set.unselected,
    List.head?_eq_none_iff.mp set.unsourced⟩

/-- Selectors can be added behind two hyphens. -/
theorem AreSetBy.ofArguments_selectors (set : options.AreSetBy settings)
    (selectors : List String) :
    Request.ofArguments (settings ++ "--" :: selectors) =
      .ok (.run { options with selectors := selectors }) := by
  obtain ⟨items, spells, accepted, rfl, gathered, unselected, _⟩ := set.exists_items
  refine (Request.ofArguments_eq_run_iff (spells.append set.free (.selectors selectors))).mpr
    ⟨accepted.append ?_ ?_ ?_ ?_, ?_⟩
  · exact List.forall_mem_map.mpr fun _ _ => trivial
  · simp
  · simp
  · simp [gathered]
  · simp [ofItems, unselected]

/-- A source can be added, and then selectors behind two hyphens. -/
theorem AreSetBy.ofArguments_source (set : options.AreSetBy settings) {path : String}
    {source : List String} (names : Reading.NamesSource path source) (solid : path ≠ "")
    (selectors : List String) :
    Request.ofArguments (settings ++ source ++ "--" :: selectors) =
      .ok (.run { options with selectors := selectors, file := some path }) := by
  obtain ⟨items, spells, accepted, rfl, gathered, unselected, unsourced⟩ := set.exists_items
  have spellsMore := spells.append set.free (.group (names.group solid) (.selectors selectors))
  rw [← List.append_assoc] at spellsMore
  have fresh := Item.field_not_mem_singles unsourced
  refine (Request.ofArguments_eq_run_iff spellsMore).mpr ⟨accepted.append ?_ ?_ ?_ ?_, ?_⟩
  · exact List.forall_mem_append.mpr
      ⟨List.forall_mem_singleton.mpr solid, List.forall_mem_map.mpr fun _ _ => trivial⟩
  · simp [Item.single?]
  · simp [Item.single?, fresh]
  · simp [gathered]
  · simp [ofItems, unselected, unsourced, Item.value?, Item.selector?]

end Options

end SelectorLexemes
