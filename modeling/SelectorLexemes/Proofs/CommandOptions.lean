/-
This file says what the items of a command line set. A flag is raised when it is among the items,
a field has the value that it is given, and selectors keep their order. Items are accepted when
each of them makes sense on its own, no switch is given twice apart from the categories, which add
up, and an interactive session is asked for alone.

Taking up one more item succeeds when the item makes sense and its switch is new, and then it sets
what the definition says. The rest is an induction on the items. Together with the spelling of
items this says exactly which command lines are accepted and what they ask for.
-/

import SelectorLexemes.Proofs.CommandItems

namespace SelectorLexemes

namespace Item

/-! ### What items say -/

/-- The switch that an item gives, if it may be given only once. -/
def single? : Item → Option Switch
  | .flag plain => some (.flag plain)
  | .field .only _ => none
  | .field valued _ => some (.field valued)
  | .selector _ => none

/-- The item makes sense in a run that shows selectors. -/
def IsValid : Item → Prop
  | .flag plain => plain ≠ .help ∧ plain ≠ .version
  | .field .file path => path ≠ ""
  | .field .format name => Format.ofName? name ≠ none
  | .field .only name => Category.ofName? name ≠ none
  | .field .color name => ColorChoice.ofName? name ≠ none
  | .selector _ => True

/-- The value that an item gives to a field. -/
def value? (valued : Field) : Item → Option String
  | .field other value => if other = valued then some value else none
  | .flag _ | .selector _ => none

/-- The values that a field is given. -/
def values (valued : Field) (items : List Item) : List String :=
  items.filterMap (value? valued)

/-- The selector that an item is. -/
def selector? : Item → Option String
  | .selector text => some text
  | .flag _ | .field _ _ => none

/-- The selectors among items. -/
def selectors (items : List Item) : List String :=
  items.filterMap selector?

/-- The switches that may be given only once, as often as they are given. -/
def singles (items : List Item) : List Switch :=
  items.filterMap single?

variable (front back : List Item)

@[simp] theorem values_append (valued : Field) :
    values valued (front ++ back) = values valued front ++ values valued back :=
  List.filterMap_append

@[simp] theorem selectors_append : selectors (front ++ back) = selectors front ++ selectors back :=
  List.filterMap_append

@[simp] theorem singles_append : singles (front ++ back) = singles front ++ singles back :=
  List.filterMap_append

@[simp] theorem values_nil (valued : Field) : values valued [] = [] := rfl

@[simp] theorem selectors_nil : selectors [] = [] := rfl

@[simp] theorem singles_nil : singles [] = [] := rfl

@[simp] theorem values_cons (valued : Field) (item : Item) (rest : List Item) :
    values valued (item :: rest) = (item.value? valued).toList ++ values valued rest := by
  unfold values
  cases given : item.value? valued <;> simp [given]

@[simp] theorem selectors_cons (item : Item) (rest : List Item) :
    selectors (item :: rest) = item.selector?.toList ++ selectors rest := by
  unfold selectors
  cases given : item.selector? <;> simp [given]

@[simp] theorem singles_cons (item : Item) (rest : List Item) :
    singles (item :: rest) = item.single?.toList ++ singles rest := by
  unfold singles
  cases given : item.single? <;> simp [given]

@[simp] theorem values_map_selector (valued : Field) (texts : List String) :
    values valued (texts.map .selector) = [] := by
  rw [values, List.filterMap_map]
  exact List.filterMap_eq_nil_iff.mpr fun _ _ => rfl

@[simp] theorem selectors_map_selector (texts : List String) :
    selectors (texts.map .selector) = texts := by
  rw [selectors, List.filterMap_map]
  exact List.filterMap_some

@[simp] theorem singles_map_selector (texts : List String) :
    singles (texts.map .selector) = [] := by
  rw [singles, List.filterMap_map]
  exact List.filterMap_eq_nil_iff.mpr fun _ _ => rfl

end Item

/-- The options that items stand for. -/
def Options.ofItems (items : List Item) : Options where
  selectors := Item.selectors items
  file := (Item.values .file items).head?
  interactive := .flag .interactive ∈ items
  format := ((Item.values .format items).head?.bind Format.ofName?).getD .json
  unique := .flag .unique ∈ items
  only := (Item.values .only items).filterMap Category.ofName?
  color := ((Item.values .color items).head?.bind ColorChoice.ofName?).getD .automatic
  quiet := .flag .quiet ∈ items

/-- The items make up a command line that is accepted. -/
structure Item.AreAccepted (items : List Item) : Prop where
  /-- Every item makes sense. -/
  valid : ∀ item ∈ items, item.IsValid
  /-- No switch is given twice that may be given only once. -/
  single : (Item.singles items).Nodup
  /-- An interactive session is asked for alone. -/
  alone : .flag .interactive ∈ items → Item.selectors items = [] ∧ Item.values .file items = []

namespace Item

theorem only_not_mem_singles (items : List Item) : .field .only ∉ singles items := by
  intro member
  obtain ⟨item, _, single⟩ := List.mem_filterMap.mp member
  unfold single? at single
  split at single <;> simp_all

theorem values_eq_nil {valued : Field} {items : List Item} (other : valued ≠ .only)
    (fresh : .field valued ∉ singles items) : values valued items = [] := by
  refine List.filterMap_eq_nil_iff.mpr fun item member => ?_
  by_contra given
  refine fresh (List.mem_filterMap.mpr ⟨item, member, ?_⟩)
  cases item with
  | flag | selector => exact absurd rfl given
  | field name value =>
    by_cases same : name = valued
    · subst same
      cases name with
      | only => exact absurd rfl other
      | file | format | color => rfl
    · exact absurd (if_neg same) given

end Item

namespace Reading

/-! ### Taking up one item -/

/-- The reading behind items. -/
def ofItems (items : List Item) : Reading where
  options := .ofItems items
  given := (Item.singles items).reverse

theorem raise_ofItems_iff {items : List Item} {flag : Flag} {next : Reading} :
    (ofItems items).raise flag = .ok next ↔
      Item.IsValid (.flag flag) ∧ .flag flag ∉ Item.singles items ∧
        ofItems (items ++ [.flag flag]) = next := by
  by_cases repeated : .flag flag ∈ Item.singles items
  · have given : .flag flag ∈ (ofItems items).given := List.mem_reverse.mpr repeated
    simp [raise, given, repeated]
  · have fresh : .flag flag ∉ (ofItems items).given := mt List.mem_reverse.mp repeated
    simp only [raise, if_neg fresh, repeated, not_false_eq_true, true_and]
    cases flag with
    | help | version => simp [Item.IsValid]
    | interactive | unique | quiet =>
      simp [Item.IsValid, ofItems, Options.ofItems, Item.value?, Item.selector?, Item.single?]

theorem assign_ofItems_iff {items : List Item} {field : Field} {value : String} {next : Reading} :
    (ofItems items).assign field value = .ok next ↔
      Item.IsValid (.field field value) ∧
        (∀ switch ∈ Item.single? (.field field value), switch ∉ Item.singles items) ∧
          ofItems (items ++ [.field field value]) = next := by
  by_cases repeated : .field field ∈ Item.singles items
  · have given : .field field ∈ (ofItems items).given := List.mem_reverse.mpr repeated
    cases field with
    | only => exact absurd repeated (Item.only_not_mem_singles items)
    | file | format | color => simp [assign, given, repeated, Item.single?]
  · have fresh : .field field ∉ (ofItems items).given := mt List.mem_reverse.mp repeated
    simp only [assign, if_neg fresh]
    cases field with
    | file =>
      have none := Item.values_eq_nil (by decide) repeated
      by_cases empty : value = ""
      · simp [Item.IsValid, empty]
      · simp [Item.IsValid, empty, ofItems, Options.ofItems, Item.value?, Item.selector?,
          Item.single?, repeated, none]
    | format =>
      have none := Item.values_eq_nil (by decide) repeated
      cases named : Format.ofName? value <;>
        simp [Item.IsValid, named, ofItems, Options.ofItems, Item.value?, Item.selector?,
          Item.single?, repeated, none]
    | color =>
      have none := Item.values_eq_nil (by decide) repeated
      cases named : ColorChoice.ofName? value <;>
        simp [Item.IsValid, named, ofItems, Options.ofItems, Item.value?, Item.selector?,
          Item.single?, repeated, none]
    | only =>
      cases named : Category.ofName? value <;>
        simp [Item.IsValid, named, ofItems, Options.ofItems, Item.value?, Item.selector?,
          Item.single?]

theorem effect_ofItems_iff {items : List Item} {item : Item} {next : Reading} :
    (ofItems items).effect item = .ok next ↔
      item.IsValid ∧ (∀ switch ∈ item.single?, switch ∉ Item.singles items) ∧
        ofItems (items ++ [item]) = next := by
  cases item with
  | selector text =>
    simp [effect, withSelectors, Item.IsValid, ofItems, Options.ofItems, Item.value?,
      Item.selector?, Item.single?]
  | flag flag =>
    rw [effect, raise_ofItems_iff]
    simp [Item.single?]
  | field field value => exact assign_ofItems_iff

/-! ### Taking up all items -/

theorem foldlM_ofItems_iff {front items : List Item} (once : (Item.singles front).Nodup)
    {reading : Reading} :
    items.foldlM effect (ofItems front) = .ok reading ↔
      (∀ item ∈ items, item.IsValid) ∧ (Item.singles (front ++ items)).Nodup ∧
        ofItems (front ++ items) = reading := by
  induction items generalizing front with
  | nil => simp [once, pure, Except.pure]
  | cons item rest inductionHypothesis =>
    have onceMore : (Item.singles (front ++ [item])).Nodup ↔
        ∀ switch ∈ item.single?, switch ∉ Item.singles front := by
      cases single : item.single? with
      | none => simp [single, once]
      | some switch => simp [single, once, List.nodup_append, List.forall_mem_ne']
    rw [List.foldlM_cons, bind_eq_ok, List.forall_mem_cons, List.append_cons]
    constructor
    · rintro ⟨middle, done, doneRest⟩
      obtain ⟨valid, fresh, rfl⟩ := effect_ofItems_iff.mp done
      obtain ⟨validRest, single, same⟩ := (inductionHypothesis (onceMore.mpr fresh)).mp doneRest
      exact ⟨⟨valid, validRest⟩, single, same⟩
    · rintro ⟨⟨valid, validRest⟩, single, same⟩
      have onceFront : (Item.singles (front ++ [item])).Nodup := by
        rw [Item.singles_append] at single
        exact (List.nodup_append.mp single).1
      exact ⟨_, effect_ofItems_iff.mpr ⟨valid, onceMore.mp onceFront, rfl⟩,
        (inductionHypothesis onceFront).mpr ⟨validRest, single, same⟩⟩

theorem foldlM_effect_iff {items : List Item} {reading : Reading} :
    items.foldlM effect {} = .ok reading ↔
      (∀ item ∈ items, item.IsValid) ∧ (Item.singles items).Nodup ∧ ofItems items = reading := by
  have once : (Item.singles []).Nodup := List.nodup_nil
  exact foldlM_ofItems_iff once

theorem conflicts_ofItems_iff (items : List Item) :
    conflicts (.ofItems items) = false ↔
      (.flag .interactive ∈ items → Item.selectors items = [] ∧ Item.values .file items = []) := by
  simp [conflicts, Options.ofItems]

end Reading

namespace Request

theorem ofArguments_eq_run_iff_takeAll {arguments : List String} {options : Options} :
    ofArguments arguments = .ok (.run options) ↔
      ∃ reading, Reading.takeAll {} arguments = .ok reading ∧
        Reading.conflicts reading.options = false ∧ reading.options = options := by
  unfold ofArguments
  cases taken : Reading.takeAll {} arguments with
  | error interruption => cases interruption <;> simp
  | ok reading =>
    by_cases conflict : Reading.conflicts reading.options = true
    · simp [conflict]
    · simp [conflict]

/-- A command line is accepted when the items that it spells are, and it asks for a run with the
options that they stand for. -/
theorem ofArguments_eq_run_iff {arguments : List String} {items : List Item}
    (spells : Item.Spells arguments items) {options : Options} :
    ofArguments arguments = .ok (.run options) ↔
      Item.AreAccepted items ∧ Options.ofItems items = options := by
  rw [ofArguments_eq_run_iff_takeAll, Reading.takeAll_of_spells spells]
  constructor
  · rintro ⟨reading, taken, alone, rfl⟩
    obtain ⟨valid, single, rfl⟩ := Reading.foldlM_effect_iff.mp taken
    exact ⟨⟨valid, single, (Reading.conflicts_ofItems_iff items).mp alone⟩, rfl⟩
  · rintro ⟨⟨valid, single, alone⟩, rfl⟩
    exact ⟨.ofItems items, Reading.foldlM_effect_iff.mpr ⟨valid, single, rfl⟩,
      (Reading.conflicts_ofItems_iff items).mpr alone, rfl⟩

theorem exists_spells {arguments : List String} {options : Options}
    (accepted : ofArguments arguments = .ok (.run options)) :
    ∃ items, Item.Spells arguments items := by
  obtain ⟨reading, taken, _⟩ := ofArguments_eq_run_iff_takeAll.mp accepted
  exact Reading.exists_spells taken

end Request

end SelectorLexemes
