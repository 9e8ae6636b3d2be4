/-
This file says what an argument in parentheses is without following a count along the
text. An argument begins with an opening parenthesis, none of its proper parts balances,
and either it balances itself or the text ends with it.

The cutter of `Text/Balanced.lean` keeps a running count instead. The two agree because
the count after each character is the number of parentheses that are still open, and it
reaches zero exactly where a part balances for the first time. In particular the count is
never lowered below zero: a parenthesis is only ever closed while one is open.
-/

import Mathlib.Data.List.Infix
import SelectorLexemes.Text.Balanced

namespace SelectorLexemes.Text

/-! ### Counting parentheses -/

/-- As many parentheses are closed as are opened. -/
def IsBalanced (text : List Char) : Prop :=
  text.count '(' = text.count ')'

/-- Behind the text some parentheses are open, when `depth` of them are open before it. -/
def LeavesOpen (depth : Nat) (text : List Char) : Prop :=
  text.count ')' < depth + text.count '('

/-- Behind the text no parenthesis is open, when `depth` of them are open before it. -/
def Closes (depth : Nat) (text : List Char) : Prop :=
  text.count ')' = depth + text.count '('

/-- A text that is an argument when `next` is the character behind it, or when the end of
the selector is behind it. The parentheses balance for the first time where the argument
ends; only an argument that the end of the selector cuts short need not balance. -/
structure IsArgument (argument : List Char) (next : Option Char) : Prop where
  /-- The argument begins with a parenthesis. -/
  opens : argument.head? = some '('
  /-- No part that ends earlier balances. -/
  earliest : ∀ part, part <+: argument → part ≠ [] → part ≠ argument → ¬IsBalanced part
  /-- The argument balances unless the selector ends with it. -/
  ends : IsBalanced argument ∨ next = none

/-- A text that leaves the count of open parentheses as it is and never lowers it below
what it was before the text. -/
structure IsNested (text : List Char) : Prop where
  /-- No parenthesis is closed that was not opened in the text. -/
  ordered : ∀ part, part <+: text → part.count ')' ≤ part.count '('
  /-- All parentheses that are opened in the text are closed in it. -/
  balanced : IsBalanced text

instance (text : List Char) : Decidable (IsBalanced text) :=
  inferInstanceAs (Decidable (text.count '(' = text.count ')'))

instance (argument : List Char) (next : Option Char) : Decidable (IsArgument argument next) :=
  decidable_of_iff
    (argument.head? = some '(' ∧
      (∀ part ∈ argument.inits, part ≠ [] → part ≠ argument → ¬IsBalanced part) ∧
      (IsBalanced argument ∨ next = none))
    ⟨fun ⟨opens, earliest, ends⟩ =>
      ⟨opens, fun part isPart => earliest part ((List.mem_inits part argument).mpr isPart), ends⟩,
    fun ⟨opens, earliest, ends⟩ =>
      ⟨opens, fun part isPart => earliest part ((List.mem_inits part argument).mp isPart), ends⟩⟩

instance (text : List Char) : Decidable (IsNested text) :=
  decidable_of_iff
    ((∀ part ∈ text.inits, part.count ')' ≤ part.count '(') ∧ IsBalanced text)
    ⟨fun ⟨ordered, balanced⟩ =>
      ⟨fun part isPart => ordered part ((List.mem_inits part text).mpr isPart), balanced⟩,
    fun ⟨ordered, balanced⟩ =>
      ⟨fun part isPart => ordered part ((List.mem_inits part text).mp isPart), balanced⟩⟩

/-- The number of open parentheses behind a character. -/
def depthAfter (depth : Nat) (mark : Char) : Nat :=
  if mark = '(' then depth + 1 else if mark = ')' then depth - 1 else depth

theorem leavesOpen_nil (depth : Nat) : LeavesOpen depth [] ↔ 0 < depth := by
  simp [LeavesOpen]

theorem closes_nil (depth : Nat) : Closes depth [] ↔ depth = 0 := by
  simp [Closes, eq_comm]

/-- A character moves the count of open parentheses by what it adds to the two numbers. -/
theorem depthAfter_add_count (depth : Nat) (positive : 0 < depth) (mark : Char)
    (text : List Char) :
    depthAfter depth mark + text.count '(' + (mark :: text).count ')' =
      depth + (mark :: text).count '(' + text.count ')' := by
  unfold depthAfter
  by_cases opening : mark = '('
  · subst opening
    rw [if_pos rfl, List.count_cons_self, List.count_cons_of_ne (by decide)]
    omega
  rw [if_neg opening, List.count_cons_of_ne opening]
  by_cases closing : mark = ')'
  · subst closing
    rw [if_pos rfl, List.count_cons_self]
    omega
  · rw [if_neg closing, List.count_cons_of_ne closing]

theorem leavesOpen_cons (depth : Nat) (positive : 0 < depth) (mark : Char) (text : List Char) :
    LeavesOpen depth (mark :: text) ↔ LeavesOpen (depthAfter depth mark) text := by
  have counts := depthAfter_add_count depth positive mark text
  unfold LeavesOpen
  omega

theorem closes_cons (depth : Nat) (positive : 0 < depth) (mark : Char) (text : List Char) :
    Closes depth (mark :: text) ↔ Closes (depthAfter depth mark) text := by
  have counts := depthAfter_add_count depth positive mark text
  unfold Closes
  omega

/-- A count that starts above zero stays above zero as long as no part brings it to zero:
a character lowers it by at most one. -/
theorem leavesOpen_of_never_closes (depth : Nat) (positive : 0 < depth) (text : List Char)
    (never : ∀ part, part <+: text → ¬Closes depth part) : LeavesOpen depth text := by
  induction text generalizing depth with
  | nil => exact (leavesOpen_nil depth).mpr positive
  | cons mark rest inductionHypothesis =>
    have stillOpen : 0 < depthAfter depth mark := by
      by_contra zero
      refine never [mark] ((List.prefix_cons_inj mark).mpr List.nil_prefix) ?_
      rw [closes_cons depth positive, closes_nil]
      omega
    rw [leavesOpen_cons depth positive]
    refine inductionHypothesis (depthAfter depth mark) stillOpen fun part isPart closes => ?_
    refine never (mark :: part) ((List.prefix_cons_inj mark).mpr isPart) ?_
    rwa [closes_cons depth positive]

/-! ### Cutting with some parentheses open -/

/-- The text that is cut off with `depth` parentheses open, with the text that is left
behind it: some stay open behind all proper parts, and none is open behind the whole
unless nothing is left. -/
structure CutsOff (depth : Nat) (taken left : List Char) : Prop where
  /-- Parentheses stay open up to the end. -/
  inside : ∀ part, part <+: taken → part ≠ taken → LeavesOpen depth part
  /-- At the end none is open, or nothing is left. -/
  atEnd : Closes depth taken ∨ LeavesOpen depth taken ∧ left = []

theorem cutsOff_nil_iff (depth : Nat) (positive : 0 < depth) (left : List Char) :
    CutsOff depth [] left ↔ left = [] := by
  constructor
  · rintro ⟨_, closes | ⟨_, nothing⟩⟩
    · rw [closes_nil] at closes
      omega
    · exact nothing
  · intro nothing
    refine ⟨fun part isPart proper => absurd (List.prefix_nil.mp isPart) proper, Or.inr ?_⟩
    exact ⟨(leavesOpen_nil depth).mpr positive, nothing⟩

/-- With no parenthesis open nothing is cut off. -/
theorem cutsOff_zero_iff (taken left : List Char) : CutsOff 0 taken left ↔ taken = [] := by
  constructor
  · intro cut
    by_contra some
    have impossible := cut.inside [] List.nil_prefix (Ne.symm some)
    rw [leavesOpen_nil] at impossible
    omega
  · rintro rfl
    exact ⟨fun part isPart proper => absurd (List.prefix_nil.mp isPart) proper,
      Or.inl ((closes_nil 0).mpr rfl)⟩

theorem cutsOff_cons_iff (depth : Nat) (positive : 0 < depth) (mark : Char)
    (taken left : List Char) :
    CutsOff depth (mark :: taken) left ↔ CutsOff (depthAfter depth mark) taken left := by
  constructor
  · rintro ⟨inside, atEnd⟩
    rw [closes_cons depth positive, leavesOpen_cons depth positive] at atEnd
    refine ⟨fun part isPart proper => ?_, atEnd⟩
    rw [← leavesOpen_cons depth positive]
    exact inside (mark :: part) ((List.prefix_cons_inj mark).mpr isPart)
      fun same => proper (List.cons.inj same).2
  · rintro ⟨inside, atEnd⟩
    rw [← closes_cons depth positive, ← leavesOpen_cons depth positive] at atEnd
    refine ⟨fun part isPart proper => ?_, atEnd⟩
    rcases List.prefix_cons_iff.mp isPart with rfl | ⟨rest, rfl, isRest⟩
    · exact (leavesOpen_nil depth).mpr positive
    · rw [leavesOpen_cons depth positive]
      exact inside rest isRest fun same => proper (same ▸ rfl)

theorem splitBalanced_cons (depth : Nat) (positive : 0 < depth) (mark : Char)
    (rest : List Char) :
    splitBalanced depth (mark :: rest) =
      if depthAfter depth mark = 0 then
        ([mark], rest)
      else
        (mark :: (splitBalanced (depthAfter depth mark) rest).1,
          (splitBalanced (depthAfter depth mark) rest).2) := by
  unfold depthAfter
  rw [splitBalanced]
  by_cases opening : mark = '('
  · rw [if_pos opening, if_pos opening, if_neg (Nat.succ_ne_zero depth)]
  rw [if_neg opening, if_neg opening]
  by_cases closing : mark = ')'
  · rw [if_pos closing, if_pos closing]
    cases depth - 1 with
    | zero => rfl
    | succ remaining => rfl
  · rw [if_neg closing, if_neg closing, if_neg (Nat.ne_of_gt positive)]

/-- The running count cuts off the text that the parentheses tell to cut off. -/
theorem splitBalanced_eq_iff (depth : Nat) (positive : 0 < depth) (taken left : List Char) :
    splitBalanced depth (taken ++ left) = (taken, left) ↔ CutsOff depth taken left := by
  induction taken generalizing depth with
  | nil =>
    rw [cutsOff_nil_iff depth positive, List.nil_append]
    cases left with
    | nil => simp [splitBalanced]
    | cons mark rest =>
      rw [splitBalanced_cons depth positive]
      split <;> simp
  | cons mark rest inductionHypothesis =>
    rw [cutsOff_cons_iff depth positive, List.cons_append, splitBalanced_cons depth positive]
    by_cases zero : depthAfter depth mark = 0
    · rw [if_pos zero, zero, cutsOff_zero_iff]
      cases rest <;> simp
    · rw [if_neg zero, ← inductionHypothesis _ (Nat.pos_of_ne_zero zero)]
      simp [Prod.ext_iff]

theorem cutsOff_splitBalanced (depth : Nat) (positive : 0 < depth) (text : List Char) :
    CutsOff depth (splitBalanced depth text).1 (splitBalanced depth text).2 := by
  rw [← splitBalanced_eq_iff depth positive, splitBalanced_append]

/-! ### Arguments -/

theorem isBalanced_cons_iff (inner : List Char) :
    IsBalanced ('(' :: inner) ↔ Closes 1 inner := by
  unfold IsBalanced Closes
  rw [List.count_cons_self, List.count_cons_of_ne (by decide)]
  omega

/-- A text is an argument exactly when it is what a count from its first parenthesis cuts
off. -/
theorem isArgument_cons_iff (inner left : List Char) :
    IsArgument ('(' :: inner) left.head? ↔ CutsOff 1 inner left := by
  constructor
  · rintro ⟨_, earliest, ends⟩
    have never : ∀ part, part <+: inner → part ≠ inner → ¬Closes 1 part := by
      intro part isPart proper closes
      refine earliest ('(' :: part) ((List.prefix_cons_inj _).mpr isPart)
        (List.cons_ne_nil _ _) (fun same => proper (List.cons.inj same).2) ?_
      exact (isBalanced_cons_iff part).mpr closes
    refine ⟨fun part isPart proper => ?_, ?_⟩
    · refine leavesOpen_of_never_closes 1 Nat.one_pos part fun shorter isShorter => ?_
      refine never shorter (isShorter.trans isPart) fun same => ?_
      exact proper (isPart.eq_of_length_le (same ▸ isShorter.length_le))
    · rw [isBalanced_cons_iff, List.head?_eq_none_iff] at ends
      by_cases closes : Closes 1 inner
      · exact Or.inl closes
      · refine Or.inr ⟨leavesOpen_of_never_closes 1 Nat.one_pos inner fun part isPart => ?_,
          ends.resolve_left closes⟩
        by_cases whole : part = inner
        · exact whole ▸ closes
        · exact never part isPart whole
  · rintro ⟨inside, atEnd⟩
    refine ⟨rfl, fun part isPart nonempty proper balanced => ?_, ?_⟩
    · obtain rfl | ⟨rest, rfl, isRest⟩ := List.prefix_cons_iff.mp isPart
      · exact nonempty rfl
      · have leaves := inside rest isRest fun same => proper (same ▸ rfl)
        rw [isBalanced_cons_iff] at balanced
        unfold LeavesOpen at leaves
        unfold Closes at balanced
        omega
    · rw [isBalanced_cons_iff, List.head?_eq_none_iff]
      exact atEnd.imp_right And.right

theorem splitBalanced_opening (rest : List Char) :
    splitBalanced 0 ('(' :: rest) =
      ('(' :: (splitBalanced 1 rest).1, (splitBalanced 1 rest).2) := by
  rw [splitBalanced, if_pos rfl]

/-- An argument is what is cut off in front of whatever it may stand in front of. -/
theorem splitBalanced_of_isArgument (argument left : List Char)
    (isArgument : IsArgument argument left.head?) :
    splitBalanced 0 (argument ++ left) = (argument, left) := by
  obtain ⟨inner, rfl⟩ := List.head?_eq_some_iff.mp isArgument.opens
  rw [isArgument_cons_iff, ← splitBalanced_eq_iff 1 Nat.one_pos] at isArgument
  rw [List.cons_append, splitBalanced_opening, isArgument]

/-- In parentheses a nested text is an argument, whatever is behind it. -/
theorem isArgument_of_isNested (inner : List Char) (nested : IsNested inner)
    (next : Option Char) : IsArgument ('(' :: (inner ++ [')'])) next := by
  refine ⟨rfl, fun part isPart nonempty proper balanced => ?_, Or.inl ?_⟩
  · obtain rfl | ⟨rest, rfl, isRest⟩ := List.prefix_cons_iff.mp isPart
    · exact nonempty rfl
    rcases List.prefix_concat_iff.mp isRest with rfl | within
    · exact proper rfl
    · have ordered := nested.ordered rest within
      rw [isBalanced_cons_iff] at balanced
      unfold Closes at balanced
      omega
  · have balanced := nested.balanced
    rw [isBalanced_cons_iff]
    unfold IsBalanced at balanced
    unfold Closes
    rw [List.count_append, List.count_append, List.count_singleton_self,
      List.count_singleton, if_neg (by decide)]
    omega

/-- At the end of a selector a text that never balances is an argument. -/
theorem isArgument_of_never_balances (inner : List Char)
    (never : ∀ part, part <+: '(' :: inner → part ≠ [] → ¬IsBalanced part) :
    IsArgument ('(' :: inner) none :=
  ⟨rfl, fun part isPart nonempty _ => never part isPart nonempty, Or.inr rfl⟩

/-- Every text that begins with a parenthesis begins with an argument. -/
theorem exists_isArgument (text : List Char) (opens : text.head? = some '(') :
    ∃ argument left, text = argument ++ left ∧ IsArgument argument left.head? := by
  obtain ⟨rest, rfl⟩ := List.head?_eq_some_iff.mp opens
  refine ⟨'(' :: (splitBalanced 1 rest).1, (splitBalanced 1 rest).2, ?_, ?_⟩
  · rw [List.cons_append, splitBalanced_append]
  · rw [isArgument_cons_iff]
    exact cutsOff_splitBalanced 1 Nat.one_pos rest

/-! ### The count never falls below zero -/

/-- The cutter that gives up where a parenthesis closes while none is open. -/
def splitBalanced? (depth : Nat) : List Char → Option (List Char × List Char)
  | [] => some ([], [])
  | mark :: rest =>
    if mark = '(' then
      (splitBalanced? (depth + 1) rest).map fun (taken, left) => (mark :: taken, left)
    else if mark = ')' then
      match depth with
      | 0 => none
      | 1 => some ([mark], rest)
      | remaining + 2 =>
        (splitBalanced? (remaining + 1) rest).map fun (taken, left) => (mark :: taken, left)
    else
      (splitBalanced? depth rest).map fun (taken, left) => (mark :: taken, left)

/-- While a parenthesis is open the strict cutter does not give up. -/
theorem splitBalanced?_eq_some (depth : Nat) (positive : 0 < depth) (text : List Char) :
    splitBalanced? depth text = some (splitBalanced depth text) := by
  fun_induction splitBalanced? depth text with
  | case1 depth => rfl
  | case2 depth rest inductionHypothesis =>
    rw [inductionHypothesis (Nat.succ_pos depth), splitBalanced, if_pos rfl]
    rfl
  | case3 => exact absurd positive (Nat.lt_irrefl 0)
  | case4 => rfl
  | case5 rest remaining _ inductionHypothesis =>
    rw [inductionHypothesis (Nat.succ_pos remaining)]
    rfl
  | case6 depth mark rest notOpening notClosing inductionHypothesis =>
    rw [inductionHypothesis positive, splitBalanced, if_neg notOpening, if_neg notClosing]
    rfl

/-- No argument makes the strict cutter give up: its first parenthesis stays open until
its last one. -/
theorem splitBalanced?_opening (text : List Char) (opens : text.head? = some '(') :
    splitBalanced? 0 text = some (splitBalanced 0 text) := by
  obtain ⟨rest, rfl⟩ := List.head?_eq_some_iff.mp opens
  rw [splitBalanced?, if_pos rfl, splitBalanced?_eq_some 1 Nat.one_pos, splitBalanced_opening]
  rfl

end SelectorLexemes.Text
