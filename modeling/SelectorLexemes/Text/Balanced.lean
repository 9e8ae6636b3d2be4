/-
This file cuts a parenthesised argument off the front of a text. The parentheses are
counted and nothing else is looked at: quotes, brackets and escapes inside the
argument have no meaning. An argument that never balances takes the whole text.
-/

namespace SelectorLexemes.Text

/-- Splits the text behind the first closing parenthesis that brings the count of open
ones to zero, when `depth` of them are open at the start. -/
def splitBalanced (depth : Nat) : List Char → List Char × List Char
  | [] => ([], [])
  | mark :: rest =>
    if mark = '(' then
      let (taken, left) := splitBalanced (depth + 1) rest
      (mark :: taken, left)
    else if mark = ')' then
      match depth - 1 with
      | 0 => ([mark], rest)
      | remaining + 1 =>
        let (taken, left) := splitBalanced (remaining + 1) rest
        (mark :: taken, left)
    else
      let (taken, left) := splitBalanced depth rest
      (mark :: taken, left)

/-- The two parts are the text. -/
theorem splitBalanced_append (depth : Nat) (text : List Char) :
    (splitBalanced depth text).1 ++ (splitBalanced depth text).2 = text := by
  fun_induction splitBalanced depth text <;> simp_all

end SelectorLexemes.Text
