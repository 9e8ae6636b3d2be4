/-
This file scans selectors. A scan is a cursor with the tokens found so far; it goes on
one segment at a time until the end of the selector. Scanning never fails, and a scan
that has come to the end stays as it is when it is run again.
-/

import SelectorLexemes.Segment.Reading

namespace SelectorLexemes

/-- A scan in progress. -/
structure Scan where
  /-- How far the scan has come. -/
  cursor : Cursor
  /-- The tokens found up to here, in the order of the selector. -/
  found : Array Token

namespace Scan

/-- The scan of a selector, before its first character. -/
def ofSelector (selector : String) : Scan :=
  ⟨Cursor.start selector.toList, #[]⟩

/-- The tokens found up to here. -/
def tokens (scan : Scan) : List Token :=
  scan.found.toList

/-- The scan with the token of one more segment. -/
def record (scan : Scan) (segment : Segment) (after : Cursor) : Scan :=
  match segment.token? with
  | none => ⟨after, scan.found⟩
  | some token => ⟨after, scan.found.push token⟩

@[simp] theorem cursor_record (scan : Scan) (segment : Segment) (after : Cursor) :
    (scan.record segment after).cursor = after := by
  unfold record
  split <;> rfl

@[simp] theorem tokens_record (scan : Scan) (segment : Segment) (after : Cursor) :
    (scan.record segment after).tokens = scan.tokens ++ segment.token?.toList := by
  unfold record tokens
  split <;> simp_all

/-- The scan taken to the end of the selector. -/
def run (scan : Scan) : Scan :=
  match _read : scan.cursor.readSegment? with
  | none => scan
  | some (segment, after) => (scan.record segment after).run
termination_by scan.cursor.ahead.length
decreasing_by
  rw [cursor_record]
  exact Cursor.ahead_length_lt_of_readSegment? _read

end Scan

/-- The tokens of a selector, in the order of the selector. -/
def scan (selector : String) : List Token :=
  (Scan.ofSelector selector).run.tokens

end SelectorLexemes
