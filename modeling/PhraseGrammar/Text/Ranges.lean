/-!
# PhraseGrammar.Text.Ranges

Character classes as tables of code point ranges.

* `inRanges` — membership in a table whose ranges are disjoint and ascend.
-/

namespace PhraseGrammar.Text

/-- Whether a code point lies in one of the ranges; the search stops at the first range above it. -/
def inRanges : List (Nat × Nat) → Nat → Bool
  | [], _ => false
  | (low, high) :: rest, n =>
    if n < low then false
    else if n ≤ high then true
    else inRanges rest n

end PhraseGrammar.Text
