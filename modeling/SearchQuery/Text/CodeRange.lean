/-!
# Character tables

Classes of characters that a standard lists are kept as tables of code point ranges: inclusive,
ascending and disjoint.  `CodeRange.covers` searches such a table and stops at the first range that
starts beyond the character, so that common characters are found or dismissed early.
-/

namespace SearchQuery.Text

/-- An inclusive range of code points. -/
abbrev CodeRange := Nat × Nat

/-- Whether one of the ranges holds the code point; the ranges must ascend. -/
def CodeRange.covers : List CodeRange → Nat → Bool
  | [], _ => false
  | (low, high) :: ranges, code =>
    if code < low then false else code ≤ high || covers ranges code

end SearchQuery.Text
