import SearchQuery.Text.Bytes

/-!
# Lines and columns

A position is a line and a column, both counted from one.  The column counts characters, not
bytes, and a line ends at `\n`.  `Position.ofOffset` is defined for every byte count: one past the
end names the end, and one inside a character names the start of that character.
-/

namespace SearchQuery

/-- A line and a column in it, counted from one, the column in characters. -/
structure Position where
  line : Nat
  column : Nat
deriving DecidableEq, Inhabited

namespace Position

/-- The position at the start of a text. -/
def origin : Position := ⟨1, 1⟩

/-- The position after one more character. -/
def advance (p : Position) (c : Char) : Position :=
  if c = '\n' then ⟨p.line + 1, 1⟩ else ⟨p.line, p.column + 1⟩

/-- The position reached by a text that starts at the origin. -/
def after (text : List Char) : Position := text.foldl advance origin

/-- The position of the place `offset` bytes into the text. -/
def ofOffset (text : List Char) (offset : Nat) : Position := after (Text.fittingIn offset text)

@[simp] theorem after_append_singleton (text : List Char) (c : Char) :
    after (text ++ [c]) = (after text).advance c := by
  simp [after]

/-- At a place between characters the position is the one after the text before it. -/
theorem ofOffset_append (front back : List Char) :
    ofOffset (front ++ back) (Text.byteSize front) = after front := by
  rw [ofOffset, Text.fittingIn_append]

end Position

end SearchQuery
