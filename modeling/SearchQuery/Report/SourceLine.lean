import SearchQuery.Text.Span
import SearchQuery.Text.Width

/-!
# The lines of a source

A source is shown line by line.  `SourceLine.ofText` splits it after every `\n`, and `Spot.find?`
finds the line that a place belongs to and the column it is shown at.  A place at the end of the
source belongs to the last line, even after a final line break.

`SourceLine.indent?` counts the blanks that a line starts with.
-/

namespace SearchQuery

namespace Text

/-- The characters that count as blank at the ends of a line. -/
def isSpace (c : Char) : Bool :=
  CodeRange.covers
    [(0x9, 0xD), (0x20, 0x20), (0x85, 0x85), (0xA0, 0xA0), (0x1680, 0x1680), (0x2000, 0x200A),
     (0x2028, 0x2029), (0x202F, 0x202F), (0x205F, 0x205F), (0x3000, 0x3000)] c.toNat

/-- A text without the blanks at its ends. -/
def trim (text : List Char) : List Char :=
  ((text.dropWhile isSpace).reverse.dropWhile isSpace).reverse

end Text

/-- A line of a source. -/
structure SourceLine where
  /-- The line without its line break. -/
  text : List Char
  /-- The place where the line starts. -/
  start : Nat
  /-- The place after the line and its line break. -/
  stop : Nat
deriving DecidableEq, Inhabited

namespace SourceLine

/-- The columns of the blanks that a line starts with, four for a tab and one for each other; `none`
for a line of blanks. -/
def indent? (line : SourceLine) : Option Nat :=
  if line.text.all Text.isSpace then none
  else
    some ((line.text.takeWhile Text.isSpace).foldr
      (fun c width => (if c = '\t' then 4 else 1) + width) 0)

/-- The place where the line break starts. -/
def textStop (line : SourceLine) : Nat := line.start + Text.byteSize line.text

/-- The line that holds the characters in `reversed`, latest first, and ends in `\n`.  A carriage
return before it belongs to the line break. -/
def broken (start : Nat) (reversed : List Char) : SourceLine :=
  let text :=
    match reversed with
    | '\r' :: more => more
    | all => all
  ⟨text.reverse, start, start + Text.byteSize reversed + 1⟩

/-- The lines of a text of which the line that starts at `start` is begun; its characters so far
are given latest first. -/
def split (start : Nat) (reversed : List Char) : List Char → List SourceLine
  | [] =>
    match reversed with
    | [] => []
    | _ => [⟨reversed.reverse, start, start + Text.byteSize reversed⟩]
  | c :: rest =>
    if c = '\n' then
      let line := broken start reversed
      line :: split line.stop [] rest
    else split start (c :: reversed) rest

/-- The lines of a text; an empty text has one empty line. -/
def ofText (text : List Char) : List SourceLine :=
  match split 0 [] text with
  | [] => [⟨[], 0, 0⟩]
  | lines => lines

end SourceLine

/-- A place as it is shown: a line, counted from zero, and a column in characters and in display
columns. -/
structure Spot where
  line : Nat
  char : Nat
  column : Nat
deriving DecidableEq

namespace Spot

/-- The index of the line that a place belongs to. -/
def lineOf (lines : List SourceLine) (offset : Nat) : Nat :=
  (lines.findIdx? fun line => line.start ≤ offset && offset < line.stop).getD (lines.length - 1)

/-- Where a place is shown; `none` inside a character.  A place after the text of its line is shown
right after the text. -/
def find? (lines : List SourceLine) (offset : Nat) : Option Spot := do
  let i := lineOf lines offset
  let line ← lines[i]?
  let size := Text.byteSize line.text
  let before ← Text.takeBytes? (min (offset - line.start) size) line.text
  pure ⟨i, before.length, Text.displayWidth before⟩

end Spot

end SearchQuery
