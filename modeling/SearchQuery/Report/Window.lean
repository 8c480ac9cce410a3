import SearchQuery.Report.Excerpt
import SearchQuery.Report.Ink

/-!
# Windows

A report is no wider than its room.  The window says which columns of the lines it shows: all of
them if they fit, and otherwise those around the marks, with their labels if these fit too.  Blanks
that all lines start with are given up before anything else, down to a few.

`Window.draw` draws a line as far as the window shows it, with dots over the ends that are cut off.
-/

namespace SearchQuery

/-- What the marked lines of a report ask for, in columns. -/
structure Extent where
  /-- The blanks that each line starts with. -/
  indent : Nat
  /-- Where the first mark starts. -/
  start : Nat
  /-- Where the last mark ends. -/
  stop : Nat
  /-- Where the last label ends. -/
  labelStop : Nat
  /-- Where the longest line ends. -/
  lineStop : Nat
deriving DecidableEq

namespace Extent

/-- The least of some numbers, zero if there are none. -/
def least (numbers : List Nat) : Nat := numbers.min?.getD 0

/-- The greatest of some numbers, zero if there are none. -/
def greatest (numbers : List Nat) : Nat := numbers.foldr max 0

/-- The extent of marked lines.  Blanks that a mark points at are not part of the indent. -/
def ofMarked (marked : List MarkedLine) : Extent :=
  let start := least (marked.map (·.mark.start))
  { indent := min (least (marked.filterMap (·.line.indent?))) start
    start
    stop := greatest (marked.map (·.mark.stop))
    labelStop := greatest (marked.map (·.labelStop))
    lineStop := greatest (marked.map fun m => Text.displayWidth m.line.text) }

end Extent

/-- The columns of the lines that a report shows. -/
structure Window where
  /-- How many columns there is room for. -/
  room : Nat
  /-- The first column that is shown. -/
  left : Nat
  /-- The column up to which lines too long for the room are shown. -/
  right : Nat
deriving DecidableEq

namespace Window

/-- The columns that are kept free on both sides of the marks. -/
def clearance : Nat := 6

/-- An indent that goes beyond the clearance by no more than this is shown whole. -/
def longIndent : Nat := 20

/-- What is shown beyond the clearance of a longer indent. -/
def keptIndent : Nat := 16

/-- As many columns from a column on as there is room for. -/
def startingAt (room left : Nat) : Window := ⟨room, left, left + room⟩

/-- The window for an extent.  A long indent is cut first.  If the lines are still too long, the
window shows the first of these that there is room for: everything from the indent to the end of the
labels, the marks with their labels in the middle, the marks a bit left of the middle.  Marks too
long for the room are shown whole all the same. -/
def ofExtent (room : Nat) (extent : Extent) : Window :=
  let indent := extent.indent - clearance
  let start := extent.start - clearance
  let stop := extent.stop + clearance
  let labelStop := extent.labelStop + clearance
  let left := if longIndent < indent then indent - keptIndent else 0
  if extent.lineStop - left ≤ room then ⟨room, left, max extent.lineStop left⟩
  else if labelStop - indent ≤ room then startingAt room indent
  else if labelStop - start ≤ room then
    startingAt room (start - (room - (labelStop - start)) / 2)
  else if stop - start ≤ room then
    startingAt room (start - (room - (stop - start)) / 5 * 2)
  else ⟨room, start, stop⟩

/-- The dots that stand for what is left out. -/
def dots : List Char := ['.', '.', '.']

/-- Draws a printed line from a column of a row on, as far as the window shows it.  Also tells how
many columns of the line are left out in front.  Dots take the place of the characters at a cut; a
wide character that does not fit under them leaves a blank. -/
def draw (window : Window) (row : Row) (column : Nat) (text : List Char) : Row × Nat :=
  let width := Text.displayWidth text
  let left := min window.left width
  let right := if width - window.left ≤ window.room then width else min width window.right
  let (lost, rest) := Text.reaching left text
  let shown := Text.fitting (right - left) rest
  let (covered, visible) := if window.left = 0 then ([], shown) else Text.reaching dots.length shown
  let start := column + Text.displayWidth covered
  let row := if window.left = 0 then row else row.put column .gutter dots
  let row := row.put start .plain visible
  if width ≤ right then (row, Text.displayWidth lost)
  else
    let coveredLast := (Text.reaching dots.length shown.reverse).1
    (row.put (start + visible.length - coveredLast.length) .gutter dots, Text.displayWidth lost)

end Window

end SearchQuery
