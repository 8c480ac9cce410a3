import SearchQuery.Report.Diagnostic
import SearchQuery.Report.Window
import SearchQuery.Text.Split

/-!
# Snippets

A diagnostic is shown with the lines of the source that its span covers, the span underlined:

```
error: unexpected `^`
 --> q.txt:2:5
  |
2 | bar ^
  |     ^ expected a term
```

A span over several lines is drawn as a bar along their left side instead.  The bar starts under the
first character of the span, or beside its line if only blanks come before it there, and ends under
the last character:

```
1 |   foo "bar
  |  _____^
2 | | baz
  | |____^ expected a term
```

Dots stand for lines that are left out, for the ends of long lines, and for the middle of a very
long underline.

`Snippet.draw?` answers `none` for a span that does not start and end between characters of the
source.
-/

namespace SearchQuery

namespace Snippet

/-- A text as it is printed. -/
def printed (text : String) : List Char := Text.printable text.toList

/-- As many copies of a character as there are columns from one to another. -/
def stretch (c : Char) (start stop : Nat) : List Char := List.replicate (stop - start) c

/-! ## The frame -/

/-- The columns of a report.  Every row has the line number first, if any, and then a ruler; the
bar, if there is one, and the source follow. -/
structure Frame where
  /-- The number of digits of line numbers. -/
  digits : Nat
  hasBar : Bool
deriving DecidableEq

namespace Frame

/-- The frame of an excerpt, wide enough for the numbers of the lines that the span has a byte
of. -/
def ofExcerpt (excerpt : Excerpt) : Frame :=
  ⟨excerpt.height.repr.length, 1 < excerpt.marked.length⟩

/-- The column of the ruler. -/
def rulerColumn (frame : Frame) : Nat := frame.digits + 1

/-- The column of the bar. -/
def barColumn (frame : Frame) : Nat := frame.digits + 3

/-- The column where the source starts. -/
def sourceColumn (frame : Frame) : Nat :=
  if frame.hasBar then frame.digits + 5 else frame.digits + 3

/-- The columns that a report has at most, labels and headline apart. -/
def width : Nat := 140

/-- How many columns there are for the source. -/
def room (frame : Frame) : Nat := width - frame.sourceColumn

/-- A row that is not of the source. -/
def ruler (frame : Frame) : Row := Row.put [] frame.rulerColumn .gutter ['|']

/-- The row of a line of the source, without the line. -/
def numbered (frame : Frame) (index : Nat) : Row :=
  let number := (index + 1).repr.toList
  (Row.put [] 0 .gutter (stretch ' ' number.length frame.digits ++ number)).put
    frame.rulerColumn .gutter ['|']

/-- The row of a line of the source as a window shows it, and the number of columns left out in
front. -/
def sourceRow (frame : Frame) (window : Window) (index : Nat) (line : SourceLine) : Row × Nat :=
  window.draw (frame.numbered index) frame.sourceColumn (Text.printable line.text)

end Frame

/-- The headline, its further lines under its first word. -/
def headline (message : String) : List Row :=
  match Text.splitAt '\n' (printed message) with
  | [] => []
  | first :: more =>
    (Row.ofText .alarm "error".toList ++ Row.ofText .strong (": ".toList ++ first)) ::
      more.map fun line => Row.blanks 7 ++ Row.ofText .strong line

/-- The row that names the place. -/
def address (frame : Frame) (path : String) (spot : Spot) : Row :=
  Row.blanks frame.digits ++ Row.ofText .gutter "--> ".toList ++
    Row.ofText .plain
      (path ++ ":" ++ (spot.line + 1).repr ++ ":" ++ (spot.char + 1).repr).toList

/-! ## Marks -/

/-- A row with a label after a mark that ends at a column of the line, `shift` columns of which are
left out in front.  A blank stands between them. -/
def labelled (frame : Frame) (row : Row) (shift stop : Nat) (label : Option String) : Row :=
  match label with
  | none => row
  | some text =>
    row.put (frame.sourceColumn + (max 2 (stop + 1) - shift)) .alarm text.toList

/-- The rows of an underlined line.  An underline more than twice as wide as the room loses its
middle, and so does the line above it. -/
def underlined (frame : Frame) (row : Row) (shift start stop : Nat) (label : Option String) :
    List Row :=
  let first := frame.sourceColumn + start - shift
  let last := frame.sourceColumn + stop - shift
  let carets := frame.ruler.put first .alarm (stretch '^' first last)
  let rows := [row, labelled frame carets shift stop label]
  if 2 * frame.room < stop - start then
    let kept := frame.room / 3
    rows.map fun row => row.replace (first + kept) (last - kept) .gutter Window.dots
  else rows

/-- The row of the end of a bar that leads to a column of the line from the bar's own. -/
def barTurn (frame : Frame) (corner : Char) (shift column : Nat) : Row :=
  frame.ruler.put frame.barColumn .alarm
    (corner :: stretch '_' (frame.barColumn + 1) (frame.sourceColumn + column - shift) ++ ['^'])

/-- The rows of a marked line. -/
def markedRows (frame : Frame) (window : Window) (marked : MarkedLine) : List Row :=
  let (row, shift) := frame.sourceRow window marked.index marked.line
  let beside (bar : Char) : Row := row.put frame.barColumn .alarm [bar]
  match marked.mark with
  | .underline start stop => underlined frame row shift start stop marked.label
  | .opening column =>
    if marked.isBlankBefore then [beside '/'] else [row, barTurn frame ' ' shift column]
  | .passing => [beside '|']
  | .closing stop =>
    [beside '|',
     labelled frame (barTurn frame '|' shift marked.mark.start) shift stop marked.label]

/-- What stands between two marked lines: nothing, the one line between them, or dots. -/
def bridge (frame : Frame) (window : Window) (lines : List SourceLine) (i next : Nat) : List Row :=
  if next ≤ i + 1 then []
  else
    let row :=
      if next = i + 2 then (frame.sourceRow window (i + 1) (lines.getD (i + 1) default)).1
      else Row.put [] 0 .gutter Window.dots
    [row.put frame.barColumn .alarm ['|']]

/-- The rows of marked lines and of what stands between them. -/
def bodyRows (frame : Frame) (window : Window) (lines : List SourceLine) :
    List MarkedLine → List Row
  | [] => []
  | [marked] => markedRows frame window marked
  | marked :: next :: more =>
    markedRows frame window marked ++ bridge frame window lines marked.index next.index ++
      bodyRows frame window lines (next :: more)

/-! ## The whole -/

/-- The diagnostic over its source, in rows. -/
def draw? (source : List Char) (path : Option String) (d : Diagnostic) : Option (List Row) :=
  (Excerpt.ofSpan? source d.span d.label).map fun excerpt =>
    let frame := Frame.ofExcerpt excerpt
    let window := Window.ofExtent frame.room (.ofMarked excerpt.marked)
    headline d.message ++ (path.map (address frame · excerpt.spot)).toList ++ [frame.ruler] ++
      bodyRows frame window excerpt.lines excerpt.marked

end Snippet

namespace Diagnostic

/-- The diagnostic over its source, as text. -/
def render? (d : Diagnostic) (source : List Char) (path : Option String) (palette : Palette) :
    Option String :=
  (Snippet.draw? source path d).map palette.paintRows

end Diagnostic

end SearchQuery
