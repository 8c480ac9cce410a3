/-!
# Ink

A report is made of rows, and a row of cells, each a character in one ink.  Rows are drawn on:
`Row.put` writes a text from a column on, over whatever stood there, so that what is drawn later
wins.

A palette says how an ink is switched on and off: the plain palette not at all, the colored one with
terminal escape codes.  Cells of one ink that stand side by side share its codes.
-/

namespace SearchQuery

/-- The role of a cell in a report. -/
inductive Ink where
  | plain
  /-- Line numbers, rulers, and the dots for what is left out. -/
  | gutter
  /-- Whatever points at the problem. -/
  | alarm
  /-- The headline. -/
  | strong
deriving DecidableEq

/-- A character in an ink. -/
structure Cell where
  ink : Ink
  char : Char
deriving DecidableEq

/-- A row of a report. -/
abbrev Row := List Cell

namespace Row

/-- A text in one ink. -/
def ofText (ink : Ink) (text : List Char) : Row := text.map (Cell.mk ink)

/-- Blank cells. -/
def blanks (n : Nat) : Row := List.replicate n ⟨.plain, ' '⟩

/-- The row with a text written from a column on.  A row that ends before the column is filled up
with blanks, except for an empty text, which leaves no trace. -/
def put (row : Row) (column : Nat) (ink : Ink) (text : List Char) : Row :=
  if text = [] then row
  else
    row.take column ++ blanks (column - row.length) ++ ofText ink text ++
      row.drop (column + text.length)

/-- The row without the cells between two columns, a text in their place.  A row that ends before
the second column is left as it is. -/
def replace (row : Row) (start stop : Nat) (ink : Ink) (text : List Char) : Row :=
  if row.length < stop then row
  else row.take start ++ ofText ink text ++ row.drop stop

end Row

/-- How inks are written. -/
structure Palette where
  switchOn : Ink → String
  switchOff : Ink → String

namespace Palette

/-- No colors. -/
def plain : Palette := ⟨fun _ => "", fun _ => ""⟩

/-- Colors for a terminal. -/
def colored : Palette where
  switchOn
    | .plain => ""
    | .gutter => "\x1b[1m\x1b[94m"
    | .alarm => "\x1b[1m\x1b[91m"
    | .strong => "\x1b[1m"
  switchOff
    | .plain => ""
    | _ => "\x1b[0m"

/-- The palette of a choice. -/
def ofChoice (isColored : Bool) : Palette := if isColored then colored else plain

/-- A row as it is written, while an ink is on. -/
def paint (palette : Palette) (current : Ink) : Row → List Char
  | [] => (palette.switchOff current).toList
  | cell :: more =>
    if cell.ink = current then cell.char :: palette.paint current more
    else
      (palette.switchOff current).toList ++ (palette.switchOn cell.ink).toList ++
        cell.char :: palette.paint cell.ink more

/-- Rows as they are written, one below the other. -/
def paintRows (palette : Palette) (rows : List Row) : String :=
  String.intercalate "\n" (rows.map fun row => String.ofList (palette.paint .plain row))

end Palette

end SearchQuery
