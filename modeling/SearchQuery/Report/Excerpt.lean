import SearchQuery.Report.SourceLine
import SearchQuery.Text.Span

/-!
# Excerpts

An excerpt is what a report shows of a source: the lines that matter for a span, each with a mark.
A span on one line is underlined.  A span over several lines has a bar beside it, which opens on the
first line, passes the lines between, and closes on the last one.

Of a long span only the first lines, the last line and the line before it are marked.  Lines at the
end of the first part that hold nothing of interest are left out too.

`Excerpt.ofSpan?` answers `none` for a span that does not start and end between characters of the
source.
-/

namespace SearchQuery

/-- What points at a line.  Columns are display columns of the line. -/
inductive Mark where
  /-- An underline from a column up to another one. -/
  | underline (start stop : Nat)
  /-- A bar that opens under a column. -/
  | opening (column : Nat)
  /-- A bar that goes on. -/
  | passing
  /-- A bar that closes under the column before this one. -/
  | closing (stop : Nat)
deriving DecidableEq

namespace Mark

/-- The first column that a mark points at. -/
def start : Mark → Nat
  | underline start _ => start
  | opening column => column
  | passing => 0
  | closing stop => stop - 1

/-- The column after the last one that a mark points at. -/
def stop : Mark → Nat
  | underline _ stop => stop
  | opening column => column + 1
  | passing => 0
  | closing stop => stop

end Mark

/-- A line of a source, its index, what points at it, and the label of the mark. -/
structure MarkedLine where
  index : Nat
  line : SourceLine
  mark : Mark
  label : Option String := none
deriving DecidableEq

namespace MarkedLine

/-- Where the label of a line ends, in columns of the line. -/
def labelStop (marked : MarkedLine) : Nat :=
  marked.mark.stop +
    match marked.label with
    | none => 0
    | some label => Text.displayWidth label.toList + 1

/-- Whether only blanks are printed before the columns that the mark points at. -/
def isBlankBefore (marked : MarkedLine) : Bool :=
  ((Text.printable marked.line.text).take marked.mark.start).all Text.isSpace

end MarkedLine

/-- The part of a source that a report on a span shows. -/
structure Excerpt where
  /-- All the lines of the source. -/
  lines : List SourceLine
  /-- Where the span starts. -/
  spot : Spot
  /-- The number of lines up to the last one that the span has a byte of. -/
  height : Nat
  marked : List MarkedLine

namespace Excerpt

/-! ## Lines of interest -/

/-- Whether a line holds more than a lone bracket or a remark after two slashes. -/
def isOfInterest (line : SourceLine) : Bool :=
  match Text.trim line.text with
  | [] => false
  | ['('] | [')'] | ['['] | [']'] | ['\x7b'] | ['\x7d'] => false
  | '/' :: '/' :: c :: _ => c = '/' || c = '!'
  | ['/', '/'] => false
  | _ => true

/-- Whether the line at an index is of interest. -/
def interestingAt (lines : List SourceLine) (i : Nat) : Bool :=
  match lines[i]? with
  | some line => isOfInterest line
  | none => false

/-- The lines between the first and the last one of a span that are marked, in order. -/
def passed (lines : List SourceLine) (first last : Nat) : List Nat :=
  let middle := min (first + 4) last
  let head := (List.range' first (middle - first)).reverse.find? (interestingAt lines)
  let opening := List.range' (first + 1) (head.getD first - first)
  if middle < last - 1 && interestingAt lines (last - 1) then opening ++ [last - 1] else opening

/-! ## Spans -/

/-- The end of the span that is shown: an empty span is widened by a byte, as far as the source
goes. -/
def shownStop (span : Span) (size : Nat) : Nat :=
  if span.length = 0 then min (span.start + 1) size else span.stop

/-- The marks of a span over several lines. -/
def barMarks (lines : List SourceLine) (first last : Spot) (stop : Nat) (label : Option String) :
    List MarkedLine :=
  let line (i : Nat) : SourceLine := lines.getD i default
  [⟨first.line, line first.line, .opening first.column, none⟩] ++
    (passed lines first.line last.line).map (fun i => ⟨i, line i, .passing, none⟩) ++
    [⟨last.line, line last.line, .closing stop, label⟩]

/-- The excerpt for a span.  A place after the text of its line counts as the line break after
it. -/
def ofSpan? (source : List Char) (span : Span) (label : Option String) : Option Excerpt := do
  let size := Text.byteSize source
  let stop := shownStop span size
  if size + 1 < stop then none
  else
    let lines := SourceLine.ofText source
    let first ← Spot.find? lines span.start
    let last ← Spot.find? lines stop
    let firstLine ← lines[first.line]?
    let lastLine ← lines[last.line]?
    let marked :=
      if first.line = last.line then
        [⟨first.line, firstLine, .underline first.column (max last.column (first.column + 1)),
          label⟩]
      else
        let pastText := if lastLine.textStop < stop then 1 else 0
        barMarks lines first last (last.column + pastText) label
    let pastText := if firstLine.textStop < span.start then 1 else 0
    pure
      { lines
        spot := { first with char := first.char + pastText }
        height := max 1 (lines.countP fun line => line.start < stop)
        marked }

end Excerpt

end SearchQuery
