import SearchQuery.Parse.Rejection

/-!
# Diagnostics

A diagnostic is what is told about a rejection: a headline, the span it points at, and perhaps a
label for that span.
-/

namespace SearchQuery

/-- A headline about a span, with a label for the span. -/
structure Diagnostic where
  message : String
  span : Span
  label : Option String := none
deriving DecidableEq

namespace Diagnostic

/-- The diagnostic of a rejection.  Limits point between two characters. -/
def ofRejection : Rejection → Diagnostic
  | .unexpected cause =>
    { message := "unexpected " ++ cause.found
      span := cause.span
      label := cause.summary?.map ("expected " ++ ·) }
  | .limit (.nesting offset limit) =>
    { message := (LimitReached.nesting offset limit).message
      span := .emptyAt (saturate offset)
      label := some "nesting limit reached here" }
  | .limit (.lookaheads offset) =>
    { message := (LimitReached.lookaheads offset).message
      span := .emptyAt (saturate offset) }
  | .tooLarge size =>
    { message := (Rejection.tooLarge size).message
      span := .emptyAt 0 }

/-- The diagnostic on one line, with its span in bytes. -/
def oneLine (d : Diagnostic) : String :=
  "error at " ++ d.span.start.repr ++ ".." ++ d.span.stop.repr ++ ": " ++ d.message ++
    match d.label with
    | none => ""
    | some label => " (" ++ label ++ ")"

end Diagnostic

end SearchQuery
