import SearchQuery.Parse.Rejection
import SearchQuery.Token.Basic

/-!
# The furthest dead end

While a text is read, every place where some rule could not go on is recorded together with what
the rule would have taken there.  Only the records at the largest offset matter: `Furthest` keeps
the token index of the first of them and the union of their sets.
-/

namespace SearchQuery

/-- The furthest place at which a rule could not go on, and what could have stood there. -/
structure Furthest where
  /-- The token index of the first record at the largest offset, and that offset. -/
  place : Option (Nat × Nat) := none
  expected : KindSet := ∅
deriving DecidableEq

namespace Furthest

/-- Takes in one more record. -/
def record (f : Furthest) (pos offset : Nat) (expected : KindSet) : Furthest :=
  match f.place with
  | none => ⟨some (pos, offset), expected⟩
  | some (_, furthest) =>
    if offset < furthest then f
    else if offset = furthest then { f with expected := f.expected ∪ expected }
    else ⟨some (pos, offset), expected⟩

end Furthest

namespace Token

/-- A token as it is shown to the reader of a report; `none` if its span is not a piece of the
source. -/
def shown? (source : List Char) (token : Token) : Option String :=
  match token.kind with
  | .blank => some Kind.blank.description
  | _ => (token.span.slice? source).map fun text => "`" ++ String.ofList text ++ "`"

end Token

namespace Furthest

/-- The report of the furthest dead end among the tokens of the source.  When the place is past the
last token, the input ended there.  `none` if the token in the way is not a piece of the source. -/
def report? (f : Furthest) (source : List Char) (tokens : Array Token) : Option Unexpected :=
  let (pos, offset) := f.place.getD (tokens.size, Text.byteSize source)
  match tokens[pos]? with
  | some token => (token.shown? source).map fun found =>
    ⟨token.span, Position.ofOffset source token.span.start, found, f.expected⟩
  | none => some
    ⟨Span.emptyAt offset, Position.ofOffset source offset, Kind.endOfInput.description, f.expected⟩

end Furthest

end SearchQuery
