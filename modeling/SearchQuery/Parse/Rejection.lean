import SearchQuery.Text.Position
import SearchQuery.Text.Span
import SearchQuery.Token.KindSet

/-!
# Rejections

Why a text is not accepted as a query.  Either something stands in it that no rule of the grammar
allows there, or one of the limits on the work was reached, or the text is too long for places in
it to be named.  The wording of each cause is in its `message`.
-/

namespace SearchQuery

/-- The furthest place that any way to read the text reached, what stands there, and what could
have stood there. -/
structure Unexpected where
  /-- The token in the way; empty at the end of the input. -/
  span : Span
  position : Position
  /-- The token in the way, as it is shown. -/
  found : String
  expected : KindSet
deriving DecidableEq

/-- A limit on the work, and the place where it was reached. -/
inductive LimitReached where
  /-- No lookahead was left. -/
  | lookaheads (offset : Nat)
  /-- A group opened at `offset` inside `limit` others. -/
  | nesting (offset limit : Nat)
deriving DecidableEq

/-- Why a text is not accepted. -/
inductive Rejection where
  | unexpected (cause : Unexpected)
  | limit (cause : LimitReached)
  | tooLarge (size : Nat)
deriving DecidableEq

/-- A place in a text and what is wrong there. -/
structure Location where
  position : Position
  message : String
deriving DecidableEq

/-- Alternatives in words: `a`, `a or b`, `a, b, or c`. -/
def alternatives? : List String → Option String
  | [] => none
  | [only] => some only
  | [first, second] => some (first ++ " or " ++ second)
  | all => some (String.intercalate ", " all.dropLast ++ ", or " ++ all.getLastD "")

namespace Position

/-- A position in words. -/
def phrase (p : Position) : String := " at line " ++ p.line.repr ++ " column " ++ p.column.repr

end Position

namespace Unexpected

/-- The alternatives in words, if there are any. -/
def summary? (e : Unexpected) : Option String := alternatives? e.expected.descriptions

/-- The report of what stands in the way. -/
def message (e : Unexpected) : String :=
  "Don't know what to do with " ++ e.found ++ e.position.phrase ++
    match e.summary? with
    | none => ""
    | some summary => " (expected " ++ summary ++ ")"

end Unexpected

namespace LimitReached

/-- Where the limit was reached. -/
def offset : LimitReached → Nat
  | lookaheads offset => offset
  | nesting offset _ => offset

/-- The report of the limit. -/
def message : LimitReached → String
  | lookaheads _ => "execution limit exceeded"
  | nesting _ limit => "recursion limit exceeded: more than " ++ limit.repr ++ " nested groups"

end LimitReached

namespace Rejection

/-- The place that the rejection points at. -/
def offset : Rejection → Nat
  | unexpected cause => cause.span.start
  | limit cause => cause.offset
  | tooLarge _ => 0

/-- Whether the text itself is at fault, rather than its size or the limits. -/
def isGrammatical : Rejection → Bool
  | unexpected _ => true
  | _ => false

/-- The report of the rejection. -/
def message : Rejection → String
  | unexpected cause => cause.message
  | limit cause => cause.message
  | tooLarge size =>
    "input too large: " ++ size.repr ++ " bytes (at most " ++ maxOffset.repr ++ ")"

/-- The report of the rejection with its place in the source. -/
def locate (source : List Char) : Rejection → Location
  | unexpected cause => ⟨cause.position, cause.message⟩
  | rejection =>
    let position := Position.ofOffset source rejection.offset
    ⟨position, rejection.message ++ position.phrase⟩

end Rejection

end SearchQuery
