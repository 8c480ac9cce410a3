import SearchQuery.Parse.Productions

/-!
# Reading within limits

`Limits` bounds the work on a query: the lookaheads in all, and how deep groups may nest.  Its
operations read a text and answer the query in it, or the reason why there is none, or what
happened on the way.
-/

namespace SearchQuery

/-- Bounds on the work on one query; `none` is no bound. -/
structure Limits where
  lookaheads : Option Nat := some 1000000
  nesting : Option Nat := some 256
deriving DecidableEq, Inhabited

/-- What reading comes to. -/
inductive Outcome where
  | accepted (query : Query)
  | rejected (cause : Rejection)
  | fault (cause : Fault)
deriving DecidableEq

/-- What reading comes to, and everything that happened, in order. -/
structure Reading where
  outcome : Outcome
  events : List Event

/-- What is reported of reading a text. -/
inductive Notice where
  | started (size : Nat)
  | tooLarge (size : Nat)
  | recut (offset : Nat)
  | limitReached (cause : LimitReached)
  | accepted (clauses : Nat)
  | rejected (offset : Nat) (message : String)
deriving DecidableEq

namespace Event

/-- The notice of an event; lookaheads are not worth one. -/
def notice? : Event → Option Notice
  | lookedAt _ _ => none
  | recut offset => some (.recut offset)
  | limitReached cause => some (.limitReached cause)

end Event

namespace Outcome

/-- The notice of how reading ended. -/
def notice? : Outcome → Option Notice
  | accepted query => some (.accepted query.length)
  | rejected (.tooLarge size) => some (.tooLarge size)
  | rejected cause => some (.rejected cause.offset cause.message)
  | fault _ => none

/-- Where and why a text was rejected. -/
def locate? (source : List Char) : Outcome → Option Location
  | rejected cause => some (cause.locate source)
  | _ => none

end Outcome

namespace Limits

/-- No bounds at all. -/
def unlimited : Limits := ⟨none, none⟩

/-- A bound on the steps of reading tokens of a source.  Every clause and every group takes a token,
cutting the rest anew makes at most one token of a byte, and whoever goes round in circles in spite
of a limit reaches the limit first. -/
def steps (limits : Limits) (source : List Char) (tokens : Array Token) : Nat :=
  Text.byteSize source + tokens.size + limits.lookaheads.getD 0 + limits.nesting.getD 0 + 2

/-- What a final reply comes to.  A limit that was reached decides, also over a value taken. -/
def conclude (source : List Char) : Reply Query → Reading
  | .took query s =>
    let outcome :=
      match s.reached with
      | some cause => .rejected (.limit cause)
      | none => .accepted query
    ⟨outcome, s.log.reverse⟩
  | .refused s =>
    let outcome :=
      match s.reached, s.furthest.report? source s.tokens with
      | some cause, _ => .rejected (.limit cause)
      | none, some cause => .rejected (.unexpected cause)
      | none, none => .fault .notInSource
    ⟨outcome, s.log.reverse⟩
  | .fault cause => ⟨.fault cause, []⟩

/-- Reads the tokens of a source, however they came about. -/
def readTokens (limits : Limits) (source : List Char) (tokens : List Token) : Reading :=
  let tokens := tokens.toArray
  let setting : Setting := ⟨source, limits.nesting⟩
  let state : State := { tokens, lookaheads := limits.lookaheads }
  conclude source (Production.query (limits.steps source tokens) setting state)

/-- Reads a text. -/
def read (limits : Limits) (text : String) : Reading :=
  let source := text.toList
  let size := Text.byteSize source
  if maxOffset < size then ⟨.rejected (.tooLarge size), []⟩
  else limits.readTokens source (Token.lex source)

/-- The query in a text, or why there is none. -/
def parse (limits : Limits) (text : String) : Outcome := (limits.read text).outcome

/-- Where and why a text is rejected, if it is. -/
def locate? (limits : Limits) (text : String) : Option Location :=
  (limits.parse text).locate? text.toList

/-- What is reported of reading a text, in order. -/
def notices (limits : Limits) (text : String) : List Notice :=
  let reading := limits.read text
  .started (Text.byteSize text.toList) ::
    (reading.events.filterMap Event.notice? ++ reading.outcome.notice?.toList)

end Limits

end SearchQuery
