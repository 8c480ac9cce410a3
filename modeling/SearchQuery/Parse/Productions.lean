import SearchQuery.Parse.Cursor
import SearchQuery.Query.Basic

/-!
# The grammar of queries

```
query     = blank? sequence blank? end
sequence  = clause (blank (keyword blank)? clause)*
clause    = marker? (field ":")? value boost?
value     = term | phrase | group | range
term      = word fuzzy?
phrase    = quoted distance?
group     = "(" blank? sequence blank? ")"
range     = ("[" | "{") blank? bound blank "TO" blank bound blank? ("]" | "}")
```

A range stands only after a field, its brackets must match, and its bounds are runs of characters up
to a blank or a closing bracket, whatever tokens they would make.  A word with a star in it is no
field.

Every production gets the place to start from and takes a value together with the place after it.
Groups recurse: the productions below a sequence get the production for the sequence inside a group
as an argument, and `sequence` ties the knot.  Its first argument bounds the steps; it falls with
each level of nesting and with each clause of a sequence, and a source gives out before it does.

## Readers

The grammar is written once, for any `Reader`: a cursor, along with a way to read the bound of a
range and a way to open a group.  The parts that look at tokens only are those of the cursor.
Queries are read with `Reader.overTokens`, and what stands under `Production` is the grammar for it.
-/

namespace SearchQuery

namespace Production

/-- What is read, and the place after it. -/
abbrev Taken (α : Type) := α × Nat

/-- The number after a one-character sign. -/
def numberAfterSign (text : List Char) : List Char :=
  match text with
  | [] => []
  | c :: number => if c.utf8Size = 1 then number else []

/-- A phrase without its quotes, if it has both. -/
def unquote (text : List Char) : List Char :=
  match text with
  | [] => text
  | c :: more =>
    if c = '"' ∧ more.getLast? = some '"' then more.dropLast else text

/-- The similarity that is written with a number, or with none. -/
def similarityOf (number : List Char) : Similarity :=
  match number with
  | [] => .default
  | number => .value (String.ofList number)

/-- What may stand as the value of a clause. -/
def valueStart (field : Option String) (marker : Option Marker) : KindSet :=
  match field, marker with
  | some _, _ => .fieldValueStart
  | none, some _ => .coreStart
  | none, none => .clauseStart

/-- The operator that a kind stands for. -/
def operatorOf? : Kind → Option Operator
  | .keywordAnd => some .and
  | .keywordOr => some .or
  | .keywordNot => some .not
  | _ => none

end Production

open Production

/-! ## What a cursor reads -/

namespace Cursor

variable (cursor : Cursor)

/-- A term, of which the word is already seen. -/
def term (pos : Nat) : Production (Taken Atom) := do
  let text ← cursor.textAt pos
  let pos ← cursor.next pos
  if (← cursor.lookAt pos) = .fuzzy then
    let similarity := similarityOf (numberAfterSign (← cursor.textAt pos))
    pure (.term (String.ofList text) (some similarity), ← cursor.next pos)
  else
    cursor.miss pos (.only .fuzzy)
    pure (.term (String.ofList text) none, pos)

/-- A phrase, of which the quoted text is already seen.  A tilde after it belongs to it only with a
whole number. -/
def phrase (pos : Nat) : Production (Taken Atom) := do
  let text := String.ofList (unquote (← cursor.textAt pos))
  let pos ← cursor.next pos
  if (← cursor.lookAt pos) = .fuzzy then
    let number := numberAfterSign (← cursor.textAt pos)
    if number ≠ [] ∧ number.all Char.isDigit then
      pure (.phrase text (some (String.ofList number)), ← cursor.next pos)
    else
      cursor.miss pos (.only .distance)
      pure (.phrase text none, pos)
  else
    cursor.miss pos (.only .fuzzy)
    pure (.phrase text none, pos)

/-- The word between the bounds of a range. -/
def rangeTo (pos : Nat) : Production Nat := do
  if (← cursor.lookAt pos) = .word then
    if (← cursor.textAt pos) = ['T', 'O'] then cursor.next pos
    else cursor.refuseAt pos (.only .rangeTo)
  else
    cursor.refuseAt pos (.only .rangeTo)

/-- The marker of a clause, if it has one. -/
def marker (pos : Nat) : Production (Taken (Option Marker)) := do
  match ← cursor.lookAt pos with
  | .plus => pure (some .required, ← cursor.next pos)
  | .minus => pure (some .prohibited, ← cursor.next pos)
  | _ => pure (none, pos)

/-- The field of a clause, if it has one: a word without stars, and a colon right after it. -/
def field (pos : Nat) : Production (Taken (Option String)) := do
  if (← cursor.lookAt pos) = .word then
    let colon ← cursor.next pos
    if (← cursor.lookAt colon) = .colon then
      let name ← cursor.textAt pos
      if name.contains '*' then pure (none, pos)
      else pure (some (String.ofList name), ← cursor.next colon)
    else pure (none, pos)
  else pure (none, pos)

/-- The boost factor of a clause, if it has one. -/
def boost (pos : Nat) : Production (Taken (Option String)) := do
  if (← cursor.lookAt pos) = .boost then
    let text ← cursor.textAt pos
    pure (some (String.ofList (numberAfterSign text)), ← cursor.next pos)
  else
    cursor.miss pos (.only .boost)
    pure (none, pos)

end Cursor

/-! ## The grammar -/

/-- A way to read queries. -/
structure Reader extends Cursor where
  /-- A bound of a range: the characters up to a blank or a closing bracket. -/
  bound : Nat → Production (Taken String)
  /-- Opens a group at a place, reads it, and closes it whether or not it could be read. -/
  nested : Nat → Production (Taken Query) → Production (Taken Query)

/-- As many clauses as can be joined on, after those already found, of which the latest comes
first. -/
def Production.moreClauses (joined : Nat → Production (Taken Clause)) :
    (steps : Nat) → (found : List Clause) → (pos : Nat) → Setting → State →
      Reply (Taken (List Clause))
  | 0, _, _, _, _ => .fault .endless
  | steps + 1, found, pos, c, s =>
    match joined pos c s with
    | .took (clause, next) s => moreClauses joined steps (clause :: found) next c s
    | .refused s => .took (found.reverse, pos) s
    | .fault e => .fault e

namespace Reader

variable (reader : Reader)

/-- A range after its opening bracket. -/
def rangeAfter (pos : Nat) (inclusive : Bool) (closing : Kind) : Production (Taken Atom) := do
  let pos ← reader.skipBlank pos
  let (low, pos) ← reader.bound pos
  let pos ← reader.expect pos .blank
  let pos ← reader.rangeTo pos
  let pos ← reader.expect pos .blank
  let (high, pos) ← reader.bound pos
  let pos ← reader.skipBlank pos
  let pos ← reader.expect pos closing
  pure (.range low high inclusive, pos)

/-- A range. -/
def range (pos : Nat) : Production (Taken Atom) := do
  match ← reader.lookAt pos with
  | .openBracket => reader.rangeAfter (← reader.next pos) true .closeBracket
  | .openBrace => reader.rangeAfter (← reader.next pos) false .closeBrace
  | _ => reader.refuseAt pos (.ofList [.openBracket, .openBrace])

/-- A group, with the production for the sequence in it. -/
def group (inner : Nat → Production (Taken Query)) (pos : Nat) : Production (Taken Query) :=
  reader.nested pos do
    let pos ← reader.expect pos .openParen
    let pos ← reader.skipBlank pos
    let (body, pos) ← inner pos
    let pos ← reader.skipBlank pos
    let pos ← reader.expect pos .closeParen
    pure (body, pos)

/-- The value of a clause with its field and marker: how to make the clause of its modifiers. -/
def value (inner : Nat → Production (Taken Query)) (field : Option String)
    (marker : Option Marker) (pos : Nat) : Production (Taken (Modifiers → Clause)) := do
  match ← reader.lookAt pos, field with
  | .word, _ => do
    let (atom, pos) ← reader.term pos
    pure (.atom atom, pos)
  | .phrase, _ => do
    let (atom, pos) ← reader.phrase pos
    pure (.atom atom, pos)
  | .openParen, _ => do
    let (body, pos) ← reader.group inner pos
    pure (.group body, pos)
  | .openBracket, some _ => do
    let (atom, pos) ← reader.range pos
    pure (.atom atom, pos)
  | .openBrace, some _ => do
    let (atom, pos) ← reader.range pos
    pure (.atom atom, pos)
  | _, _ => reader.refuseAt pos (valueStart field marker)

/-- A clause that is joined by a keyword, or by none. -/
def clause (inner : Nat → Production (Taken Query)) (operator : Option Operator) (pos : Nat) :
    Production (Taken Clause) := do
  let (marker, pos) ← reader.marker pos
  let (field, pos) ← reader.field pos
  let (make, pos) ← reader.value inner field marker pos
  let (boost, pos) ← reader.boost pos
  pure (make { field, marker, boost, operator }, pos)

/-- What comes after the blank that separates two clauses: perhaps a keyword and another blank, and
the second clause. -/
def afterBlank (inner : Nat → Production (Taken Query)) (pos : Nat) :
    Production (Taken Clause) := do
  match operatorOf? (← reader.lookAt pos) with
  | some operator => do
    let pos ← reader.next pos
    let pos ← reader.expect pos .blank
    reader.clause inner (some operator) pos
  | none => do
    reader.miss pos .keywords
    reader.clause inner none pos

/-- A clause after another one. -/
def joinedClause (inner : Nat → Production (Taken Query)) (pos : Nat) :
    Production (Taken Clause) := do
  let pos ← reader.expect pos .blank
  reader.afterBlank inner pos

/-- A sequence of clauses, within a bound on steps. -/
def sequence : (steps : Nat) → (pos : Nat) → Production (Taken Query)
  | 0, _ => abort .endless
  | steps + 1, pos => do
    let (first, pos) ← reader.clause (sequence steps) none pos
    let (more, pos) ← moreClauses (reader.joinedClause (sequence steps)) steps [] pos
    pure (.collapse first more, pos)

/-- A whole query that starts at a place, within a bound on steps. -/
def query (steps start : Nat) : Production Query := do
  let pos ← reader.skipBlank start
  let (q, pos) ← reader.sequence steps pos
  let pos ← reader.skipBlank pos
  if (← reader.lookAt pos) = .endOfInput then pure q
  else reader.refuseAt pos (.only .endOfInput)

end Reader

/-! ## Reading tokens -/

/-- A bound of a range, and the index of the token after it.  The bound may end inside of what was
one token. -/
def Production.bound (pos : Nat) : Production (Taken String) := do
  let start ← view fun c s => s.offsetAt c.source pos
  match ← view fun c _ => Text.dropBytes? start c.source with
  | none => abort .notInSource
  | some rest =>
    match rest.takeWhile (!endsBound ·) with
    | [] => refuseAt pos (.only .rangeBound)
    | text =>
      let next ← seek (start + Text.byteSize text)
      pure (String.ofList text, next)

/-- Over an array of tokens, a place is the index of a token. -/
@[reducible] def Reader.overTokens : Reader where
  toCursor := .overTokens
  bound := Production.bound
  nested := Production.nested

namespace Production

abbrev term (pos : Nat) : Production (Taken Atom) := Cursor.overTokens.term pos

abbrev phrase (pos : Nat) : Production (Taken Atom) := Cursor.overTokens.phrase pos

abbrev rangeTo (pos : Nat) : Production Nat := Cursor.overTokens.rangeTo pos

abbrev rangeAfter (pos : Nat) (inclusive : Bool) (closing : Kind) : Production (Taken Atom) :=
  Reader.overTokens.rangeAfter pos inclusive closing

abbrev range (pos : Nat) : Production (Taken Atom) := Reader.overTokens.range pos

abbrev group (inner : Nat → Production (Taken Query)) (pos : Nat) : Production (Taken Query) :=
  Reader.overTokens.group inner pos

abbrev marker (pos : Nat) : Production (Taken (Option Marker)) := Cursor.overTokens.marker pos

abbrev field (pos : Nat) : Production (Taken (Option String)) := Cursor.overTokens.field pos

abbrev boost (pos : Nat) : Production (Taken (Option String)) := Cursor.overTokens.boost pos

abbrev value (inner : Nat → Production (Taken Query)) (field : Option String)
    (marker : Option Marker) (pos : Nat) : Production (Taken (Modifiers → Clause)) :=
  Reader.overTokens.value inner field marker pos

abbrev clause (inner : Nat → Production (Taken Query)) (operator : Option Operator) (pos : Nat) :
    Production (Taken Clause) :=
  Reader.overTokens.clause inner operator pos

abbrev joinedClause (inner : Nat → Production (Taken Query)) (pos : Nat) :
    Production (Taken Clause) :=
  Reader.overTokens.joinedClause inner pos

abbrev sequence (steps pos : Nat) : Production (Taken Query) :=
  Reader.overTokens.sequence steps pos

abbrev query (steps : Nat) : Production Query := Reader.overTokens.query steps 0

end Production

end SearchQuery
