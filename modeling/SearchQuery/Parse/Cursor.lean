import SearchQuery.Parse.State

/-!
# Looking at tokens

The steps that productions are made of: looking at the token at an index, reading its text,
recording what was looked for, opening and closing a group, and going to the token at a place in
the source.

A `Cursor` is a way to look at the source, whatever its places are counted in, and the small steps
that every grammar needs are those of a cursor.  `Cursor.overTokens` is the one for an array of
tokens, with indices for places.

A place in the source may lie inside a token, since the bounds of a range are read as plain
characters and may hold, for example, one of the quotes of what looked like a phrase.  `seek` then
ends that token at the place and cuts up the rest of the source anew from there, so that all
indices up to the token stay good.
-/

namespace SearchQuery

namespace State

/-- The place of a token index: where the token starts, or the end of the source. -/
def offsetAt (s : State) (source : List Char) (pos : Nat) : Nat :=
  match s.tokens[pos]? with
  | some token => token.span.start
  | none => Text.byteSize source

/-- The kind of the token at an index, as it is seen: once a limit is reached, and past the last
token, the input is at its end. -/
def kindSeen (s : State) (pos : Nat) : Kind :=
  match s.reached, s.tokens[pos]? with
  | none, some token => token.kind
  | _, _ => .endOfInput

/-- Keeps a limit that is reached, if it is the first. -/
def reach (s : State) (cause : LimitReached) : State :=
  match s.reached with
  | none => { s with reached := some cause, log := .limitReached cause :: s.log }
  | some _ => s

/-- Pays for a lookahead at an offset. -/
def spendAt (s : State) (offset : Nat) : State :=
  match s.lookaheads with
  | none => s
  | some 0 => s.reach (.lookaheads offset)
  | some (left + 1) => { s with lookaheads := some left }

/-- Pays for a lookahead at a token index. -/
def spend (s : State) (source : List Char) (pos : Nat) : State :=
  s.spendAt (s.offsetAt source pos)

/-- Records what was looked for at a token index. -/
def record (s : State) (source : List Char) (pos : Nat) (expected : KindSet) : State :=
  { s with furthest := s.furthest.record pos (s.offsetAt source pos) expected }

end State

/-- What a group replies once it is closed. -/
def Reply.closed {α : Type} : Reply α → Reply α
  | .took a s => .took a { s with depth := s.depth - 1 }
  | .refused s => .refused { s with depth := s.depth - 1 }
  | .fault e => .fault e

/-- The limit that keeps another group from being opened at a depth, if one does. -/
def Setting.fullAt (c : Setting) (depth : Nat) : Option Nat :=
  match c.nestingLimit with
  | some limit => if limit ≤ depth then some limit else none
  | none => none

/-! ## Searching tokens by their places -/

/-- Halves a stretch of `size` indices from `base` on, keeping the upper half when its first index
passes the test.  The answer is the one index that is left. -/
def bisect (test : Nat → Bool) : (halvings base size : Nat) → Nat
  | 0, base, _ => base
  | halvings + 1, base, size =>
    if size ≤ 1 then base
    else
      let half := size / 2
      bisect test halvings (if test (base + half) then base + half else base) (size - half)

namespace Token

/-- The number of tokens that end at or before a place, by bisection: the tokens are in order. -/
def countEndingBy (tokens : Array Token) (offset : Nat) : Nat :=
  let ends (i : Nat) : Bool :=
    match tokens[i]? with
    | some token => token.span.stop ≤ offset
    | none => false
  let last := bisect ends tokens.size 0 tokens.size
  if ends last then last + 1 else last

end Token

namespace Production

/-- The kind of the token at an index.  Each time costs one lookahead. -/
def lookAt (pos : Nat) : Production Kind := fun c s =>
  let s := s.spend c.source pos
  let kind := s.kindSeen pos
  .took kind { s with log := .lookedAt (s.offsetAt c.source pos) kind :: s.log }

/-- The text of the token at an index; empty past the last token. -/
def textAt (pos : Nat) : Production (List Char) := fun c s =>
  match s.tokens[pos]? with
  | none => .took [] s
  | some token =>
    match token.span.slice? c.source with
    | some text => .took text s
    | none => .fault .notInSource

/-- Records an alternative that was not there. -/
def miss (pos : Nat) (expected : KindSet) : Production Unit :=
  modify fun c s => s.record c.source pos expected

/-- Opens a group at an offset, reads it, and closes it whether or not it could be read.  Refuses,
with the limit reached, when groups are nested as deep as they may be. -/
def nestedAt {α : Type} (offset : Nat) (body : Production α) : Production α := fun c s =>
  match c.fullAt s.depth with
  | some limit => .refused (s.reach (.nesting offset limit))
  | none => (body c { s with depth := s.depth + 1 }).closed

/-- Opens a group at a token index. -/
def nested {α : Type} (pos : Nat) (body : Production α) : Production α := do
  nestedAt (← view fun c s => s.offsetAt c.source pos) body

section

variable {α : Type} {offset : Nat} {body : Production α} {c : Setting} {s : State}

theorem nestedAt_of_full {limit : Nat} (h : c.fullAt s.depth = some limit) :
    nestedAt offset body c s = .refused (s.reach (.nesting offset limit)) := by
  unfold nestedAt
  rw [h]

theorem nestedAt_of_free (h : c.fullAt s.depth = none) :
    nestedAt offset body c s = (body c { s with depth := s.depth + 1 }).closed := by
  unfold nestedAt
  rw [h]

theorem nested_apply (pos : Nat) (body : Production α) (c : Setting) (s : State) :
    nested pos body c s = nestedAt (s.offsetAt c.source pos) body c s := rfl

end

/-- The index of the token that starts at a place in the source, or of the first one after it.  A
token that the place lies inside is ended there, and the source is cut anew from the place on. -/
def seek (offset : Nat) : Production Nat := fun c s =>
  let i := Token.countEndingBy s.tokens offset
  match s.tokens[i]? with
  | none => .took i s
  | some token =>
    if offset ≤ token.span.start then .took i s
    else
      let kept := (s.tokens.extract 0 i).push { token with span := token.span.cutAt offset }
      .took (i + 1)
        { s with
          tokens := kept ++ (Token.lexFrom c.source offset).toArray
          log := .recut offset :: s.log }

end Production

/-! ## Cursors -/

/-- A way to look at the source from a place. -/
structure Cursor where
  /-- The kind of what stands at a place, for one lookahead. -/
  lookAt : Nat → Production Kind
  /-- The text of the token at a place. -/
  textAt : Nat → Production (List Char)
  /-- The place after the token at a place. -/
  next : Nat → Production Nat
  /-- Records an alternative that was not there. -/
  miss : Nat → KindSet → Production Unit

namespace Cursor

variable (cursor : Cursor)

/-- Records what was looked for and refuses. -/
def refuseAt {α : Type} (pos : Nat) (expected : KindSet) : Production α := do
  cursor.miss pos expected
  Production.refuse

/-- Takes a token of a kind and answers the place after it. -/
def expect (pos : Nat) (kind : Kind) : Production Nat := do
  if (← cursor.lookAt pos) = kind then cursor.next pos else cursor.refuseAt pos (.only kind)

/-- Passes over a blank, if there is one. -/
def skipBlank (pos : Nat) : Production Nat := do
  if (← cursor.lookAt pos) = .blank then cursor.next pos else pure pos

/-- Over an array of tokens, a place is the index of a token. -/
@[reducible] def overTokens : Cursor where
  lookAt := Production.lookAt
  textAt := Production.textAt
  next pos := pure (pos + 1)
  miss := Production.miss

end Cursor

namespace Production

abbrev refuseAt {α : Type} (pos : Nat) (expected : KindSet) : Production α :=
  Cursor.overTokens.refuseAt pos expected

abbrev expect (pos : Nat) (kind : Kind) : Production Nat := Cursor.overTokens.expect pos kind

abbrev skipBlank (pos : Nat) : Production Nat := Cursor.overTokens.skipBlank pos

end Production

end SearchQuery
