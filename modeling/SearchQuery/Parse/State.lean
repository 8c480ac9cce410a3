import SearchQuery.Parse.Furthest

/-!
# The state of reading a query, and productions

A query is read from an array of tokens by productions.  A production gets a state and replies in
one of three ways: it takes a value, or it refuses after recording what it looked for, or it meets a
*fault*, which ends everything.  Refusal keeps the state, because what was recorded and what was
spent is not given back; going back to an earlier token is simply starting again from its index.

## Limits

A lookahead costs one unit while a limit on lookaheads is set.  Once a limit is reached, the first
one reached is kept, and every later lookahead sees the end of the input, so that reading winds
down by itself.

## Faults

Two things cannot happen when the tokens come from cutting up the source: reading the text of a
token that does not cover a piece of the source, and going on for more steps than the source has
room for.  Tokens may also be given by hand, so both are replies of their own.

## The log

Every lookahead is logged with the offset it was made at and the kind it saw, and so are the other
events of note.  The log is kept latest first.
-/

namespace SearchQuery

/-- Something that happened while a query was read. -/
inductive Event where
  | lookedAt (offset : Nat) (kind : Kind)
  /-- The rest of the source was cut into tokens anew, after a bound of a range. -/
  | recut (offset : Nat)
  | limitReached (cause : LimitReached)
deriving DecidableEq

/-- What ends reading without an answer. -/
inductive Fault where
  /-- Text was to be read that is not a piece of the source. -/
  | notInSource
  /-- More steps were taken than the source has room for. -/
  | endless
deriving DecidableEq

/-- What stays the same while a query is read. -/
structure Setting where
  source : List Char
  /-- How deep groups may nest. -/
  nestingLimit : Option Nat := none

/-- What changes while a query is read. -/
structure State where
  tokens : Array Token
  furthest : Furthest := {}
  /-- The number of groups that are open. -/
  depth : Nat := 0
  /-- The lookaheads that are left, if they are limited. -/
  lookaheads : Option Nat := none
  /-- The limit that was reached first. -/
  reached : Option LimitReached := none
  /-- The events so far, latest first. -/
  log : List Event := []

/-- What a production replies. -/
inductive Reply (α : Type) where
  | took (value : α) (state : State)
  | refused (state : State)
  | fault (cause : Fault)

/-- A step of reading: what it replies in a setting, to a state. -/
def Production (α : Type) : Type := Setting → State → Reply α

namespace Production

/-- Takes a value without looking at anything. -/
def ret {α : Type} (a : α) : Production α := fun _ s => .took a s

/-- Goes on with the value that a production took. -/
def andThen {α β : Type} (p : Production α) (f : α → Production β) : Production β := fun c s =>
  match p c s with
  | .took a s => f a c s
  | .refused s => .refused s
  | .fault e => .fault e

instance : Monad Production where
  pure := ret
  bind := andThen

/-- Refuses. -/
def refuse {α : Type} : Production α := fun _ s => .refused s

/-- Ends everything. -/
def abort {α : Type} (cause : Fault) : Production α := fun _ _ => .fault cause

/-- Changes the state. -/
def modify (f : Setting → State → State) : Production Unit := fun c s => .took () (f c s)

/-- Reads something off the state. -/
def view {α : Type} (f : Setting → State → α) : Production α := fun c s => .took (f c s) s

theorem bind_apply {α β : Type} (p : Production α) (f : α → Production β) (c : Setting)
    (s : State) :
    (p >>= f) c s =
      match p c s with
      | .took a s => f a c s
      | .refused s => .refused s
      | .fault e => .fault e := rfl

instance : LawfulMonad Production :=
  LawfulMonad.mk' Production
    (fun p => by
      funext c s
      show andThen p ret c s = p c s
      unfold andThen
      cases p c s <;> rfl)
    (fun _ _ => rfl)
    (fun p f g => by
      funext c s
      show andThen (andThen p f) g c s = andThen p (fun a => andThen (f a) g) c s
      unfold andThen
      cases p c s <;> rfl)

end Production

end SearchQuery
