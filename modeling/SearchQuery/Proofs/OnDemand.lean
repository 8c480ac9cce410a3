import SearchQuery.Proofs.Scanning
import SearchQuery.Parse.Limits

/-!
# Reading on demand

A reader that reads queries straight off the source.  A place is a number of bytes here and not the
index of a token, and what stands at a place is the first token of the source cut from that place
on.  Nothing is cut up beforehand, so nothing has to be cut anew: after a bound of a range, reading
just goes on at the end of the bound.  The array of tokens in the state is never looked at.

`Reader.onDemand` is this reader, and what stands under `OnDemand` is its steps and the grammar for
it.  Lookaheads are paid for, dead ends recorded, groups nested and lookaheads logged as over an
array of tokens.
-/

namespace SearchQuery

namespace Production

variable {α β : Type} {c : Setting} {s s' : State}

lemma bind_of_took {p : Production α} {f : α → Production β} {a : α} (h : p c s = .took a s') :
    (p >>= f) c s = f a c s' := by
  rw [bind_apply, h]

lemma bind_of_refused {p : Production α} {f : α → Production β} (h : p c s = .refused s') :
    (p >>= f) c s = .refused s' := by
  rw [bind_apply, h]

/-- At a place where nothing can be part of a bound, a bound is refused. -/
lemma bound_of_nil {pos o : Nat} {rest : List Char} (ho : s.offsetAt c.source pos = o)
    (hdrop : Text.dropBytes? o c.source = some rest) (h : rest.takeWhile (!endsBound ·) = []) :
    bound pos c s = refuseAt pos (.only .rangeBound) c s := by
  unfold bound
  simp only [bind_apply, view, ho, hdrop, h]

/-- A bound is what stands up to the first character that ends one. -/
lemma bound_of_cons {pos o : Nat} {rest text : List Char} {d : Char}
    (ho : s.offsetAt c.source pos = o) (hdrop : Text.dropBytes? o c.source = some rest)
    (h : rest.takeWhile (!endsBound ·) = d :: text) :
    bound pos c s = (seek (o + Text.byteSize (d :: text)) >>= fun next =>
      pure (String.ofList (d :: text), next)) c s := by
  unfold bound
  simp only [bind_apply, view, ho, hdrop, h]

lemma numberAfterSign_cons {sign : Char} (h : sign.utf8Size = 1) (number : List Char) :
    numberAfterSign (sign :: number) = number := by
  simp [numberAfterSign, h]

lemma unquote_quoted (text : List Char) : unquote ('"' :: (text ++ ['"'])) = text := by
  simp [unquote]

end Production

namespace State

/-- Records what was looked for at a place. -/
def recordAt (s : State) (o : Nat) (expected : KindSet) : State :=
  { s with furthest := s.furthest.record o o expected }

end State

open Production

namespace OnDemand

/-! ## Steps -/

/-- The kind of what stands at a place, as it is seen: once a limit is reached, the input is at its
end. -/
def kindSeen (c : Setting) (s : State) (o : Nat) : Kind :=
  match s.reached with
  | none => c.kindAt o
  | some _ => .endOfInput

/-- The kind of what stands at a place.  Each time costs one lookahead. -/
def lookAt (o : Nat) : Production Kind := fun c s =>
  let s := s.spendAt o
  let kind := kindSeen c s o
  .took kind { s with log := .lookedAt o kind :: s.log }

/-- The text of the token at a place. -/
def textAt (o : Nat) : Production (List Char) := view fun c _ => c.textAt o

/-- The place after the token at a place. -/
def next (o : Nat) : Production Nat := view fun c _ => c.next o

/-- Records an alternative that was not there. -/
def miss (o : Nat) (expected : KindSet) : Production Unit :=
  modify fun _ s => s.recordAt o expected

end OnDemand

/-- On demand, a place is a number of bytes. -/
@[reducible] def Cursor.onDemand : Cursor where
  lookAt := OnDemand.lookAt
  textAt := OnDemand.textAt
  next := OnDemand.next
  miss := OnDemand.miss

namespace OnDemand

abbrev refuseAt {α : Type} (o : Nat) (expected : KindSet) : Production α :=
  Cursor.onDemand.refuseAt o expected

abbrev expect (o : Nat) (kind : Kind) : Production Nat := Cursor.onDemand.expect o kind

abbrev skipBlank (o : Nat) : Production Nat := Cursor.onDemand.skipBlank o

/-- A bound of a range, and the place right after it. -/
def bound (o : Nat) : Production (Taken String) := do
  match (← view fun c _ => c.rest o).takeWhile (!endsBound ·) with
  | [] => refuseAt o (.only .rangeBound)
  | text => pure (String.ofList text, o + Text.byteSize text)

section

variable {c : Setting} {s : State} {o : Nat}

lemma bound_of_nil (h : (c.rest o).takeWhile (!endsBound ·) = []) :
    bound o c s = refuseAt o (.only .rangeBound) c s := by
  unfold bound
  simp only [bind_apply, view, h]

lemma bound_of_cons {text : List Char} {d : Char}
    (h : (c.rest o).takeWhile (!endsBound ·) = d :: text) :
    bound o c s = .took (String.ofList (d :: text), o + Text.byteSize (d :: text)) s := by
  unfold bound
  simp only [bind_apply, view, h]
  rfl

end

end OnDemand

/-- On demand, a place is a number of bytes. -/
@[reducible] def Reader.onDemand : Reader where
  toCursor := .onDemand
  bound := OnDemand.bound
  nested := Production.nestedAt

namespace OnDemand

/-! ## The grammar -/

abbrev term (o : Nat) : Production (Taken Atom) := Cursor.onDemand.term o

abbrev phrase (o : Nat) : Production (Taken Atom) := Cursor.onDemand.phrase o

abbrev rangeTo (o : Nat) : Production Nat := Cursor.onDemand.rangeTo o

abbrev rangeAfter (o : Nat) (inclusive : Bool) (closing : Kind) : Production (Taken Atom) :=
  Reader.onDemand.rangeAfter o inclusive closing

abbrev range (o : Nat) : Production (Taken Atom) := Reader.onDemand.range o

abbrev group (inner : Nat → Production (Taken Query)) (o : Nat) : Production (Taken Query) :=
  Reader.onDemand.group inner o

abbrev marker (o : Nat) : Production (Taken (Option Marker)) := Cursor.onDemand.marker o

abbrev field (o : Nat) : Production (Taken (Option String)) := Cursor.onDemand.field o

abbrev boost (o : Nat) : Production (Taken (Option String)) := Cursor.onDemand.boost o

abbrev value (inner : Nat → Production (Taken Query)) (field : Option String)
    (marker : Option Marker) (o : Nat) : Production (Taken (Modifiers → Clause)) :=
  Reader.onDemand.value inner field marker o

abbrev clause (inner : Nat → Production (Taken Query)) (operator : Option Operator) (o : Nat) :
    Production (Taken Clause) :=
  Reader.onDemand.clause inner operator o

abbrev afterBlank (inner : Nat → Production (Taken Query)) (o : Nat) :
    Production (Taken Clause) :=
  Reader.onDemand.afterBlank inner o

abbrev joinedClause (inner : Nat → Production (Taken Query)) (o : Nat) :
    Production (Taken Clause) :=
  Reader.onDemand.joinedClause inner o

abbrev sequence (steps o : Nat) : Production (Taken Query) := Reader.onDemand.sequence steps o

abbrev query (steps start : Nat) : Production Query := Reader.onDemand.query steps start

/-- A kind that stands for an operator is none that does not. -/
lemma ne_of_operatorOf? {kind other : Kind} {operator : Operator}
    (h : operatorOf? kind = some operator) (hother : operatorOf? other = none) : kind ≠ other := by
  rintro rfl
  rw [h] at hother
  cases hother

end OnDemand

end SearchQuery
