import SearchQuery.Proofs.Acceptance

/-!
# The shape of accepted queries

What holds of every query that some text is accepted as, within any limits.  It is collapsed, no
sequence in it starts with an operator, and every text in it is one of its kind.  These are facts
about the grammar already.

The texts in the query are also pieces of the text it was read from.  `Query.pieces` lists them as a
walk from left to right meets them, and `InOrder` says that they stand in the source in this order
and beside each other: whatever was cut into tokens anew on the way, nothing is read twice.
-/

namespace SearchQuery

/-! ## The texts in a query -/

namespace Atom

/-- The texts in a value, in the order they are written in. -/
def pieces : Atom → List String
  | term text (some (.value number)) => [text, number]
  | term text _ => [text]
  | phrase text distance => text :: distance.toList
  | range low high _ => [low, high]

end Atom

mutual

/-- The texts in a query, in the order of a walk from left to right. -/
def Query.pieces : Query → List String
  | .single clause => clause.pieces
  | .list clauses => Clause.allPieces clauses

/-- The texts in a clause: its field, those in its value, and its boost factor. -/
def Clause.pieces : Clause → List String
  | .atom value m => m.field.toList ++ value.pieces ++ m.boost.toList
  | .group body m => m.field.toList ++ body.pieces ++ m.boost.toList

def Clause.allPieces : List Clause → List String
  | [] => []
  | clause :: more => clause.pieces ++ Clause.allPieces more

end

lemma pieces_collapse (first : Clause) (more : List Clause) :
    (Query.collapse first more).pieces = first.pieces ++ Clause.allPieces more := by
  cases more <;> simp [Query.collapse, Query.pieces, Clause.allPieces]

/-! ## Pieces of a text -/

/-- The texts stand in a longer text in this order, none overlapping another. -/
inductive InOrder : List String → List Char → Prop where
  | nil (w : List Char) : InOrder [] w
  | cons {piece : String} {more : List String} {w : List Char} (gap : List Char)
      (rest : InOrder more w) : InOrder (piece :: more) (gap ++ piece.toList ++ w)

namespace InOrder

variable {p q : List String} {v w : List Char}

/-- There may be anything in front. -/
lemma skip (u : List Char) (h : InOrder p w) : InOrder p (u ++ w) := by
  cases h with
  | nil => exact .nil _
  | @cons piece more w gap rest =>
    have moved := @InOrder.cons piece more w (u ++ gap) rest
    simpa using moved

lemma append (hp : InOrder p v) (hq : InOrder q w) : InOrder (p ++ q) (v ++ w) := by
  induction hp with
  | nil v => exact hq.skip v
  | @cons piece more v gap rest ih =>
    have joined := @InOrder.cons piece (more ++ q) (v ++ w) gap ih
    simpa using joined

lemma single (piece : String) (u w : List Char) : InOrder [piece] (u ++ piece.toList ++ w) :=
  .cons u (.nil w)

end InOrder

/-- A part that may be left out is a piece of its text, with some signs around it. -/
lemma PartText.inOrder {text : String → List Char → Prop} {part : Option String} {w : List Char}
    (h : PartText text part w) (around : ∀ a x, text a x → ∃ u v, x = u ++ a.toList ++ v) :
    InOrder part.toList w := by
  cases h with
  | absent => exact .nil _
  | present ha =>
    obtain ⟨u, v, rfl⟩ := around _ _ ha
    exact .single _ u v

lemma fieldText_around (name : String) (w : List Char) (h : FieldText name w) :
    ∃ u v, w = u ++ name.toList ++ v := ⟨[], [':'], h.2⟩

lemma boostText_around (number : String) (w : List Char) (h : BoostText number w) :
    ∃ u v, w = u ++ number.toList ++ v := ⟨['^'], [], by simpa using h.2⟩

lemma distanceText_around (number : String) (w : List Char) (h : DistanceText number w) :
    ∃ u v, w = u ++ number.toList ++ v := ⟨['~'], [], by simpa using h.2⟩

lemma AtomText.inOrder {field : Option String} {a : Atom} {w : List Char} (h : AtomText field a w) :
    InOrder a.pieces w := by
  cases h with
  | @term text similarity x word suffix =>
    have own := InOrder.single text [] []
    rw [List.nil_append, List.append_nil] at own
    cases suffix with
    | absent => exact own.append (.nil _)
    | present spelled =>
      cases spelled with
      | default => exact own.append (.nil _)
      | @value number hn =>
        have suffix := InOrder.single number ['~'] []
        rw [List.append_nil] at suffix
        exact own.append suffix
  | @phrase text distance x quoted suffix =>
    have own := InOrder.single text ['"'] ['"']
    exact own.append (suffix.inOrder distanceText_around)
  | @range low high inclusive opening closing u v w x _ _ _ _ _ _ _ _ =>
    have first := InOrder.single low (opening :: u) (v ++ ['T', 'O'] ++ w)
    have second := InOrder.single high [] (x ++ [closing])
    have both := first.append second
    simpa [Atom.pieces] using both

mutual

theorem SequenceText.inOrder {q : Query} {w : List Char} : SequenceText q w → InOrder q.pieces w
  | .collapse _ text joined => by
    rw [pieces_collapse]
    exact text.inOrder.append joined.inOrder

theorem ClauseText.inOrder {clause : Clause} {w : List Char} :
    ClauseText clause w → InOrder clause.pieces w
  | @ClauseText.atom value m u v w x _ field text boost => by
    have lead := (field.inOrder fieldText_around).skip u
    exact (lead.append text.inOrder).append (boost.inOrder boostText_around)
  | @ClauseText.group body m u v w x y z _ field _ text _ boost => by
    have lead := (field.inOrder fieldText_around).skip u
    have closing : InOrder [] (y ++ [')']) := .nil _
    have inner := (text.inOrder.skip ('(' :: w)).append closing
    rw [List.append_nil, ← List.append_assoc] at inner
    exact (lead.append inner).append (boost.inOrder boostText_around)

theorem MoreText.inOrder {more : List Clause} {w : List Char} :
    MoreText more w → InOrder (Clause.allPieces more) w
  | .nil => .nil []
  | .cons _ text joined => (text.inOrder.skip _).append joined.inOrder

end

/-! ## Accepted queries -/

/-- **Every accepted query is collapsed, starts every sequence without an operator, holds only texts
of their kinds, and its texts are pieces of the source in order.** -/
theorem shape_of_accepted {limits : Limits} {text : String} {q : Query}
    (h : limits.parse text = .accepted q) :
    q.isCollapsed = true ∧ q.StartsUnjoined ∧ q.IsWritable ∧ InOrder q.pieces text.toList := by
  obtain ⟨-, ⟨u, v, w, -, sequence, -, htext⟩, -, -⟩ := derives_of_accepted h
  refine ⟨sequence.isCollapsed, sequence.startsUnjoined, sequence.isWritable, ?_⟩
  have pieces := (sequence.inOrder.skip u).append (InOrder.nil w)
  rwa [List.append_nil, ← htext] at pieces

/-- A quote in a bound pairs with none of those after it. -/
theorem shape_quote_in_bound :
    let q : Query := .list [.atom (.range "\"x" "y" true) { field := some "f", boost := some "2" },
      .atom (.phrase "z" (some "1")) { marker := some .required }]
    Limits.parse {} "f:[ \"x TO y ]^2 +\"z\"~1" = .accepted q ∧ q.isCollapsed = true ∧
      q.StartsUnjoined ∧ q.IsWritable ∧
        InOrder ["f", "\"x", "y", "2", "z", "1"] "f:[ \"x TO y ]^2 +\"z\"~1".toList := by
  intro q
  have h : Limits.parse {} "f:[ \"x TO y ]^2 +\"z\"~1" = .accepted q := by decide +kernel
  exact ⟨h, shape_of_accepted h⟩

end SearchQuery
