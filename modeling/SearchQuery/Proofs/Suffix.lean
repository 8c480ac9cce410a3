import SearchQuery.Proofs.Reference

/-!
# Reading from the middle of a source

Reading a source from a place on is reading what is left of it by itself.  Whatever names a place is
then moved by the bytes in front: the place of a dead end, of a limit that was reached and of every
lookahead.  Nothing else differs, whatever the limits are.

This is shown for reading on demand, where it is an equation.  `Shifts` says that a production which
is begun `n` bytes further on replies the same, moved by `n`, to a state that is moved by `n`.  All
that productions find out about a source is what is left of it from a place on, and
`Setting.Extends` says that this is the same in both sources.  So each production comes down to the
steps that it is made of.
-/

namespace SearchQuery

/-! ## Moving places -/

/-- A limit that was reached `n` bytes further on. -/
def LimitReached.movedBy (n : Nat) : LimitReached → LimitReached
  | lookaheads o => .lookaheads (n + o)
  | nesting o limit => .nesting (n + o) limit

/-- An event that happened `n` bytes further on. -/
def Event.movedBy (n : Nat) : Event → Event
  | lookedAt o kind => .lookedAt (n + o) kind
  | recut o => .recut (n + o)
  | limitReached cause => .limitReached (cause.movedBy n)

/-- A dead end `n` bytes further on, as it is recorded by reading on demand. -/
def Furthest.movedBy (n : Nat) (f : Furthest) : Furthest :=
  { f with place := f.place.map fun place => (n + place.1, n + place.2) }

/-- A state that points at places `n` bytes further on. -/
def State.movedBy (n : Nat) (s : State) : State :=
  { s with
    furthest := s.furthest.movedBy n
    reached := s.reached.map (·.movedBy n)
    log := s.log.map (·.movedBy n) }

/-- A value with the place after it, `n` bytes further on. -/
def Production.Taken.movedBy {α : Type} (n : Nat) (a : Production.Taken α) : Production.Taken α :=
  (a.1, n + a.2)

/-- A reply that is moved by `n` bytes, given how the value is moved. -/
def Reply.movedBy {α : Type} (n : Nat) (move : α → α) : Reply α → Reply α
  | took a s => .took (move a) (s.movedBy n)
  | refused s => .refused (s.movedBy n)
  | fault cause => .fault cause

/-- A rejection that is moved by `n` bytes to a place in a source.  The position is a matter of the
source as a whole. -/
def Rejection.movedBy (source : List Char) (n : Nat) : Rejection → Rejection
  | unexpected e =>
    let offset := n + e.span.start
    .unexpected { e with
      span := ⟨offset, e.span.length⟩
      position := Position.ofOffset source offset }
  | limit cause => .limit (cause.movedBy n)
  | tooLarge size => .tooLarge size

/-- An outcome that is moved by `n` bytes to a place in a source. -/
def Outcome.movedBy (source : List Char) (n : Nat) : Outcome → Outcome
  | accepted query => .accepted query
  | rejected cause => .rejected (cause.movedBy source n)
  | fault cause => .fault cause

section

variable (s : State) (n o : Nat)

lemma State.reach_movedBy (cause : LimitReached) :
    (s.movedBy n).reach (cause.movedBy n) = (s.reach cause).movedBy n := by
  unfold State.reach
  cases hr : s.reached <;> simp [State.movedBy, Event.movedBy, hr]

lemma State.spendAt_movedBy : (s.movedBy n).spendAt (n + o) = (s.spendAt o).movedBy n := by
  have same : (s.movedBy n).lookaheads = s.lookaheads := rfl
  unfold State.spendAt
  rw [same]
  cases s.lookaheads with
  | none => rfl
  | some left =>
    cases left with
    | zero => exact s.reach_movedBy n (.lookaheads o)
    | succ left => rfl

lemma Furthest.record_movedBy (f : Furthest) (expected : KindSet) :
    (f.movedBy n).record (n + o) (n + o) expected = (f.record o o expected).movedBy n := by
  unfold Furthest.record
  cases hf : f.place with
  | none => simp [Furthest.movedBy, hf]
  | some place =>
    obtain ⟨pos, offset⟩ := place
    simp only [Furthest.movedBy, hf, Option.map_some, Nat.add_lt_add_iff_left,
      Nat.add_left_cancel_iff]
    split_ifs <;> simp [hf]

lemma State.recordAt_movedBy (expected : KindSet) :
    (s.movedBy n).recordAt (n + o) expected = (s.recordAt o expected).movedBy n := by
  unfold State.recordAt State.movedBy
  simp only [Furthest.record_movedBy]

end

/-! ## A source in front of which there is more -/

/-- A setting whose source ends with the source of another one, after `n` bytes. -/
structure Setting.Extends (c d : Setting) (n : Nat) : Prop where
  rest : ∀ o, c.rest (n + o) = d.rest o
  size : Text.byteSize c.source = n + Text.byteSize d.source
  nesting : c.nestingLimit = d.nestingLimit

namespace Setting.Extends

variable {c d : Setting} {n : Nat}

/-- The same stands at a place and at the place moved by what is in front. -/
lemma at_moved (h : c.Extends d n) (o : Nat) :
    c.kindAt (n + o) = d.kindAt o ∧ c.textAt (n + o) = d.textAt o ∧
      c.next (n + o) = n + d.next o := by
  have hrest := h.rest o
  cases hs : Lexeme.scan (d.rest o) with
  | nil =>
    have hnil := Lexeme.scan_eq_nil hs
    obtain ⟨hk, ht, hn⟩ := Setting.kindAt_of_rest_eq_nil hnil
    obtain ⟨hk', ht', hn'⟩ := Setting.kindAt_of_rest_eq_nil (hrest.trans hnil)
    rw [hk, hk', ht, ht', hn, hn']
    exact ⟨rfl, rfl, rfl⟩
  | cons l more =>
    obtain ⟨form, back, hd, rfl⟩ := Lexeme.scan_eq_cons hs
    obtain ⟨hk, ht, hn⟩ := Setting.at_lexeme hd form.ne_nil (hd ▸ hs)
    obtain ⟨hk', ht', hn'⟩ := Setting.at_lexeme (hrest.trans hd) form.ne_nil (hd ▸ hs)
    rw [hk, hk', ht, ht', hn, hn', Nat.add_assoc]
    exact ⟨rfl, rfl, rfl⟩

lemma kindSeen (h : c.Extends d n) (s : State) (o : Nat) :
    OnDemand.kindSeen c (s.movedBy n) (n + o) = OnDemand.kindSeen d s o := by
  unfold OnDemand.kindSeen State.movedBy
  cases hr : s.reached with
  | none => exact (h.at_moved o).1
  | some cause => rfl

lemma fullAt (h : c.Extends d n) (depth : Nat) : c.fullAt depth = d.fullAt depth := by
  unfold Setting.fullAt
  rw [h.nesting]

/-- Text in front makes a setting that extends the one without it. -/
lemma of_append (front rest : List Char) (nesting : Option Nat) :
    Setting.Extends ⟨front ++ rest, nesting⟩ ⟨rest, nesting⟩ (Text.byteSize front) where
  rest o := by
    exact congrArg (·.getD []) (Text.dropBytes?_append_add front rest o)
  size := Text.byteSize_append front rest
  nesting := rfl

end Setting.Extends

/-! ## Productions further on -/

/-- A production replies in `c` what another one replies in `d`, moved by `n`. -/
def Shifts {α : Type} (c d : Setting) (n : Nat) (move : α → α) (p q : Production α) : Prop :=
  ∀ s : State, p c (s.movedBy n) = (q d s).movedBy n move

section rules

variable {α β : Type} {c d : Setting} {n : Nat} {move : α → α} {move' : β → β}
  {p q : Production α} {p' q' : Production β} {f g : α → Production β}

lemma shifts_pure {a b : α} (h : b = move a) : Shifts c d n move (pure b) (pure a) := by
  intro s
  rw [h]
  rfl

lemma Shifts.bind (hp : Shifts c d n move p q) (hf : ∀ a, Shifts c d n move' (f (move a)) (g a)) :
    Shifts c d n move' (p >>= f) (q >>= g) := by
  intro s
  rw [Production.bind_apply, Production.bind_apply, hp s]
  cases q d s with
  | took a s' => exact hf a s'
  | refused s' => rfl
  | fault cause => rfl

/-! ### Steps -/

lemma shifts_lookAt_bind (h : c.Extends d n) (o : Nat) {f g : Kind → Production β}
    (hf : ∀ kind, Shifts c d n move' (f kind) (g kind)) :
    Shifts c d n move' (OnDemand.lookAt (n + o) >>= f) (OnDemand.lookAt o >>= g) := by
  have look : Shifts c d n id (OnDemand.lookAt (n + o)) (OnDemand.lookAt o) := by
    intro s
    unfold OnDemand.lookAt
    dsimp only
    rw [s.spendAt_movedBy, h.kindSeen]
    rfl
  exact look.bind hf

lemma shifts_next (h : c.Extends d n) (o : Nat) :
    Shifts c d n (n + ·) (OnDemand.next (n + o)) (OnDemand.next o) :=
  fun s => congrArg (Reply.took · (s.movedBy n)) (h.at_moved o).2.2

lemma shifts_textAt_bind (h : c.Extends d n) (o : Nat) {f g : List Char → Production β}
    (hf : Shifts c d n move' (f (d.textAt o)) (g (d.textAt o))) :
    Shifts c d n move' (OnDemand.textAt (n + o) >>= f) (OnDemand.textAt o >>= g) := by
  intro s
  show f (c.textAt (n + o)) c (s.movedBy n) = _
  rw [(h.at_moved o).2.1]
  exact hf s

lemma shifts_miss (o : Nat) (expected : KindSet) (hp : Shifts c d n move' p' q') :
    Shifts c d n move' (OnDemand.miss (n + o) expected >>= fun _ => p')
      (OnDemand.miss o expected >>= fun _ => q') := by
  intro s
  have rest := hp (s.recordAt o expected)
  rw [← s.recordAt_movedBy] at rest
  exact rest

lemma shifts_refuseAt (o : Nat) (expected : KindSet) :
    Shifts c d n move (OnDemand.refuseAt (n + o) expected) (OnDemand.refuseAt o expected) :=
  fun s => congrArg Reply.refused (s.recordAt_movedBy n o expected)

lemma shifts_nested (h : c.Extends d n) (o : Nat) (hp : Shifts c d n move p q) :
    Shifts c d n move (Production.nestedAt (n + o) p) (Production.nestedAt o q) := by
  intro s
  have full : c.fullAt (s.movedBy n).depth = d.fullAt s.depth := h.fullAt s.depth
  cases hfull : d.fullAt s.depth with
  | some limit =>
    rw [Production.nestedAt_of_full hfull, Production.nestedAt_of_full (full.trans hfull)]
    exact congrArg Reply.refused (s.reach_movedBy n (.nesting o limit))
  | none =>
    have inside := hp { s with depth := s.depth + 1 }
    rw [Production.nestedAt_of_free hfull, Production.nestedAt_of_free (full.trans hfull),
      show ({ s.movedBy n with depth := (s.movedBy n).depth + 1 } : State) =
        State.movedBy n { s with depth := s.depth + 1 } from rfl, inside]
    cases q d { s with depth := s.depth + 1 } <;> rfl

end rules

/-! ## Values -/

section

variable {c d : Setting} {n : Nat}

lemma expect_shifts (h : c.Extends d n) (o : Nat) (kind : Kind) :
    Shifts c d n (n + ·) (OnDemand.expect (n + o) kind) (OnDemand.expect o kind) := by
  unfold OnDemand.expect Cursor.expect
  apply shifts_lookAt_bind h
  intro seen
  split_ifs
  · exact shifts_next h o
  · exact shifts_refuseAt o _

lemma skipBlank_shifts (h : c.Extends d n) (o : Nat) :
    Shifts c d n (n + ·) (OnDemand.skipBlank (n + o)) (OnDemand.skipBlank o) := by
  unfold OnDemand.skipBlank Cursor.skipBlank
  apply shifts_lookAt_bind h
  intro seen
  split_ifs
  · exact shifts_next h o
  · exact shifts_pure rfl

lemma term_shifts (h : c.Extends d n) (o : Nat) :
    Shifts c d n (.movedBy n) (OnDemand.term (n + o)) (OnDemand.term o) := by
  unfold OnDemand.term Cursor.term
  apply shifts_textAt_bind h
  apply (shifts_next h o).bind
  intro o
  apply shifts_lookAt_bind h
  intro seen
  split_ifs
  · apply shifts_textAt_bind h
    exact (shifts_next h o).bind fun _ => shifts_pure rfl
  · exact shifts_miss o _ (shifts_pure rfl)

lemma phrase_shifts (h : c.Extends d n) (o : Nat) :
    Shifts c d n (.movedBy n) (OnDemand.phrase (n + o)) (OnDemand.phrase o) := by
  unfold OnDemand.phrase Cursor.phrase
  apply shifts_textAt_bind h
  apply (shifts_next h o).bind
  intro o
  apply shifts_lookAt_bind h
  intro seen
  split_ifs
  · apply shifts_textAt_bind h
    dsimp only
    split_ifs
    · exact (shifts_next h o).bind fun _ => shifts_pure rfl
    · exact shifts_miss o _ (shifts_pure rfl)
  · exact shifts_miss o _ (shifts_pure rfl)

lemma bound_shifts (h : c.Extends d n) (o : Nat) :
    Shifts c d n (.movedBy n) (OnDemand.bound (n + o)) (OnDemand.bound o) := by
  intro s
  have same := h.rest o
  cases hw : (d.rest o).takeWhile (!endsBound ·) with
  | nil =>
    rw [OnDemand.bound_of_nil hw, OnDemand.bound_of_nil (by rw [same, hw])]
    exact shifts_refuseAt o _ s
  | cons first more =>
    rw [OnDemand.bound_of_cons hw, OnDemand.bound_of_cons (by rw [same, hw]), Nat.add_assoc]
    rfl

lemma rangeTo_shifts (h : c.Extends d n) (o : Nat) :
    Shifts c d n (n + ·) (OnDemand.rangeTo (n + o)) (OnDemand.rangeTo o) := by
  unfold OnDemand.rangeTo Cursor.rangeTo
  apply shifts_lookAt_bind h
  intro seen
  split_ifs
  · apply shifts_textAt_bind h
    split_ifs
    · exact shifts_next h o
    · exact shifts_refuseAt o _
  · exact shifts_refuseAt o _

lemma rangeAfter_shifts (h : c.Extends d n) (o : Nat) (inclusive : Bool) (closing : Kind) :
    Shifts c d n (.movedBy n) (OnDemand.rangeAfter (n + o) inclusive closing)
      (OnDemand.rangeAfter o inclusive closing) := by
  unfold OnDemand.rangeAfter Reader.rangeAfter
  apply (skipBlank_shifts h o).bind
  intro o
  apply (bound_shifts h o).bind
  rintro ⟨low, o⟩
  apply (expect_shifts h o _).bind
  intro o
  apply (rangeTo_shifts h o).bind
  intro o
  apply (expect_shifts h o _).bind
  intro o
  apply (bound_shifts h o).bind
  rintro ⟨high, o⟩
  apply (skipBlank_shifts h o).bind
  intro o
  apply (expect_shifts h o _).bind
  intro o
  exact shifts_pure rfl

lemma range_shifts (h : c.Extends d n) (o : Nat) :
    Shifts c d n (.movedBy n) (OnDemand.range (n + o)) (OnDemand.range o) := by
  unfold OnDemand.range Reader.range
  apply shifts_lookAt_bind h
  intro seen
  cases seen
  case openBracket => exact (shifts_next h o).bind fun o => rangeAfter_shifts h o _ _
  case openBrace => exact (shifts_next h o).bind fun o => rangeAfter_shifts h o _ _
  all_goals exact shifts_refuseAt o _

section inner

variable {inner : Nat → Production (Production.Taken Query)}

lemma group_shifts (h : c.Extends d n)
    (hinner : ∀ o, Shifts c d n (.movedBy n) (inner (n + o)) (inner o)) (o : Nat) :
    Shifts c d n (.movedBy n) (OnDemand.group inner (n + o)) (OnDemand.group inner o) := by
  unfold OnDemand.group Reader.group
  apply shifts_nested h
  apply (expect_shifts h o _).bind
  intro o
  apply (skipBlank_shifts h o).bind
  intro o
  apply (hinner o).bind
  rintro ⟨body, o⟩
  apply (skipBlank_shifts h o).bind
  intro o
  apply (expect_shifts h o _).bind
  intro o
  exact shifts_pure rfl

/-! ## Clauses -/

lemma marker_shifts (h : c.Extends d n) (o : Nat) :
    Shifts c d n (.movedBy n) (OnDemand.marker (n + o)) (OnDemand.marker o) := by
  unfold OnDemand.marker Cursor.marker
  apply shifts_lookAt_bind h
  intro seen
  cases seen
  case plus => exact (shifts_next h o).bind fun _ => shifts_pure rfl
  case minus => exact (shifts_next h o).bind fun _ => shifts_pure rfl
  all_goals exact shifts_pure rfl

lemma field_shifts (h : c.Extends d n) (o : Nat) :
    Shifts c d n (.movedBy n) (OnDemand.field (n + o)) (OnDemand.field o) := by
  unfold OnDemand.field Cursor.field
  apply shifts_lookAt_bind h
  intro seen
  split_ifs
  · apply (shifts_next h o).bind
    intro colon
    apply shifts_lookAt_bind h
    intro seen'
    split_ifs
    · apply shifts_textAt_bind h
      split_ifs
      · exact shifts_pure rfl
      · exact (shifts_next h colon).bind fun _ => shifts_pure rfl
    · exact shifts_pure rfl
  · exact shifts_pure rfl

lemma boost_shifts (h : c.Extends d n) (o : Nat) :
    Shifts c d n (.movedBy n) (OnDemand.boost (n + o)) (OnDemand.boost o) := by
  unfold OnDemand.boost Cursor.boost
  apply shifts_lookAt_bind h
  intro seen
  split_ifs
  · apply shifts_textAt_bind h
    exact (shifts_next h o).bind fun _ => shifts_pure rfl
  · exact shifts_miss o _ (shifts_pure rfl)

lemma value_shifts (h : c.Extends d n)
    (hinner : ∀ o, Shifts c d n (.movedBy n) (inner (n + o)) (inner o)) (field : Option String)
    (marker : Option Marker) (o : Nat) :
    Shifts c d n (.movedBy n) (OnDemand.value inner field marker (n + o))
      (OnDemand.value inner field marker o) := by
  unfold OnDemand.value Reader.value
  apply shifts_lookAt_bind h
  intro seen
  cases seen
  case word => exact (term_shifts h o).bind fun _ => shifts_pure rfl
  case phrase => exact (phrase_shifts h o).bind fun _ => shifts_pure rfl
  case openParen => exact (group_shifts h hinner o).bind fun _ => shifts_pure rfl
  case openBracket =>
    cases field with
    | none => exact shifts_refuseAt o _
    | some name => exact (range_shifts h o).bind fun _ => shifts_pure rfl
  case openBrace =>
    cases field with
    | none => exact shifts_refuseAt o _
    | some name => exact (range_shifts h o).bind fun _ => shifts_pure rfl
  all_goals exact shifts_refuseAt o _

lemma clause_shifts (h : c.Extends d n)
    (hinner : ∀ o, Shifts c d n (.movedBy n) (inner (n + o)) (inner o))
    (operator : Option Operator) (o : Nat) :
    Shifts c d n (.movedBy n) (OnDemand.clause inner operator (n + o))
      (OnDemand.clause inner operator o) := by
  unfold OnDemand.clause Reader.clause
  apply (marker_shifts h o).bind
  rintro ⟨marker, o⟩
  apply (field_shifts h o).bind
  rintro ⟨field, o⟩
  apply (value_shifts h hinner field marker o).bind
  rintro ⟨make, o⟩
  apply (boost_shifts h o).bind
  rintro ⟨boost, o⟩
  exact shifts_pure rfl

/-! ## Sequences -/

lemma joinedClause_shifts (h : c.Extends d n)
    (hinner : ∀ o, Shifts c d n (.movedBy n) (inner (n + o)) (inner o)) (o : Nat) :
    Shifts c d n (.movedBy n) (OnDemand.joinedClause inner (n + o))
      (OnDemand.joinedClause inner o) := by
  unfold OnDemand.joinedClause Reader.joinedClause Reader.afterBlank
  apply (expect_shifts h o _).bind
  intro o
  apply shifts_lookAt_bind h
  intro seen
  cases Production.operatorOf? seen with
  | none => exact shifts_miss o _ (clause_shifts h hinner none o)
  | some operator =>
    apply (shifts_next h o).bind
    intro o
    apply (expect_shifts h o _).bind
    intro o
    exact clause_shifts h hinner (some operator) o

end inner

lemma moreClauses_shifts {joined : Nat → Production (Production.Taken Clause)}
    (hjoined : ∀ o, Shifts c d n (.movedBy n) (joined (n + o)) (joined o)) (steps : Nat)
    (found : List Clause) (o : Nat) :
    Shifts c d n (.movedBy n) (Production.moreClauses joined steps found (n + o))
      (Production.moreClauses joined steps found o) := by
  induction steps generalizing found o with
  | zero => exact fun _ => rfl
  | succ steps ih =>
    intro s
    unfold Production.moreClauses
    rw [hjoined o s]
    cases joined o d s with
    | took a s' => exact ih (a.1 :: found) a.2 s'
    | refused s' => rfl
    | fault cause => rfl

/-- **A sequence is read the same further on.** -/
theorem sequence_shifts (h : c.Extends d n) (steps o : Nat) :
    Shifts c d n (.movedBy n) (OnDemand.sequence steps (n + o)) (OnDemand.sequence steps o) := by
  induction steps generalizing o with
  | zero => exact fun _ => rfl
  | succ steps ih =>
    unfold OnDemand.sequence Reader.sequence
    apply (clause_shifts h ih none o).bind
    rintro ⟨first, o⟩
    apply (moreClauses_shifts (joinedClause_shifts h ih) steps [] o).bind
    rintro ⟨more, o⟩
    exact shifts_pure rfl

/-- **A query is read the same further on.** -/
theorem query_shifts (h : c.Extends d n) (steps o : Nat) :
    Shifts c d n id (OnDemand.query steps (n + o)) (OnDemand.query steps o) := by
  unfold OnDemand.query Reader.query
  apply (skipBlank_shifts h o).bind
  intro o
  apply (sequence_shifts h steps o).bind
  rintro ⟨q, o⟩
  apply (skipBlank_shifts h o).bind
  intro o
  apply shifts_lookAt_bind h
  intro seen
  split_ifs
  · exact shifts_pure rfl
  · exact shifts_refuseAt o _

end

/-! ## What reading comes to -/

section

variable {c d : Setting} {n : Nat}

lemma found_movedBy (h : c.Extends d n) (o : Nat) :
    OnDemand.found c (n + o) = OnDemand.found d o := by
  obtain ⟨kind, text, -⟩ := h.at_moved o
  unfold OnDemand.found
  rw [kind, text]

lemma deadEnd_movedBy (h : c.Extends d n) (f : Furthest) :
    OnDemand.deadEnd c (f.movedBy n) = n + OnDemand.deadEnd d f := by
  unfold OnDemand.deadEnd Furthest.movedBy
  cases f.place with
  | none => exact h.size
  | some place => rfl

/-- The report of a dead end is moved along with it. -/
lemma report_movedBy (h : c.Extends d n) (f : Furthest) :
    .unexpected (OnDemand.report c (f.movedBy n)) =
      (Rejection.unexpected (OnDemand.report d f)).movedBy c.source n := by
  obtain ⟨-, text, -⟩ := h.at_moved (OnDemand.deadEnd d f)
  unfold OnDemand.report Rejection.movedBy
  rw [deadEnd_movedBy h, found_movedBy h, text]
  rfl

lemma conclude_movedBy (h : c.Extends d n) (x : Reply Query) :
    (OnDemand.conclude c (x.movedBy n id)).outcome =
        (OnDemand.conclude d x).outcome.movedBy c.source n ∧
      (OnDemand.conclude c (x.movedBy n id)).events =
        (OnDemand.conclude d x).events.map (·.movedBy n) := by
  cases x with
  | took q s =>
    refine ⟨?_, List.map_reverse.symm⟩
    unfold Reply.movedBy State.movedBy OnDemand.conclude
    cases hr : s.reached <;> simp only [hr] <;> rfl
  | refused s =>
    refine ⟨?_, List.map_reverse.symm⟩
    unfold Reply.movedBy State.movedBy OnDemand.conclude
    cases hr : s.reached with
    | none =>
      simp only [hr, Option.map_none, report_movedBy h]
      rfl
    | some cause =>
      simp only [hr]
      rfl
  | fault cause => exact ⟨rfl, rfl⟩

end

/-- **Text in front of a source moves reading on demand, and that is all.** -/
lemma readFrom_append (limits : Limits) (front rest : List Char) :
    let n := Text.byteSize front
    let whole := OnDemand.readFrom limits (front ++ rest) n
    let alone := OnDemand.readFrom limits rest 0
    whole.outcome = alone.outcome.movedBy (front ++ rest) n ∧
      whole.events = alone.events.map (·.movedBy n) := by
  intro n whole alone
  let c : Setting := ⟨front ++ rest, limits.nesting⟩
  let d : Setting := ⟨rest, limits.nesting⟩
  have extends' : c.Extends d n := Setting.Extends.of_append front rest limits.nesting
  let s := OnDemand.start limits
  have boundary := Text.isBoundary_zero rest
  -- the run of the source alone is granted as many steps as that of the whole
  have steps : OnDemand.query (Text.byteSize rest + 1) 0 d s =
      OnDemand.query (Text.byteSize (front ++ rest) + 1) 0 d s := by
    refine query_eq_of_le (placed_start d limits) boundary ?_ ?_
    · exact Nat.lt_of_lt_of_le (Nat.lt_succ_self _) (Nat.le_add_left _ _)
    · rw [Text.byteSize_append]
      omega
  have moved : OnDemand.query (Text.byteSize (front ++ rest) + 1) n c s =
      (OnDemand.query (Text.byteSize rest + 1) 0 d s).movedBy n id := by
    rw [steps]
    exact query_shifts extends' _ 0 s
  have same := conclude_movedBy extends' (OnDemand.query (Text.byteSize rest + 1) 0 d s)
  rw [← moved] at same
  exact same

lemma Reading.lookaheads_movedBy {r t : Reading} {n : Nat}
    (h : r.events = t.events.map (·.movedBy n)) :
    r.lookaheads = t.lookaheads.map fun look => (n + look.1, look.2) := by
  unfold Reading.lookaheads
  rw [h, List.filterMap_map, List.map_filterMap]
  congr 1
  funext event
  cases event <;> rfl

/-- **Reading what is left of a source from a place on is reading it by itself.**  For all limits,
the outcome is the same query, or the same rejection moved by the bytes in front, and every
lookahead sees the same, moved likewise. -/
theorem readTokens_suffix (limits : Limits) {source rest : List Char} {start : Nat}
    (h : Text.dropBytes? start source = some rest) :
    let whole := limits.readTokens source (Token.lexFrom source start)
    let alone := limits.readTokens rest (Token.lex rest)
    whole.outcome = alone.outcome.movedBy source start ∧
      whole.lookaheads = alone.lookaheads.map fun look => (start + look.1, look.2) := by
  intro whole alone
  obtain ⟨front, rfl, rfl⟩ := Text.dropBytes?_eq_some_iff.1 h
  have boundary : Text.IsBoundary (front ++ rest) (Text.byteSize front) := by
    rw [Text.IsBoundary, h]
    rfl
  have boundary' := Text.isBoundary_zero rest
  obtain ⟨outcome, events⟩ := readTokens_lexFrom limits boundary
  obtain ⟨outcome', events'⟩ := readTokens_lexFrom limits boundary'
  obtain ⟨moved, movedEvents⟩ := readFrom_append limits front rest
  constructor
  · have read : alone.outcome = (OnDemand.readFrom limits rest 0).outcome := outcome'
    rw [read, ← moved]
    exact outcome
  · have read : alone.lookaheads = (OnDemand.readFrom limits rest 0).lookaheads :=
      Reading.lookaheads_eq events'
    rw [read, ← Reading.lookaheads_movedBy movedEvents]
    exact Reading.lookaheads_eq events

/-- The bound of a range is cut anew, and what stands after it is reported where it stands. -/
theorem readTokens_suffix_quoted_bound :
    let source := "é f:[\"x  y".toList
    let rest := "f:[\"x  y".toList
    Text.dropBytes? 3 source = some rest ∧
      (Limits.readTokens {} rest (Token.lex rest)).outcome =
        .rejected (.unexpected ⟨⟨7, 1⟩, ⟨1, 8⟩, "`y`", .only .rangeTo⟩) ∧
      (Limits.readTokens {} source (Token.lexFrom source 3)).outcome =
        .rejected (.unexpected ⟨⟨10, 1⟩, ⟨1, 10⟩, "`y`", .only .rangeTo⟩) := by
  intro source rest
  have h : Text.dropBytes? 3 source = some rest := by decide
  have alone : (Limits.readTokens {} rest (Token.lex rest)).outcome =
      .rejected (.unexpected ⟨⟨7, 1⟩, ⟨1, 8⟩, "`y`", .only .rangeTo⟩) := by decide +kernel
  have moved := (readTokens_suffix {} h).1
  rw [alone] at moved
  have position : Position.ofOffset source 10 = ⟨1, 10⟩ := by decide
  refine ⟨h, alone, moved.trans ?_⟩
  rw [← position]
  rfl

end SearchQuery
