import SearchQuery.Proofs.Reference

/-!
# Two runs of one production

What a limit changes is seen by reading one source twice, under different limits.  As long as the
limits make no difference, the two runs take the same values and their states are related by some
`R`.  Once a limit has cut one of them short the runs part, and from then on nothing is known about
the values, but their states are related by some `X`.  `Reply.Alongside` says this of two replies.

## What has to be shown of a pair of relations

The productions only look, record and nest.  `Coupling` lists what these three steps must do to the
relations, and asks of `X` that it outlives whatever the two runs do on their own.  All that is
known about a run on its own is `State.Later`: its log grows, and a limit stays reached.  From a
coupling it follows that all productions go alongside, up to `query_coupled`.
-/

namespace SearchQuery

/-! ## What a run does on its own -/

namespace State

/-- Nothing that was logged is lost, and a limit that was reached stays so. -/
structure Later (s s' : State) : Prop where
  log : s.log <:+ s'.log
  reached : ∀ cause, s.reached = some cause → s'.reached = some cause

variable {s s' s'' : State}

lemma Later.refl (s : State) : s.Later s := ⟨List.suffix_rfl, fun _ h => h⟩

lemma Later.trans (h : s.Later s') (h' : s'.Later s'') : s.Later s'' :=
  ⟨h.log.trans h'.log, fun cause hc => h'.reached cause (h.reached cause hc)⟩

lemma later_recordAt (s : State) (o : Nat) (expected : KindSet) : s.Later (s.recordAt o expected) :=
  ⟨List.suffix_rfl, fun _ h => h⟩

lemma later_withDepth (s : State) (d : Nat) : s.Later { s with depth := d } :=
  ⟨List.suffix_rfl, fun _ h => h⟩

lemma later_reach (s : State) (cause : LimitReached) : s.Later (s.reach cause) := by
  unfold reach
  cases hr : s.reached with
  | none => exact ⟨List.suffix_cons _ _, fun _ h => by rw [hr] at h; cases h⟩
  | some cause => exact Later.refl s

lemma later_spendAt (s : State) (o : Nat) : s.Later (s.spendAt o) := by
  unfold spendAt
  cases s.lookaheads with
  | none => exact Later.refl s
  | some left =>
    cases left with
    | zero => exact s.later_reach _
    | succ left => exact ⟨List.suffix_rfl, fun _ h => h⟩

lemma later_lookAt (s : State) (o : Nat) (kind : Kind) :
    s.Later { s.spendAt o with log := .lookedAt o kind :: (s.spendAt o).log } :=
  (s.later_spendAt o).trans ⟨List.suffix_cons _ _, fun _ h => h⟩

end State

/-! ## Replies that go alongside -/

/-- Either two replies are the same, in states that are related by `R`, or the runs have parted and
the states that they leave are related by `X`. -/
inductive Reply.Alongside {α : Type} (R X : State → State → Prop) : Reply α → Reply α → Prop
  | took {a : α} {s t : State} (h : R s t) : Alongside R X (.took a s) (.took a t)
  | refused {s t : State} (h : R s t) : Alongside R X (.refused s) (.refused t)
  | parted {x y : Reply α}
      (h : ∀ s t, x.state? = some s → y.state? = some t → X s t) : Alongside R X x y

/-- Replies go alongside when both are closed, if the relations do not mind the depth. -/
lemma Reply.Alongside.closed {α : Type} {R X : State → State → Prop} {x y : Reply α}
    (h : Reply.Alongside R X x y)
    (hR : ∀ s t, R s t → R { s with depth := s.depth - 1 } { t with depth := t.depth - 1 })
    (hX : ∀ s t, X s t → X { s with depth := s.depth - 1 } { t with depth := t.depth - 1 }) :
    Reply.Alongside R X x.closed y.closed := by
  cases h with
  | took hst => exact .took (hR _ _ hst)
  | refused hst => exact .refused (hR _ _ hst)
  | parted apart =>
    refine .parted ?_
    intro s' t' hs ht
    obtain ⟨s, h, rfl⟩ := state?_closed hs
    obtain ⟨t, h', rfl⟩ := state?_closed ht
    exact hX s t (apart s t h h')

/-- What the single steps of two runs, in settings with the same source, do to a pair of
relations. -/
structure Coupling (c d : Setting) (R X : State → State → Prop) : Prop where
  source : c.source = d.source
  persists : ∀ {s t s' t' : State}, X s t → s.Later s' → t.Later t' → X s' t'
  record : ∀ {s t : State} (o : Nat) (expected : KindSet), R s t →
    R (s.recordAt o expected) (t.recordAt o expected)
  lookAt : ∀ {s t : State} (o : Nat), R s t →
    Reply.Alongside R X (OnDemand.lookAt o c s) (OnDemand.lookAt o d t)
  nested : ∀ {α : Type} {p : Production α} {s t : State} (o : Nat),
    (∀ s t, R s t → Reply.Alongside R X (p c s) (p d t)) → R s t →
      Reply.Alongside R X (Production.nestedAt o p c s) (Production.nestedAt o p d t)

/-- A production goes alongside itself in two settings. -/
structure Coupled {α : Type} (c d : Setting) (R X : State → State → Prop) (p : Production α) :
    Prop where
  later : ∀ (e : Setting) (s s' : State), (p e s).state? = some s' → s.Later s'
  both : ∀ s t, R s t → Reply.Alongside R X (p c s) (p d t)

section rules

variable {α β : Type} {c d : Setting} {R X : State → State → Prop} {o : Nat}

lemma coupled_pure (a : α) : Coupled c d R X (pure a) := by
  refine ⟨?_, fun s t h => .took h⟩
  intro e s s' hs
  obtain rfl := Option.some.inj hs
  exact State.Later.refl s

lemma Coupled.bind (hR : Coupling c d R X) {p : Production α} {f : α → Production β}
    (hp : Coupled c d R X p) (hf : ∀ a, Coupled c d R X (f a)) : Coupled c d R X (p >>= f) := by
  -- what follows `p` is later than the state that `p` leaves
  have after : ∀ (e : Setting) (s s' : State), ((p >>= f) e s).state? = some s' →
      ∃ s₁, (p e s).state? = some s₁ ∧ s₁.Later s' := by
    intro e s s' hs
    rcases state?_bind hs with ⟨a, s₁, hr, hs⟩ | hr
    · exact ⟨s₁, by rw [hr]; rfl, (hf a).later e s₁ s' hs⟩
    · exact ⟨s', by rw [hr]; rfl, State.Later.refl s'⟩
  refine ⟨?_, ?_⟩
  · intro e s s' hs
    obtain ⟨s₁, h₁, later⟩ := after e s s' hs
    exact (hp.later e s s₁ h₁).trans later
  · intro s t h
    have along := hp.both s t h
    generalize hx : p c s = x at along
    generalize hy : p d t = y at along
    cases along with
    | took hst =>
      rw [Production.bind_of_took hx, Production.bind_of_took hy]
      exact (hf _).both _ _ hst
    | refused hst =>
      rw [Production.bind_apply, Production.bind_apply, hx, hy]
      exact .refused hst
    | parted apart =>
      refine .parted ?_
      intro s' t' hs ht
      obtain ⟨s₁, h₁, later⟩ := after c s s' hs
      obtain ⟨t₁, h₁', later'⟩ := after d t t' ht
      exact hR.persists (apart s₁ t₁ (hx ▸ h₁) (hy ▸ h₁')) later later'

lemma coupled_lookAt (hR : Coupling c d R X) (o : Nat) :
    Coupled c d R X (OnDemand.lookAt o) := by
  refine ⟨?_, fun s t h => hR.lookAt o h⟩
  intro e s s' hs
  obtain rfl := Option.some.inj hs
  exact s.later_lookAt o _

/-- What is read off the source is the same in both settings. -/
lemma coupled_view {f : Setting → α} (hf : f c = f d) :
    Coupled c d R X (Production.view fun c _ => f c) := by
  refine ⟨?_, ?_⟩
  · intro e s s' hs
    obtain rfl := Option.some.inj hs
    exact State.Later.refl s
  · intro s t h
    show Reply.Alongside R X (.took (f c) s) (.took (f d) t)
    rw [hf]
    exact .took h

lemma rest_congr (hR : Coupling c d R X) (o : Nat) : c.rest o = d.rest o := by
  unfold Setting.rest
  rw [hR.source]

lemma tokenAt?_congr (hR : Coupling c d R X) (o : Nat) : c.tokenAt? o = d.tokenAt? o := by
  unfold Setting.tokenAt?
  rw [hR.source]

lemma coupled_textAt (hR : Coupling c d R X) (o : Nat) :
    Coupled c d R X (OnDemand.textAt o) := by
  refine coupled_view ?_
  unfold Setting.textAt
  rw [tokenAt?_congr hR, hR.source]

lemma coupled_next (hR : Coupling c d R X) (o : Nat) : Coupled c d R X (OnDemand.next o) := by
  refine coupled_view ?_
  unfold Setting.next
  rw [tokenAt?_congr hR]

lemma coupled_miss (hR : Coupling c d R X) (o : Nat) (expected : KindSet) :
    Coupled c d R X (OnDemand.miss o expected) := by
  refine ⟨?_, fun s t h => .took (hR.record o expected h)⟩
  intro e s s' hs
  obtain rfl := Option.some.inj hs
  exact s.later_recordAt o expected

lemma coupled_refuse : Coupled c d R X (Production.refuse : Production α) := by
  refine ⟨?_, fun s t h => .refused h⟩
  intro e s s' hs
  obtain rfl := Option.some.inj hs
  exact State.Later.refl s

lemma coupled_refuseAt (hR : Coupling c d R X) (o : Nat) (expected : KindSet) :
    Coupled c d R X (OnDemand.refuseAt o expected : Production α) :=
  (coupled_miss hR o expected).bind hR fun _ => coupled_refuse

lemma coupled_nested (hR : Coupling c d R X) (o : Nat) {p : Production α}
    (hp : Coupled c d R X p) : Coupled c d R X (Production.nestedAt o p) := by
  refine ⟨?_, fun s t h => hR.nested o hp.both h⟩
  intro e s s' hs
  cases hfull : e.fullAt s.depth with
  | some limit =>
    rw [Production.nestedAt_of_full hfull] at hs
    obtain rfl := Option.some.inj hs
    exact s.later_reach _
  | none =>
    rw [Production.nestedAt_of_free hfull] at hs
    obtain ⟨s₁, h₁, rfl⟩ := state?_closed hs
    have opened := s.later_withDepth (s.depth + 1)
    exact (opened.trans (hp.later e _ s₁ h₁)).trans (s₁.later_withDepth _)

lemma coupled_expect (hR : Coupling c d R X) (o : Nat) (kind : Kind) :
    Coupled c d R X (OnDemand.expect o kind) := by
  unfold OnDemand.expect Cursor.expect
  refine (coupled_lookAt hR o).bind hR fun seen => ?_
  split_ifs
  · exact coupled_next hR o
  · exact coupled_refuseAt hR o _

lemma coupled_skipBlank (hR : Coupling c d R X) (o : Nat) :
    Coupled c d R X (OnDemand.skipBlank o) := by
  unfold OnDemand.skipBlank Cursor.skipBlank
  refine (coupled_lookAt hR o).bind hR fun seen => ?_
  split_ifs
  · exact coupled_next hR o
  · exact coupled_pure o

end rules

/-! ## Values -/

variable {c d : Setting} {R X : State → State → Prop} (hR : Coupling c d R X)

include hR

lemma term_coupled (o : Nat) : Coupled c d R X (OnDemand.term o) := by
  unfold OnDemand.term Cursor.term
  refine (coupled_textAt hR o).bind hR fun text => (coupled_next hR o).bind hR fun o =>
    (coupled_lookAt hR o).bind hR fun seen => ?_
  split_ifs
  · exact (coupled_textAt hR o).bind hR fun _ => (coupled_next hR o).bind hR fun _ => coupled_pure _
  · exact (coupled_miss hR o _).bind hR fun _ => coupled_pure _

lemma phrase_coupled (o : Nat) : Coupled c d R X (OnDemand.phrase o) := by
  unfold OnDemand.phrase Cursor.phrase
  refine (coupled_textAt hR o).bind hR fun text => (coupled_next hR o).bind hR fun o =>
    (coupled_lookAt hR o).bind hR fun seen => ?_
  split_ifs
  · refine (coupled_textAt hR o).bind hR fun number => ?_
    dsimp only
    split_ifs
    · exact (coupled_next hR o).bind hR fun _ => coupled_pure _
    · exact (coupled_miss hR o _).bind hR fun _ => coupled_pure _
  · exact (coupled_miss hR o _).bind hR fun _ => coupled_pure _

lemma bound_coupled (o : Nat) : Coupled c d R X (OnDemand.bound o) := by
  unfold OnDemand.bound
  refine (coupled_view (rest_congr hR o)).bind hR fun rest => ?_
  cases rest.takeWhile (!endsBound ·) with
  | nil => exact coupled_refuseAt hR o _
  | cons first more => exact coupled_pure _

lemma rangeTo_coupled (o : Nat) : Coupled c d R X (OnDemand.rangeTo o) := by
  unfold OnDemand.rangeTo Cursor.rangeTo
  refine (coupled_lookAt hR o).bind hR fun seen => ?_
  split_ifs
  · refine (coupled_textAt hR o).bind hR fun text => ?_
    split_ifs
    · exact coupled_next hR o
    · exact coupled_refuseAt hR o _
  · exact coupled_refuseAt hR o _

lemma rangeAfter_coupled (o : Nat) (inclusive : Bool) (closing : Kind) :
    Coupled c d R X (OnDemand.rangeAfter o inclusive closing) := by
  unfold OnDemand.rangeAfter Reader.rangeAfter
  refine (coupled_skipBlank hR o).bind hR fun o => (bound_coupled hR o).bind hR fun low => ?_
  refine (coupled_expect hR low.2 _).bind hR fun o => (rangeTo_coupled hR o).bind hR fun o => ?_
  refine (coupled_expect hR o _).bind hR fun o => (bound_coupled hR o).bind hR fun high => ?_
  refine (coupled_skipBlank hR high.2).bind hR fun o => (coupled_expect hR o _).bind hR fun o => ?_
  exact coupled_pure _

lemma range_coupled (o : Nat) : Coupled c d R X (OnDemand.range o) := by
  unfold OnDemand.range Reader.range
  refine (coupled_lookAt hR o).bind hR fun seen => ?_
  cases seen
  case openBracket => exact (coupled_next hR o).bind hR fun o => rangeAfter_coupled hR o true _
  case openBrace => exact (coupled_next hR o).bind hR fun o => rangeAfter_coupled hR o false _
  all_goals exact coupled_refuseAt hR o _

section inner

variable {inner : Nat → Production (Production.Taken Query)}
  (hinner : ∀ o, Coupled c d R X (inner o))

include hinner

lemma group_coupled (o : Nat) : Coupled c d R X (OnDemand.group inner o) := by
  unfold OnDemand.group Reader.group
  refine coupled_nested hR o ?_
  refine (coupled_expect hR o _).bind hR fun o => (coupled_skipBlank hR o).bind hR fun o => ?_
  refine (hinner o).bind hR fun body => (coupled_skipBlank hR body.2).bind hR fun o => ?_
  exact (coupled_expect hR o _).bind hR fun o => coupled_pure _

/-! ## Clauses -/

omit hinner in
lemma marker_coupled (o : Nat) : Coupled c d R X (OnDemand.marker o) := by
  unfold OnDemand.marker Cursor.marker
  refine (coupled_lookAt hR o).bind hR fun seen => ?_
  cases seen
  case plus => exact (coupled_next hR o).bind hR fun o => coupled_pure _
  case minus => exact (coupled_next hR o).bind hR fun o => coupled_pure _
  all_goals exact coupled_pure _

omit hinner in
lemma field_coupled (o : Nat) : Coupled c d R X (OnDemand.field o) := by
  unfold OnDemand.field Cursor.field
  refine (coupled_lookAt hR o).bind hR fun seen => ?_
  split_ifs
  · refine (coupled_next hR o).bind hR fun colon => (coupled_lookAt hR colon).bind hR fun seen => ?_
    split_ifs
    · refine (coupled_textAt hR o).bind hR fun name => ?_
      split_ifs
      · exact coupled_pure _
      · exact (coupled_next hR colon).bind hR fun o => coupled_pure _
    · exact coupled_pure _
  · exact coupled_pure _

omit hinner in
lemma boost_coupled (o : Nat) : Coupled c d R X (OnDemand.boost o) := by
  unfold OnDemand.boost Cursor.boost
  refine (coupled_lookAt hR o).bind hR fun seen => ?_
  split_ifs
  · exact (coupled_textAt hR o).bind hR fun _ => (coupled_next hR o).bind hR fun _ => coupled_pure _
  · exact (coupled_miss hR o _).bind hR fun _ => coupled_pure _

lemma value_coupled (field : Option String) (marker : Option Marker) (o : Nat) :
    Coupled c d R X (OnDemand.value inner field marker o) := by
  have bracket : Coupled c d R X (OnDemand.range o >>= fun atom =>
      (pure (.atom atom.1, atom.2) : Production (Production.Taken (Modifiers → Clause)))) :=
    (range_coupled hR o).bind hR fun _ => coupled_pure _
  unfold OnDemand.value Reader.value
  refine (coupled_lookAt hR o).bind hR fun seen => ?_
  cases seen
  case word => exact (term_coupled hR o).bind hR fun _ => coupled_pure _
  case phrase => exact (phrase_coupled hR o).bind hR fun _ => coupled_pure _
  case openParen => exact (group_coupled hR hinner o).bind hR fun _ => coupled_pure _
  case openBracket =>
    cases field with
    | none => exact coupled_refuseAt hR o _
    | some name => exact bracket
  case openBrace =>
    cases field with
    | none => exact coupled_refuseAt hR o _
    | some name => exact bracket
  all_goals exact coupled_refuseAt hR o _

lemma clause_coupled (operator : Option Operator) (o : Nat) :
    Coupled c d R X (OnDemand.clause inner operator o) := by
  unfold OnDemand.clause Reader.clause
  refine (marker_coupled hR o).bind hR fun marker => ?_
  refine (field_coupled hR marker.2).bind hR fun field => ?_
  refine (value_coupled hR hinner field.1 marker.1 field.2).bind hR fun make => ?_
  exact (boost_coupled hR make.2).bind hR fun _ => coupled_pure _

/-! ## Sequences -/

lemma joinedClause_coupled (o : Nat) :
    Coupled c d R X (OnDemand.joinedClause inner o) := by
  unfold OnDemand.joinedClause Reader.joinedClause Reader.afterBlank
  refine (coupled_expect hR o _).bind hR fun o => (coupled_lookAt hR o).bind hR fun seen => ?_
  cases Production.operatorOf? seen with
  | none => exact (coupled_miss hR o _).bind hR fun _ => clause_coupled hR hinner none o
  | some operator =>
    refine (coupled_next hR o).bind hR fun o => (coupled_expect hR o _).bind hR fun o => ?_
    exact clause_coupled hR hinner (some operator) o

end inner

omit hR in
/-- Each further clause is later, and so is the refusal that ends them. -/
lemma later_moreClauses {joined : Nat → Production (Production.Taken Clause)}
    (h : ∀ o, Coupled c d R X (joined o)) (steps : Nat) (found : List Clause) (o : Nat)
    (e : Setting) (s s' : State)
    (hs : (Production.moreClauses joined steps found o e s).state? = some s') : s.Later s' := by
  induction steps generalizing found o s with
  | zero => cases hs
  | succ steps ih =>
    rcases state?_moreClauses hs with ⟨a, s₁, hr, hs⟩ | hr
    · exact ((h o).later e s s₁ (by rw [hr]; rfl)).trans (ih _ _ s₁ hs)
    · exact (h o).later e s s' (by rw [hr]; rfl)

/-- Clauses are joined on alongside.  When the attempt to join another one lets the runs part, one
of them may go on and the other stop, but both are later then. -/
lemma moreClauses_coupled {joined : Nat → Production (Production.Taken Clause)}
    (h : ∀ o, Coupled c d R X (joined o)) (steps : Nat) (found : List Clause) (o : Nat) :
    Coupled c d R X (Production.moreClauses joined steps found o) := by
  refine ⟨later_moreClauses h steps found o, ?_⟩
  induction steps generalizing found o with
  | zero => exact fun s t _ => .parted nofun
  | succ steps ih =>
    intro s t hst
    have along := (h o).both s t hst
    have after : ∀ (e : Setting) (s s' : State),
        (Production.moreClauses joined (steps + 1) found o e s).state? = some s' →
          ∃ s₁, (joined o e s).state? = some s₁ ∧ s₁.Later s' := by
      intro e s s' hs
      rcases state?_moreClauses hs with ⟨a, s₁, hr, hs⟩ | hr
      · exact ⟨s₁, by rw [hr]; rfl, later_moreClauses h steps _ _ e s₁ s' hs⟩
      · exact ⟨s', by rw [hr]; rfl, State.Later.refl s'⟩
    generalize hx : joined o c s = x at along
    generalize hy : joined o d t = y at along
    cases along with
    | took hst' =>
      rw [Production.moreClauses, Production.moreClauses, hx, hy]
      exact ih _ _ _ _ hst'
    | refused hst' =>
      rw [Production.moreClauses, Production.moreClauses, hx, hy]
      exact .took hst'
    | parted apart =>
      refine .parted ?_
      intro s' t' hs ht
      obtain ⟨s₁, h₁, later⟩ := after c s s' hs
      obtain ⟨t₁, h₁', later'⟩ := after d t t' ht
      exact hR.persists (apart s₁ t₁ (hx ▸ h₁) (hy ▸ h₁')) later later'

lemma sequence_coupled (steps o : Nat) : Coupled c d R X (OnDemand.sequence steps o) := by
  induction steps generalizing o with
  | zero => exact ⟨nofun, fun s t _ => .parted nofun⟩
  | succ steps ih =>
    unfold OnDemand.sequence Reader.sequence
    refine (clause_coupled hR ih none o).bind hR fun first => ?_
    refine (moreClauses_coupled hR (joinedClause_coupled hR ih) steps [] first.2).bind hR ?_
    exact fun more => coupled_pure _

/-- **Two runs over one source go alongside until they part**, for every coupling. -/
theorem query_coupled (steps start : Nat) : Coupled c d R X (OnDemand.query steps start) := by
  unfold OnDemand.query Reader.query
  refine (coupled_skipBlank hR start).bind hR fun o => (sequence_coupled hR steps o).bind hR ?_
  intro a
  refine (coupled_skipBlank hR a.2).bind hR fun o => (coupled_lookAt hR o).bind hR fun seen => ?_
  split_ifs
  · exact coupled_pure _
  · exact coupled_refuseAt hR o _

end SearchQuery
