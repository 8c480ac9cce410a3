import SearchQuery.Proofs.Lockstep

/-!
# Reading goes forward

A production that is begun at a place between two characters never goes back behind it.  What it
takes ends at a place between two characters again, and where it takes at least one token, further
on.  `Leads` states this together with two things that hold for the same reason.

First, whatever the state points at lies between two characters: the dead end, and the place where a
limit was reached.  This is `State.Placed`.  A limit on nesting is reached at a parenthesis, since a
group is begun only where one was seen.

Second, there is no fault.  The steps of a sequence fall with every clause and with every group, but
these take tokens, so the place moves on at least as fast.  `sequence_leads` asks only that the
steps reach beyond the end of the source.

A production that refuses has a reason to give.  Either it has recorded a dead end, or a limit was
reached, which is `State.Stuck`.
-/

namespace SearchQuery

/-! ## Places further on -/

namespace Setting

/-- A place at another one or after it, between two characters. -/
structure Onward (c : Setting) (o o' : Nat) : Prop where
  le : o ≤ o'
  boundary : Text.IsBoundary c.source o'

/-- A place after another one, between two characters. -/
structure Past (c : Setting) (o o' : Nat) : Prop where
  lt : o < o'
  boundary : Text.IsBoundary c.source o'

variable {c : Setting} {o o₁ o₂ : Nat}

lemma Onward.refl (h : Text.IsBoundary c.source o) : c.Onward o o := ⟨le_rfl, h⟩

lemma Past.onward (h : c.Past o o₁) : c.Onward o o₁ := ⟨le_of_lt h.lt, h.boundary⟩

lemma Onward.trans (h₁ : c.Onward o o₁) (h₂ : c.Onward o₁ o₂) : c.Onward o o₂ :=
  ⟨le_trans h₁.le h₂.le, h₂.boundary⟩

lemma Past.trans_onward (h₁ : c.Past o o₁) (h₂ : c.Onward o₁ o₂) : c.Past o o₂ :=
  ⟨lt_of_lt_of_le h₁.lt h₂.le, h₂.boundary⟩

lemma Onward.trans_past (h₁ : c.Onward o o₁) (h₂ : c.Past o₁ o₂) : c.Past o o₂ :=
  ⟨lt_of_le_of_lt h₁.le h₂.lt, h₂.boundary⟩

lemma Past.trans (h₁ : c.Past o o₁) (h₂ : c.Past o₁ o₂) : c.Past o o₂ :=
  h₁.trans_onward h₂.onward

/-- A token takes the place further on. -/
lemma past_next (hb : Text.IsBoundary c.source o) (h : c.kindAt o ≠ .endOfInput) :
    c.Past o (c.next o) := by
  obtain ⟨form, -, hn⟩ := reads_of_kindAt rfl h
  have := Text.byteSize_pos form.ne_nil
  exact ⟨by omega, isBoundary_next hb⟩

lemma le_byteSize (hb : Text.IsBoundary c.source o) : o ≤ Text.byteSize c.source := by
  have := add_byteSize_rest hb
  omega

end Setting

/-! ## Where a state points -/

/-- Whatever a state points at lies between two characters of the source. -/
structure State.Placed (c : Setting) (s : State) : Prop where
  furthest : ∀ x y, s.furthest.place = some (x, y) → x = y ∧ Text.IsBoundary c.source y
  expected : s.furthest.place.isSome → ∃ k, k ∈ s.furthest.expected
  lookaheads : ∀ o, s.reached = some (.lookaheads o) → Text.IsBoundary c.source o
  nesting : ∀ o limit, s.reached = some (.nesting o limit) →
    Text.IsBoundary c.source o ∧ c.kindAt o = .openParen

/-- There is a reason to refuse. -/
def State.Stuck (s : State) : Prop := s.furthest.place.isSome ∨ s.reached.isSome

namespace State

variable {c : Setting} {s : State} {o : Nat}

lemma Placed.withDepth (h : s.Placed c) (d : Nat) : Placed c { s with depth := d } :=
  ⟨h.furthest, h.expected, h.lookaheads, h.nesting⟩

lemma isSome_place_record (f : Furthest) (pos offset : Nat) (expected : KindSet) :
    (f.record pos offset expected).place.isSome := by
  unfold Furthest.record
  cases hf : f.place with
  | none => rfl
  | some place => dsimp only; split_ifs <;> simp [hf]

lemma Placed.recordAt (h : s.Placed c) (hb : Text.IsBoundary c.source o) {expected : KindSet}
    (he : ∃ k, k ∈ expected) : (s.recordAt o expected).Placed c := by
  obtain ⟨k, hk⟩ := he
  refine ⟨?_, ?_, h.lookaheads, h.nesting⟩
  · intro x y hxy
    simp only [State.recordAt, Furthest.record] at hxy
    cases hf : s.furthest.place with
    | none =>
      simp only [hf, Option.some.injEq, Prod.mk.injEq] at hxy
      obtain ⟨rfl, rfl⟩ := hxy
      exact ⟨rfl, hb⟩
    | some place =>
      obtain ⟨x', y'⟩ := place
      have before := h.furthest x' y' hf
      simp only [hf] at hxy
      split_ifs at hxy
      · exact h.furthest x y hxy
      · simp only [Option.some.injEq, Prod.mk.injEq] at hxy
        obtain ⟨rfl, rfl⟩ := hxy
        exact before
      · simp only [Option.some.injEq, Prod.mk.injEq] at hxy
        obtain ⟨rfl, rfl⟩ := hxy
        exact ⟨rfl, hb⟩
  · intro _
    simp only [State.recordAt, Furthest.record]
    cases hf : s.furthest.place with
    | none => exact ⟨k, hk⟩
    | some place =>
      obtain ⟨j, hj⟩ := h.expected (by rw [hf]; rfl)
      dsimp only
      split_ifs
      · exact ⟨j, hj⟩
      · exact ⟨j, KindSet.mem_union.2 (Or.inl hj)⟩
      · exact ⟨k, hk⟩

lemma stuck_recordAt (s : State) (o : Nat) (expected : KindSet) : (s.recordAt o expected).Stuck :=
  Or.inl (isSome_place_record _ _ _ _)

lemma stuck_reach (s : State) (cause : LimitReached) : (s.reach cause).Stuck := by
  right
  unfold reach
  cases hr : s.reached <;> simp [hr]

lemma Placed.reach_lookaheads (h : s.Placed c) (hb : Text.IsBoundary c.source o) :
    (s.reach (.lookaheads o)).Placed c := by
  unfold reach
  cases hr : s.reached with
  | some cause => exact h
  | none =>
    refine ⟨h.furthest, h.expected, ?_, nofun⟩
    intro o' ho'
    cases ho'
    exact hb

lemma Placed.reach_nesting (h : s.Placed c) (hb : Text.IsBoundary c.source o)
    (hk : c.kindAt o = .openParen) (limit : Nat) : (s.reach (.nesting o limit)).Placed c := by
  unfold reach
  cases hr : s.reached with
  | some cause => exact h
  | none =>
    refine ⟨h.furthest, h.expected, nofun, ?_⟩
    intro o' limit' ho'
    cases ho'
    exact ⟨hb, hk⟩

lemma Placed.spendAt (h : s.Placed c) (hb : Text.IsBoundary c.source o) :
    (s.spendAt o).Placed c := by
  unfold State.spendAt
  cases s.lookaheads with
  | none => exact h
  | some left =>
    cases left with
    | zero => exact h.reach_lookaheads hb
    | succ left => exact ⟨h.furthest, h.expected, h.lookaheads, h.nesting⟩

end State

/-! ## The state that is left -/

/-- The state that a reply leaves, if it is no fault. -/
def Reply.state? {α : Type} : Reply α → Option State
  | .took _ s => some s
  | .refused s => some s
  | .fault _ => none

section state

variable {α β : Type} {c : Setting} {s s' : State}

/-- Either the second of two productions leaves the state, or the first one has refused. -/
lemma state?_bind {p : Production α} {f : α → Production β} (h : ((p >>= f) c s).state? = some s') :
    (∃ a s₁, p c s = .took a s₁ ∧ (f a c s₁).state? = some s') ∨ p c s = .refused s' := by
  rw [Production.bind_apply] at h
  cases hr : p c s with
  | took a s₁ =>
    rw [hr] at h
    exact Or.inl ⟨a, s₁, rfl, h⟩
  | refused s₁ =>
    rw [hr] at h
    obtain rfl := Option.some.inj h
    exact Or.inr rfl
  | fault cause =>
    rw [hr] at h
    cases h

/-- The same of a further clause and the clauses after it, which end with a refusal. -/
lemma state?_moreClauses {joined : Nat → Production (Production.Taken Clause)} {steps : Nat}
    {found : List Clause} {o : Nat}
    (h : (Production.moreClauses joined (steps + 1) found o c s).state? = some s') :
    (∃ a s₁, joined o c s = .took a s₁ ∧
        (Production.moreClauses joined steps (a.1 :: found) a.2 c s₁).state? = some s') ∨
      joined o c s = .refused s' := by
  rw [Production.moreClauses] at h
  cases hr : joined o c s with
  | took a s₁ =>
    rw [hr] at h
    exact Or.inl ⟨a, s₁, rfl, h⟩
  | refused s₁ =>
    rw [hr] at h
    obtain rfl := Option.some.inj h
    exact Or.inr rfl
  | fault cause =>
    rw [hr] at h
    cases h

/-- Closing a group changes only the depth. -/
lemma state?_closed {x : Reply α} (h : x.closed.state? = some s') :
    ∃ s₁, x.state? = some s₁ ∧ s' = { s₁ with depth := s₁.depth - 1 } := by
  cases x with
  | took a s₁ => exact ⟨s₁, rfl, (Option.some.inj h).symm⟩
  | refused s₁ => exact ⟨s₁, rfl, (Option.some.inj h).symm⟩
  | fault cause => cases h

end state

/-! ## Leading on -/

/-- A reply that is no fault, keeps a state that points between characters, and has a reason where
it refuses. -/
def Reply.Leads {α : Type} (c : Setting) (P : α → Prop) : Reply α → Prop
  | .took a s => s.Placed c ∧ P a
  | .refused s => s.Placed c ∧ s.Stuck
  | .fault _ => False

/-- A production replies without fault and takes only values that satisfy a condition. -/
def Leads {α : Type} (c : Setting) (p : Production α) (P : α → Prop) : Prop :=
  ∀ s : State, s.Placed c → (p c s).Leads c P

namespace Leads

variable {α β : Type} {c : Setting} {o : Nat} {p : Production α} {f : α → Production β}
  {P : α → Prop} {Q : β → Prop}

lemma pure {a : α} (h : P a) : Leads c (pure a) P := fun _ hs => ⟨hs, h⟩

lemma bind (hp : Leads c p P) (hf : ∀ a, P a → Leads c (f a) Q) : Leads c (p >>= f) Q := by
  intro s hs
  have led := hp s hs
  rw [Production.bind_apply]
  cases hr : p c s with
  | took a s' =>
    rw [hr] at led
    exact hf a led.2 s' led.1
  | refused s' =>
    rw [hr] at led
    exact led
  | fault cause =>
    rw [hr] at led
    exact led

lemma mono {P' : α → Prop} (hp : Leads c p P) (h : ∀ a, P a → P' a) : Leads c p P' := by
  intro s hs
  have led := hp s hs
  cases hr : p c s with
  | took a s' =>
    rw [hr] at led
    exact ⟨led.1, h a led.2⟩
  | refused s' =>
    rw [hr] at led
    exact led
  | fault cause =>
    rw [hr] at led
    exact led

end Leads

/-! ### Steps -/

section steps

variable {α : Type} {c : Setting} {o : Nat} {P : α → Prop}

/-- A kind that is seen and is not the end of the input stands there, and can be gone past. -/
lemma leads_lookAt (hb : Text.IsBoundary c.source o) : Leads c (OnDemand.lookAt o) fun kind =>
    kind ≠ .endOfInput → c.kindAt o = kind ∧ c.Past o (c.next o) := by
  intro s hs
  have spent := hs.spendAt hb
  refine ⟨⟨spent.furthest, spent.expected, spent.lookaheads, spent.nesting⟩, ?_⟩
  intro hk
  have stands := (kindAt_of_kindSeen rfl hk).2
  exact ⟨stands, Setting.past_next hb (by rwa [stands])⟩

lemma leads_lookAt_bind {f : Kind → Production α} (hb : Text.IsBoundary c.source o)
    (hf : ∀ kind, (kind ≠ .endOfInput → c.kindAt o = kind ∧ c.Past o (c.next o)) →
      Leads c (f kind) P) : Leads c (OnDemand.lookAt o >>= f) P :=
  (leads_lookAt hb).bind hf

lemma leads_next_bind {f : Nat → Production α} (h : Leads c (f (c.next o)) P) :
    Leads c (OnDemand.next o >>= f) P := h

lemma leads_next {P : Nat → Prop} (h : P (c.next o)) : Leads c (OnDemand.next o) P :=
  fun _ hs => ⟨hs, h⟩

lemma leads_textAt_bind {f : List Char → Production α} (h : Leads c (f (c.textAt o)) P) :
    Leads c (OnDemand.textAt o >>= f) P := h

lemma leads_miss {expected : KindSet} {p : Production α} (hb : Text.IsBoundary c.source o)
    (he : ∃ k, k ∈ expected) (hp : Leads c p P) :
    Leads c (OnDemand.miss o expected >>= fun _ => p) P :=
  fun s hs => hp (s.recordAt o expected) (hs.recordAt hb he)

lemma leads_refuseAt {expected : KindSet} (hb : Text.IsBoundary c.source o)
    (he : ∃ k, k ∈ expected) : Leads c (OnDemand.refuseAt o expected : Production α) P :=
  fun s hs => ⟨hs.recordAt hb he, s.stuck_recordAt o expected⟩

lemma exists_mem_only (kind : Kind) : ∃ k, k ∈ KindSet.only kind := ⟨kind, KindSet.mem_only.2 rfl⟩

lemma leads_expect {kind : Kind} (hk : kind ≠ .endOfInput) (hb : Text.IsBoundary c.source o) :
    Leads c (OnDemand.expect o kind) (c.Past o) := by
  unfold OnDemand.expect Cursor.expect
  refine leads_lookAt_bind hb ?_
  intro seen hseen
  split_ifs with h
  · exact leads_next (hseen (by rwa [h])).2
  · exact leads_refuseAt hb (exists_mem_only kind)

lemma leads_skipBlank (hb : Text.IsBoundary c.source o) :
    Leads c (OnDemand.skipBlank o) (c.Onward o) := by
  unfold OnDemand.skipBlank Cursor.skipBlank
  refine leads_lookAt_bind hb ?_
  intro seen hseen
  split_ifs with h
  · exact leads_next (hseen (by simp [h])).2.onward
  · exact Leads.pure (Setting.Onward.refl hb)

/-- A group is begun at a parenthesis, which is where a limit on nesting is reached. -/
lemma leads_nested {p : Production α} (hb : Text.IsBoundary c.source o)
    (hk : c.kindAt o = .openParen) (hp : Leads c p P) : Leads c (Production.nestedAt o p) P := by
  intro s hs
  cases hfull : c.fullAt s.depth with
  | some limit =>
    rw [Production.nestedAt_of_full hfull]
    exact ⟨hs.reach_nesting hb hk limit, s.stuck_reach _⟩
  | none =>
    rw [Production.nestedAt_of_free hfull]
    have led := hp _ (hs.withDepth (s.depth + 1))
    cases hr : p c { s with depth := s.depth + 1 } with
    | took a s' =>
      rw [hr] at led
      exact ⟨led.1.withDepth _, led.2⟩
    | refused s' =>
      rw [hr] at led
      exact ⟨led.1.withDepth _, led.2⟩
    | fault cause =>
      rw [hr] at led
      exact led

end steps

/-! ## Values -/

variable {c : Setting} {o : Nat}

lemma term_leads (hb : Text.IsBoundary c.source o) (hk : c.kindAt o = .word) :
    Leads c (OnDemand.term o) fun a => c.Past o a.2 := by
  have past := Setting.past_next hb (by simp [hk])
  unfold OnDemand.term Cursor.term
  refine leads_textAt_bind (leads_next_bind (leads_lookAt_bind past.boundary ?_))
  intro seen hseen
  split_ifs with h
  · refine leads_textAt_bind (leads_next_bind (Leads.pure ?_))
    exact past.trans (hseen (by simp [h])).2
  · exact leads_miss past.boundary (exists_mem_only _) (Leads.pure past)

lemma phrase_leads (hb : Text.IsBoundary c.source o) (hk : c.kindAt o = .phrase) :
    Leads c (OnDemand.phrase o) fun a => c.Past o a.2 := by
  have past := Setting.past_next hb (by simp [hk])
  unfold OnDemand.phrase Cursor.phrase
  refine leads_textAt_bind (leads_next_bind (leads_lookAt_bind past.boundary ?_))
  intro seen hseen
  split_ifs with h
  · refine leads_textAt_bind ?_
    dsimp only
    split_ifs with hnumber
    · refine leads_next_bind (Leads.pure ?_)
      exact past.trans (hseen (by simp [h])).2
    · exact leads_miss past.boundary (exists_mem_only _) (Leads.pure past)
  · exact leads_miss past.boundary (exists_mem_only _) (Leads.pure past)

lemma bound_leads (hb : Text.IsBoundary c.source o) :
    Leads c (OnDemand.bound o) fun a => c.Past o a.2 := by
  intro s hs
  cases hw : (c.rest o).takeWhile (!endsBound ·) with
  | nil =>
    rw [OnDemand.bound_of_nil hw]
    exact leads_refuseAt hb (exists_mem_only _) s hs
  | cons first more =>
    rw [OnDemand.bound_of_cons hw]
    have hrest : c.rest o = (first :: more) ++ (c.rest o).dropWhile (!endsBound ·) := by
      rw [← hw, List.takeWhile_append_dropWhile]
    have := Text.byteSize_pos (List.cons_ne_nil first more)
    exact ⟨hs, by omega, Setting.isBoundary_add hb hrest⟩

lemma rangeTo_leads (hb : Text.IsBoundary c.source o) :
    Leads c (OnDemand.rangeTo o) (c.Past o) := by
  unfold OnDemand.rangeTo Cursor.rangeTo
  refine leads_lookAt_bind hb ?_
  intro seen hseen
  split_ifs with h
  · refine leads_textAt_bind ?_
    split_ifs with hto
    · exact leads_next (hseen (by simp [h])).2
    · exact leads_refuseAt hb (exists_mem_only _)
  · exact leads_refuseAt hb (exists_mem_only _)

lemma rangeAfter_leads (hb : Text.IsBoundary c.source o) (inclusive : Bool) {closing : Kind}
    (hk : closing ≠ .endOfInput) :
    Leads c (OnDemand.rangeAfter o inclusive closing) fun a => c.Past o a.2 := by
  unfold OnDemand.rangeAfter Reader.rangeAfter
  refine (leads_skipBlank hb).bind fun o₁ h₁ => (bound_leads h₁.boundary).bind ?_
  rintro ⟨low, o₂⟩ h₂
  refine (leads_expect (by simp) h₂.boundary).bind fun o₃ h₃ =>
    (rangeTo_leads h₃.boundary).bind fun o₄ h₄ =>
    (leads_expect (by simp) h₄.boundary).bind fun o₅ h₅ => (bound_leads h₅.boundary).bind ?_
  rintro ⟨high, o₆⟩ h₆
  refine (leads_skipBlank h₆.boundary).bind fun o₇ h₇ =>
    (leads_expect hk h₇.boundary).bind fun o₈ h₈ => Leads.pure ?_
  have low := (h₁.trans_past h₂).trans h₃
  have high := (h₄.trans h₅).trans h₆
  exact ((low.trans high).trans_onward h₇).trans h₈

lemma range_leads (hb : Text.IsBoundary c.source o) :
    Leads c (OnDemand.range o) fun a => c.Past o a.2 := by
  unfold OnDemand.range Reader.range
  refine leads_lookAt_bind hb ?_
  intro seen hseen
  cases seen
  case openBracket =>
    have past := (hseen (by simp)).2
    refine leads_next_bind ((rangeAfter_leads past.boundary true (by simp)).mono ?_)
    exact fun a ha => past.trans ha
  case openBrace =>
    have past := (hseen (by simp)).2
    refine leads_next_bind ((rangeAfter_leads past.boundary false (by simp)).mono ?_)
    exact fun a ha => past.trans ha
  all_goals exact leads_refuseAt hb ⟨.openBracket, by decide⟩

/-- What is asked of the sequences in groups: that they go forward from every place after one. -/
def InnerLeads (c : Setting) (o : Nat) (inner : Nat → Production (Production.Taken Query)) : Prop :=
  ∀ o', c.Past o o' → Leads c (inner o') fun a => c.Past o' a.2

lemma InnerLeads.onward {inner : Nat → Production (Production.Taken Query)}
    (h : InnerLeads c o inner) {o₁ : Nat} (ho : c.Onward o o₁) : InnerLeads c o₁ inner :=
  fun o' ho' => h o' (ho.trans_past ho')

section inner

variable {inner : Nat → Production (Production.Taken Query)}

lemma group_leads (hinner : InnerLeads c o inner) (hb : Text.IsBoundary c.source o)
    (hk : c.kindAt o = .openParen) :
    Leads c (OnDemand.group inner o) fun a => c.Past o a.2 := by
  unfold OnDemand.group Reader.group
  refine leads_nested hb hk ?_
  refine (leads_expect (by simp) hb).bind fun o₁ h₁ =>
    (leads_skipBlank h₁.boundary).bind fun o₂ h₂ => (hinner o₂ (h₁.trans_onward h₂)).bind ?_
  rintro ⟨body, o₃⟩ h₃
  refine (leads_skipBlank h₃.boundary).bind fun o₄ h₄ =>
    (leads_expect (by simp) h₄.boundary).bind fun o₅ h₅ => Leads.pure ?_
  exact (((h₁.trans_onward h₂).trans h₃).trans_onward h₄).trans h₅

/-! ## Clauses -/

lemma marker_leads (hb : Text.IsBoundary c.source o) :
    Leads c (OnDemand.marker o) fun a => c.Onward o a.2 := by
  unfold OnDemand.marker Cursor.marker
  refine leads_lookAt_bind hb ?_
  intro seen hseen
  cases seen
  case plus =>
    exact leads_next_bind (Leads.pure (hseen (by simp)).2.onward)
  case minus =>
    exact leads_next_bind (Leads.pure (hseen (by simp)).2.onward)
  all_goals exact Leads.pure (Setting.Onward.refl hb)

lemma field_leads (hb : Text.IsBoundary c.source o) :
    Leads c (OnDemand.field o) fun a => c.Onward o a.2 := by
  unfold OnDemand.field Cursor.field
  refine leads_lookAt_bind hb ?_
  intro seen hseen
  split_ifs with h
  · have word := (hseen (by simp [h])).2
    refine leads_next_bind (leads_lookAt_bind word.boundary ?_)
    intro seen' hseen'
    split_ifs with h'
    · have colon := (hseen' (by simp [h'])).2
      refine leads_textAt_bind ?_
      split_ifs with hstar
      · exact Leads.pure (Setting.Onward.refl hb)
      · exact leads_next_bind (Leads.pure (word.trans colon).onward)
    · exact Leads.pure (Setting.Onward.refl hb)
  · exact Leads.pure (Setting.Onward.refl hb)

lemma boost_leads (hb : Text.IsBoundary c.source o) :
    Leads c (OnDemand.boost o) fun a => c.Onward o a.2 := by
  unfold OnDemand.boost Cursor.boost
  refine leads_lookAt_bind hb ?_
  intro seen hseen
  split_ifs with h
  · refine leads_textAt_bind (leads_next_bind (Leads.pure ?_))
    exact (hseen (by simp [h])).2.onward
  · exact leads_miss hb (exists_mem_only _) (Leads.pure (Setting.Onward.refl hb))

lemma exists_mem_valueStart (field : Option String) (marker : Option Marker) :
    ∃ k, k ∈ Production.valueStart field marker := by
  refine ⟨.word, ?_⟩
  cases field <;> cases marker <;> simp only [Production.valueStart] <;> decide

lemma value_leads (hinner : InnerLeads c o inner) (hb : Text.IsBoundary c.source o)
    (field : Option String) (marker : Option Marker) :
    Leads c (OnDemand.value inner field marker o) fun a => c.Past o a.2 := by
  have refuses : Leads c (OnDemand.refuseAt o (Production.valueStart field marker))
      fun a : Production.Taken (Modifiers → Clause) => c.Past o a.2 :=
    leads_refuseAt hb (exists_mem_valueStart field marker)
  unfold OnDemand.value Reader.value
  refine leads_lookAt_bind hb ?_
  intro seen hseen
  cases seen
  case word => exact (term_leads hb (hseen (by simp)).1).bind fun a ha => Leads.pure ha
  case phrase => exact (phrase_leads hb (hseen (by simp)).1).bind fun a ha => Leads.pure ha
  case openParen => exact (group_leads hinner hb (hseen (by simp)).1).bind fun a ha => Leads.pure ha
  case openBracket =>
    cases field with
    | none => exact refuses
    | some name => exact (range_leads hb).bind fun a ha => Leads.pure ha
  case openBrace =>
    cases field with
    | none => exact refuses
    | some name => exact (range_leads hb).bind fun a ha => Leads.pure ha
  all_goals exact refuses

lemma clause_leads (hinner : InnerLeads c o inner) (hb : Text.IsBoundary c.source o)
    (operator : Option Operator) :
    Leads c (OnDemand.clause inner operator o) fun a => c.Past o a.2 := by
  unfold OnDemand.clause Reader.clause
  refine (marker_leads hb).bind ?_
  rintro ⟨marker, o₁⟩ h₁
  refine (field_leads h₁.boundary).bind ?_
  rintro ⟨field, o₂⟩ h₂
  have onward := h₁.trans h₂
  refine (value_leads (hinner.onward onward) onward.boundary field marker).bind ?_
  rintro ⟨make, o₃⟩ h₃
  refine (boost_leads h₃.boundary).bind ?_
  rintro ⟨boost, o₄⟩ h₄
  exact Leads.pure ((onward.trans_past h₃).trans_onward h₄)

/-! ## Sequences -/

lemma afterBlank_leads (hinner : InnerLeads c o inner) (hb : Text.IsBoundary c.source o) :
    Leads c (OnDemand.afterBlank inner o) fun a => c.Past o a.2 := by
  unfold OnDemand.afterBlank Reader.afterBlank
  refine leads_lookAt_bind hb ?_
  intro seen hseen
  cases hop : Production.operatorOf? seen with
  | none =>
    exact leads_miss hb ⟨.keywordAnd, by decide⟩ (clause_leads hinner hb none)
  | some operator =>
    have hend : seen ≠ .endOfInput := OnDemand.ne_of_operatorOf? hop rfl
    have keyword := (hseen hend).2
    refine leads_next_bind ((leads_expect (by simp) keyword.boundary).bind fun o₂ h₂ => ?_)
    have past := keyword.trans h₂
    exact (clause_leads (hinner.onward past.onward) past.boundary (some operator)).mono
      fun a ha => past.trans ha

lemma joinedClause_leads (hinner : InnerLeads c o inner) (hb : Text.IsBoundary c.source o) :
    Leads c (OnDemand.joinedClause inner o) fun a => c.Past o a.2 := by
  unfold OnDemand.joinedClause Reader.joinedClause
  refine (leads_expect (by simp) hb).bind fun o₁ h₁ => ?_
  exact (afterBlank_leads (hinner.onward h₁.onward) h₁.boundary).mono fun a ha => h₁.trans ha

end inner

/-- Clauses are joined on until one is refused, which happens before the steps give out. -/
lemma moreClauses_leads {joined : Nat → Production (Production.Taken Clause)} {start : Nat}
    (hjoined : ∀ o, c.Onward start o → Leads c (joined o) fun a => c.Past o a.2) (steps : Nat)
    (found : List Clause) (ho : c.Onward start o) (room : Text.byteSize c.source < o + steps) :
    Leads c (Production.moreClauses joined steps found o) fun a => c.Onward o a.2 := by
  induction steps generalizing found o with
  | zero =>
    have := Setting.le_byteSize ho.boundary
    omega
  | succ steps ih =>
    intro s hs
    have led := hjoined o ho s hs
    unfold Production.moreClauses
    cases hr : joined o c s with
    | took a s' =>
      obtain ⟨clause, o₁⟩ := a
      rw [hr] at led
      obtain ⟨hs', h₁⟩ := led
      have later := h₁.lt
      refine (ih (clause :: found) (ho.trans h₁.onward) ?_).mono ?_ s' hs'
      · omega
      · exact fun b hb => h₁.onward.trans hb
    | refused s' =>
      rw [hr] at led
      exact ⟨led.1, Setting.Onward.refl ho.boundary⟩
    | fault cause =>
      rw [hr] at led
      exact led

/-- **A sequence goes forward and meets no fault**, given steps beyond the end of the source. -/
theorem sequence_leads (steps : Nat) (hb : Text.IsBoundary c.source o)
    (room : Text.byteSize c.source < o + steps) :
    Leads c (OnDemand.sequence steps o) fun a => c.Past o a.2 := by
  induction steps generalizing o with
  | zero =>
    have := Setting.le_byteSize hb
    omega
  | succ steps ih =>
    have inner : InnerLeads c o (OnDemand.sequence steps) := by
      intro o' ho'
      have := ho'.lt
      exact ih ho'.boundary (by omega)
    unfold OnDemand.sequence Reader.sequence
    refine (clause_leads inner hb none).bind ?_
    rintro ⟨first, o₁⟩ h₁
    have later := h₁.lt
    refine (moreClauses_leads (fun o₂ h₂ => ?_) steps [] (Setting.Onward.refl h₁.boundary)
      (by omega)).bind ?_
    · exact joinedClause_leads (inner.onward (h₁.onward.trans h₂)) h₂.boundary
    · rintro ⟨more, o₂⟩ h₂
      exact Leads.pure (h₁.trans_onward h₂)

/-- **A query meets no fault**, given steps beyond the end of the source. -/
theorem query_leads {steps start : Nat} (hb : Text.IsBoundary c.source start)
    (room : Text.byteSize c.source < start + steps) :
    Leads c (OnDemand.query steps start) fun _ => True := by
  unfold OnDemand.query Reader.query
  refine (leads_skipBlank hb).bind fun o₁ h₁ => ?_
  have := h₁.le
  refine (sequence_leads steps h₁.boundary (by omega)).bind ?_
  rintro ⟨q, o₂⟩ h₂
  refine (leads_skipBlank h₂.boundary).bind fun o₃ h₃ => leads_lookAt_bind h₃.boundary ?_
  intro seen _
  split_ifs
  · exact Leads.pure trivial
  · exact leads_refuseAt h₃.boundary (exists_mem_only _)

end SearchQuery
