import SearchQuery.Proofs.Lookaheads

/-!
# Reading is linear in the size of a text

Reading a text of `n` bytes makes fewer than `8 * (n + 1)` lookaheads, whether or not the text is a
query.  The count is amortised: `Costs` says how many lookaheads a production makes, and where a
production takes a value at a place further on, eight lookaheads are paid for by each byte between.
A value and a clause stay below that, so what they have left pays for the lookaheads that come
before the next one.

## In vain

A production that refuses has no such place.  What it cost is then only bounded by what is left of
the source, and would have to be paid a second time if reading went on from an earlier place.  That
is what a sequence does: it ends in front of a further clause that was refused, however far that
clause had come.  But then a blank stands there and something after it that neither closes a group
nor ends the input.  The place is `Setting.Unclosable`, and every group that is still open will be
refused in its turn, for two lookaheads more.  Where the place is not of this kind, the further
clause was refused within five lookaheads (`joinedClause_costs`).  So the two sides of
`Setting.Bill` are all that a sequence can cost.
-/

namespace SearchQuery

/-! ## Counting lookaheads -/

/-- Whether an event is a lookahead. -/
def Event.isLookahead : Event → Bool
  | lookedAt _ _ => true
  | _ => false

/-- The number of lookaheads in the log of a state. -/
def State.looks (s : State) : Nat := s.log.countP (·.isLookahead)

/-- No more lookaheads are paid for than are made. -/
lemma paid_le_countP (log : List Event) : paid log ≤ log.countP (·.isLookahead) := by
  induction log with
  | nil => exact le_rfl
  | cons event log ih =>
    rw [List.countP_cons]
    cases event with
    | lookedAt o kind =>
      rw [paid, if_pos (show Event.isLookahead (.lookedAt o kind) = true from rfl)]
      split_ifs <;> omega
    | recut o => exact le_trans ih (Nat.le_add_right _ _)
    | limitReached cause => exact le_trans ih (Nat.le_add_right _ _)

section

variable (s : State) (o : Nat)

@[simp] lemma State.looks_reach (cause : LimitReached) : (s.reach cause).looks = s.looks := by
  unfold State.reach
  cases s.reached with
  | some earlier => rfl
  | none => simp [State.looks, Event.isLookahead]

@[simp] lemma State.looks_spendAt : (s.spendAt o).looks = s.looks := by
  unfold State.spendAt
  cases s.lookaheads with
  | none => rfl
  | some left =>
    cases left with
    | zero => exact s.looks_reach _
    | succ left => rfl

end

/-! ## The cost of a production -/

/-- What a reply comes to after `looks` lookaheads were made: those made since, together with the
value that was taken, satisfy `P`, and where there is none, `R`. -/
def Reply.Costs {α : Type} (looks : Nat) (P : α → Nat → Prop) (R : Nat → Prop) : Reply α → Prop
  | .took a s => ∃ k, s.looks = looks + k ∧ P a k
  | .refused s => ∃ k, s.looks = looks + k ∧ R k
  | .fault _ => True

/-- How many lookaheads a production makes, be it that it takes a value or that it refuses. -/
def Costs {α : Type} (c : Setting) (p : Production α) (P : α → Nat → Prop) (R : Nat → Prop) :
    Prop :=
  ∀ s : State, s.Placed c → (p c s).Costs s.looks P R

section rules

variable {α β : Type} {c : Setting} {o k : Nat} {p : Production α} {f : α → Production β}
  {P : α → Nat → Prop} {Q : β → Nat → Prop} {R R' : Nat → Prop}

/-- Lookaheads that were made before are counted in. -/
lemma Reply.Costs.after {looks : Nat} {x : Reply β}
    (h : x.Costs (looks + k) (fun b j => Q b (k + j)) fun j => R (k + j)) : x.Costs looks Q R := by
  cases x with
  | took b s =>
    obtain ⟨j, hj, hb⟩ := h
    exact ⟨k + j, by rw [hj, Nat.add_assoc], hb⟩
  | refused s =>
    obtain ⟨j, hj, hr⟩ := h
    exact ⟨k + j, by rw [hj, Nat.add_assoc], hr⟩
  | fault cause => trivial

/-- What is made of the cost of a value may use what is known of the value and its state. -/
lemma Reply.Costs.imp {looks : Nat} {x : Reply α} {P' : α → Nat → Prop} (h : x.Costs looks P R)
    (ha : ∀ a s k, x = .took a s → P a k → P' a k) (hr : ∀ k, R k → R' k) :
    x.Costs looks P' R' := by
  cases x with
  | took a s =>
    obtain ⟨k, hk, cost⟩ := h
    exact ⟨k, hk, ha a s k rfl cost⟩
  | refused s =>
    obtain ⟨k, hk, cost⟩ := h
    exact ⟨k, hk, hr k cost⟩
  | fault cause => trivial

/-- A bound that holds in either case is one on the state that is left. -/
lemma Reply.Costs.of_state? {looks : Nat} {x : Reply α} {s : State}
    (h : x.Costs looks (fun _ => R) R) (hs : x.state? = some s) :
    ∃ k, s.looks = looks + k ∧ R k := by
  cases x with
  | took a s' =>
    obtain rfl := Option.some.inj hs
    exact h
  | refused s' =>
    obtain rfl := Option.some.inj hs
    exact h
  | fault cause => cases hs

namespace Costs

lemma pure {a : α} (h : P a 0) : Costs c (pure a) P R := fun _ _ => ⟨0, rfl, h⟩

/-- Costs add up.  Where the first production leads to is known from elsewhere. -/
lemma bind {L : α → Prop} (hp : Costs c p P R) (led : Leads c p L)
    (hf : ∀ a k, L a → P a k → Costs c (f a) (fun b j => Q b (k + j)) fun j => R' (k + j))
    (hr : ∀ k, R k → R' k) : Costs c (p >>= f) Q R' := by
  intro s hs
  have cost := hp s hs
  have leads := led s hs
  rw [Production.bind_apply]
  cases hx : p c s with
  | took a s₁ =>
    rw [hx] at cost leads
    obtain ⟨k, hk, ha⟩ := cost
    have rest := hf a k leads.2 ha s₁ leads.1
    rw [hk] at rest
    exact rest.after
  | refused s₁ =>
    rw [hx] at cost
    obtain ⟨k, hk, h⟩ := cost
    exact ⟨k, hk, hr k h⟩
  | fault cause => trivial

lemma mono {P' : α → Nat → Prop} (hp : Costs c p P R) (ha : ∀ a k, P a k → P' a k)
    (hr : ∀ k, R k → R' k) : Costs c p P' R' :=
  fun s hs => (hp s hs).imp (fun a _ k _ => ha a k) hr

/-- Where a production leads to is known from elsewhere. -/
lemma leading {L : α → Prop} (hp : Costs c p P R) (led : Leads c p L) :
    Costs c p (fun a k => L a ∧ P a k) R := by
  intro s hs
  have leads := led s hs
  refine (hp s hs).imp ?_ fun _ h => h
  intro a s₁ k hx cost
  rw [hx] at leads
  exact ⟨leads.2, cost⟩

end Costs

/-! ### Steps -/

/-- A lookahead costs one. -/
lemma costs_lookAt (c : Setting) (o : Nat) :
    Costs c (OnDemand.lookAt o) (fun _ k => k = 1) fun _ => False := by
  intro s _
  have spent := s.looks_spendAt o
  refine ⟨1, ?_, rfl⟩
  rw [← spent]
  exact List.countP_cons_of_pos rfl

lemma costs_lookAt_bind {f : Kind → Production β} (hb : Text.IsBoundary c.source o)
    (hf : ∀ kind, (kind ≠ .endOfInput → c.kindAt o = kind ∧ c.Past o (c.next o)) →
      Costs c (f kind) (fun b j => Q b (1 + j)) fun j => R (1 + j)) :
    Costs c (OnDemand.lookAt o >>= f) Q R := by
  apply (costs_lookAt c o).bind (leads_lookAt hb) _ (fun _ h => h.elim)
  rintro kind k stands rfl
  exact hf kind stands

lemma costs_next {P : Nat → Nat → Prop} (h : P (c.next o) 0) : Costs c (OnDemand.next o) P R :=
  fun _ _ => ⟨0, rfl, h⟩

lemma costs_next_bind {f : Nat → Production β} (h : Costs c (f (c.next o)) Q R) :
    Costs c (OnDemand.next o >>= f) Q R := h

lemma costs_textAt_bind {f : List Char → Production β} (h : Costs c (f (c.textAt o)) Q R) :
    Costs c (OnDemand.textAt o >>= f) Q R := h

lemma costs_miss {expected : KindSet} {p : Production β} (hb : Text.IsBoundary c.source o)
    (he : ∃ k, k ∈ expected) (hp : Costs c p Q R) :
    Costs c (OnDemand.miss o expected >>= fun _ => p) Q R :=
  fun s hs => hp (s.recordAt o expected) (hs.recordAt hb he)

lemma costs_refuseAt {expected : KindSet} (h : R 0) :
    Costs c (OnDemand.refuseAt o expected) Q R := fun _ _ => ⟨0, rfl, h⟩

/-- Opening and closing a group costs nothing by itself, nor does refusing to open it. -/
lemma costs_nested (hp : Costs c p P R) (h : R 0) : Costs c (Production.nestedAt o p) P R := by
  intro s hs
  cases hfull : c.fullAt s.depth with
  | some limit =>
    rw [Production.nestedAt_of_full hfull]
    exact ⟨0, s.looks_reach _, h⟩
  | none =>
    rw [Production.nestedAt_of_free hfull]
    have cost := hp _ (hs.withDepth (s.depth + 1))
    cases hx : p c { s with depth := s.depth + 1 } with
    | took a s₁ =>
      rw [hx] at cost
      exact cost
    | refused s₁ =>
      rw [hx] at cost
      exact cost
    | fault cause => trivial

end rules

/-! ## Places where reading ends -/

namespace Setting

/-- A group is closed at a place, or the input is at its end. -/
def Closes (c : Setting) (o : Nat) : Prop := c.kindAt o = .closeParen ∨ c.kindAt o = .endOfInput

/-- A blank stands at a place, and what comes after it neither closes a group nor ends the input. -/
structure Unclosable (c : Setting) (o : Nat) : Prop where
  blank : c.kindAt o = .blank
  after : ¬c.Closes (c.next o)

/-- What clauses from one place to another may have cost, together with the further clause that was
looked for in vain: it was refused at once, or else it stands at an unclosable place and may have
been refused anywhere in the rest of the source. -/
def Bill (c : Setting) (o o' k : Nat) : Prop :=
  8 * o + k ≤ 8 * o' + 5 ∨ c.Unclosable o' ∧ 8 * o + k ≤ 8 * Text.byteSize c.source + 4

variable {c : Setting} {o o' : Nat}

/-- No group is closed at an unclosable place, even if the blank there is skipped. -/
lemma Unclosable.kindAt_ne (h : c.Unclosable o) (ho : o' = o ∨ o' = c.next o) :
    c.kindAt o' ≠ .closeParen := by
  intro closed
  rcases ho with rfl | rfl
  · rw [h.blank] at closed
    cases closed
  · exact h.after (Or.inl closed)

/-- What the bytes in front of clauses pay for is added to the bill. -/
lemma Bill.after {o₁ j k spare : Nat} (h : c.Bill o₁ o' k) (paid : 8 * o + j + spare ≤ 8 * o₁) :
    c.Bill o o' (j + k + spare) := by
  rcases h with h | ⟨unclosable, h⟩
  · exact Or.inl (by omega)
  · exact Or.inr ⟨unclosable, by omega⟩

/-- Where anything else is seen, no group is closed and the input is not at its end. -/
lemma not_closes {kind : Kind} {P : Prop} (h : kind ≠ .endOfInput → c.kindAt o = kind ∧ P)
    (hend : kind ≠ .endOfInput) (hclose : kind ≠ .closeParen) : ¬c.Closes o := by
  obtain ⟨stands, -⟩ := h hend
  rintro (closes | ends)
  · exact hclose (stands.symm.trans closes)
  · exact hend (stands.symm.trans ends)

end Setting

/-! ## Values -/

variable {c : Setting} {o : Nat}

lemma expect_costs {kind : Kind} (hk : kind ≠ .endOfInput) (hb : Text.IsBoundary c.source o) :
    Costs c (OnDemand.expect o kind)
      (fun o' k => k = 1 ∧ c.kindAt o = kind ∧ o' = c.next o) fun k => k = 1 := by
  unfold OnDemand.expect Cursor.expect
  apply costs_lookAt_bind hb
  intro seen hseen
  split_ifs with h
  · subst h
    exact costs_next ⟨rfl, (hseen hk).1, rfl⟩
  · exact costs_refuseAt rfl

lemma skipBlank_costs (hb : Text.IsBoundary c.source o) :
    Costs c (OnDemand.skipBlank o) (fun o' k => k = 1 ∧ (o' = o ∨ o' = c.next o))
      fun _ => False := by
  unfold OnDemand.skipBlank Cursor.skipBlank
  apply costs_lookAt_bind hb
  intro seen _
  split_ifs with h
  · exact costs_next ⟨rfl, Or.inr rfl⟩
  · exact Costs.pure ⟨rfl, Or.inl rfl⟩

lemma term_costs (hb : Text.IsBoundary c.source o) :
    Costs c (OnDemand.term o) (fun _ k => k = 1) fun _ => False := by
  have hnext := Setting.isBoundary_next hb
  unfold OnDemand.term Cursor.term
  apply costs_textAt_bind
  apply costs_next_bind
  apply costs_lookAt_bind hnext
  intro seen _
  split_ifs with h
  · exact costs_textAt_bind (costs_next_bind (Costs.pure rfl))
  · exact costs_miss hnext (exists_mem_only _) (Costs.pure rfl)

lemma phrase_costs (hb : Text.IsBoundary c.source o) :
    Costs c (OnDemand.phrase o) (fun _ k => k = 1) fun _ => False := by
  have hnext := Setting.isBoundary_next hb
  unfold OnDemand.phrase Cursor.phrase
  apply costs_textAt_bind
  apply costs_next_bind
  apply costs_lookAt_bind hnext
  intro seen _
  split_ifs with h
  · apply costs_textAt_bind
    dsimp only
    split_ifs with hnumber
    · exact costs_next_bind (Costs.pure rfl)
    · exact costs_miss hnext (exists_mem_only _) (Costs.pure rfl)
  · exact costs_miss hnext (exists_mem_only _) (Costs.pure rfl)

/-- Bounds are not read by tokens. -/
lemma bound_costs (c : Setting) (o : Nat) :
    Costs c (OnDemand.bound o) (fun _ k => k = 0) fun k => k = 0 := by
  intro s _
  cases hw : (c.rest o).takeWhile (!endsBound ·) with
  | nil =>
    rw [OnDemand.bound_of_nil hw]
    exact ⟨0, rfl, rfl⟩
  | cons first more =>
    rw [OnDemand.bound_of_cons hw]
    exact ⟨0, rfl, rfl⟩

lemma rangeTo_costs (hb : Text.IsBoundary c.source o) :
    Costs c (OnDemand.rangeTo o) (fun _ k => k = 1) fun k => k = 1 := by
  unfold OnDemand.rangeTo Cursor.rangeTo
  apply costs_lookAt_bind hb
  intro seen _
  split_ifs with h
  · apply costs_textAt_bind
    split_ifs with hto
    · exact costs_next rfl
    · exact costs_refuseAt rfl
  · exact costs_refuseAt rfl

lemma rangeAfter_costs (hb : Text.IsBoundary c.source o) (inclusive : Bool) {closing : Kind}
    (hk : closing ≠ .endOfInput) :
    Costs c (OnDemand.rangeAfter o inclusive closing) (fun _ k => k ≤ 6) fun k => k ≤ 6 := by
  unfold OnDemand.rangeAfter Reader.rangeAfter
  apply (skipBlank_costs hb).bind (leads_skipBlank hb) _ (fun _ h => h.elim)
  intro o₁ k₁ h₁ cost₁
  apply (bound_costs c o₁).bind (bound_leads h₁.boundary) _ (by omega)
  rintro ⟨low, o₂⟩ k₂ h₂ cost₂
  apply (expect_costs (by simp) h₂.boundary).bind (leads_expect (by simp) h₂.boundary) _ (by omega)
  intro o₃ k₃ h₃ cost₃
  apply (rangeTo_costs h₃.boundary).bind (rangeTo_leads h₃.boundary) _ (by omega)
  intro o₄ k₄ h₄ cost₄
  apply (expect_costs (by simp) h₄.boundary).bind (leads_expect (by simp) h₄.boundary) _ (by omega)
  intro o₅ k₅ h₅ cost₅
  apply (bound_costs c o₅).bind (bound_leads h₅.boundary) _ (by omega)
  rintro ⟨high, o₆⟩ k₆ h₆ cost₆
  apply (skipBlank_costs h₆.boundary).bind (leads_skipBlank h₆.boundary) _ (fun _ h => h.elim)
  intro o₇ k₇ h₇ cost₇
  apply (expect_costs hk h₇.boundary).bind (leads_expect hk h₇.boundary) _ (by omega)
  intro o₈ k₈ h₈ cost₈
  exact Costs.pure (by omega)

/-- A range takes a bracket and at least one byte more, which is what it needs. -/
lemma range_costs (hb : Text.IsBoundary c.source o) :
    Costs c (OnDemand.range o) (fun a k => 8 * o + k + 7 ≤ 8 * a.2) fun k => k ≤ 7 := by
  have read {inclusive : Bool} {closing : Kind} (hk : closing ≠ .endOfInput)
      (past : c.Past o (c.next o)) :
      Costs c (OnDemand.rangeAfter (c.next o) inclusive closing)
        (fun a k => 8 * o + (1 + k) + 7 ≤ 8 * a.2) fun k => 1 + k ≤ 7 := by
    have later := past.lt
    apply ((rangeAfter_costs past.boundary inclusive hk).leading
      (rangeAfter_leads past.boundary inclusive hk)).mono _ (by omega)
    intro a k h
    have := h.1.lt
    omega
  unfold OnDemand.range Reader.range
  apply costs_lookAt_bind hb
  intro seen hseen
  cases seen
  case openBracket => exact costs_next_bind (read (by simp) (hseen (by simp)).2)
  case openBrace => exact costs_next_bind (read (by simp) (hseen (by simp)).2)
  all_goals exact costs_refuseAt (by omega)

/-- What is asked of the sequences in groups: the bill, with two lookaheads to spare. -/
def InnerCosts (c : Setting) (o : Nat) (inner : Nat → Production (Production.Taken Query)) : Prop :=
  ∀ o', c.Past o o' → Costs c (inner o') (fun a k => c.Bill o' a.2 (k + 2))
    fun k => 8 * o' + k ≤ 8 * Text.byteSize c.source + 4

lemma InnerCosts.onward {inner : Nat → Production (Production.Taken Query)}
    (h : InnerCosts c o inner) {o₁ : Nat} (ho : c.Onward o o₁) : InnerCosts c o₁ inner :=
  fun o' ho' => h o' (ho.trans_past ho')

section inner

variable {inner : Nat → Production (Production.Taken Query)}

/-- **A group that is closed is paid for by its bytes**, since the sequence in it has not gone on in
vain.  Closing it in vain costs two lookaheads. -/
lemma group_costs (leads : InnerLeads c o inner) (costs : InnerCosts c o inner)
    (hb : Text.IsBoundary c.source o) (hk : c.kindAt o = .openParen) :
    Costs c (OnDemand.group inner o) (fun a k => 8 * o + k + 9 ≤ 8 * a.2)
      fun k => 8 * o + k ≤ 8 * Text.byteSize c.source := by
  have room := (Setting.past_next hb (by simp [hk])).lt
  have within := Setting.le_byteSize (Setting.isBoundary_next hb)
  unfold OnDemand.group Reader.group
  apply costs_nested _ (by omega)
  apply (expect_costs (by simp) hb).bind (leads_expect (by simp) hb) _ (by omega)
  intro o₁ k₁ h₁ cost₁
  apply (skipBlank_costs h₁.boundary).bind (leads_skipBlank h₁.boundary) _ (fun _ h => h.elim)
  intro o₂ k₂ h₂ cost₂
  have inside := h₁.trans_onward h₂
  have := inside.lt
  apply (costs o₂ inside).bind (leads o₂ inside) _ (by omega)
  rintro ⟨body, o₃⟩ k₃ h₃ bill
  have := Setting.le_byteSize h₃.boundary
  apply (skipBlank_costs h₃.boundary).bind (leads_skipBlank h₃.boundary) _ (fun _ h => h.elim)
  intro o₄ k₄ h₄ cost₄
  apply (expect_costs (by simp) h₄.boundary).bind (leads_expect (by simp) h₄.boundary)
  · intro o₅ k₅ h₅ cost₅
    -- a parenthesis was seen, so the sequence ended at a place that can be closed
    have paid : 8 * o₂ + (k₃ + 2) ≤ 8 * o₃ + 5 := by
      rcases bill with paid | ⟨unclosable, -⟩
      · exact paid
      · exact absurd cost₅.2.1 (unclosable.kindAt_ne cost₄.2)
    have := h₄.le
    have := h₅.lt
    exact Costs.pure (by omega)
  · intro k₅ cost₅
    rcases bill with paid | ⟨-, paid⟩ <;> omega

/-! ## Clauses -/

lemma marker_costs (hb : Text.IsBoundary c.source o) :
    Costs c (OnDemand.marker o) (fun a k => k = 1 ∧ (c.Closes o → a.2 = o)) fun _ => False := by
  unfold OnDemand.marker Cursor.marker
  apply costs_lookAt_bind hb
  intro seen hseen
  cases seen
  case plus =>
    have none := Setting.not_closes hseen (by simp) (by simp)
    exact costs_next_bind (Costs.pure ⟨rfl, fun closes => absurd closes none⟩)
  case minus =>
    have none := Setting.not_closes hseen (by simp) (by simp)
    exact costs_next_bind (Costs.pure ⟨rfl, fun closes => absurd closes none⟩)
  all_goals exact Costs.pure ⟨rfl, fun _ => rfl⟩

lemma field_costs (hb : Text.IsBoundary c.source o) :
    Costs c (OnDemand.field o) (fun a k => k ≤ 2 ∧ (c.Closes o → a.2 = o ∧ k = 1))
      fun _ => False := by
  unfold OnDemand.field Cursor.field
  apply costs_lookAt_bind hb
  intro seen hseen
  split_ifs with h
  · have none := Setting.not_closes hseen (by simp [h]) (by simp [h])
    apply costs_next_bind
    apply costs_lookAt_bind (Setting.isBoundary_next hb)
    intro seen' _
    split_ifs with h'
    · apply costs_textAt_bind
      split_ifs with hstar
      · exact Costs.pure ⟨le_rfl, fun closes => absurd closes none⟩
      · exact costs_next_bind (Costs.pure ⟨le_rfl, fun closes => absurd closes none⟩)
    · exact Costs.pure ⟨le_rfl, fun closes => absurd closes none⟩
  · exact Costs.pure ⟨by omega, fun _ => ⟨rfl, rfl⟩⟩

lemma boost_costs (hb : Text.IsBoundary c.source o) :
    Costs c (OnDemand.boost o) (fun _ k => k = 1) fun _ => False := by
  unfold OnDemand.boost Cursor.boost
  apply costs_lookAt_bind hb
  intro seen _
  split_ifs with h
  · exact costs_textAt_bind (costs_next_bind (Costs.pure rfl))
  · exact costs_miss hb (exists_mem_only _) (Costs.pure rfl)

/-- A range as the value of a clause, after the lookahead that saw its bracket. -/
lemma rangeValue_costs (hb : Text.IsBoundary c.source o) (past : c.Past o (c.next o))
    (none : ¬c.Closes o) :
    Costs c (OnDemand.range o >>= fun a => pure (Clause.atom a.1, a.2))
      (fun a k => 8 * o + (1 + k) + 6 ≤ 8 * a.2) fun k =>
        8 * o + (1 + k) ≤ 8 * Text.byteSize c.source + 1 ∧ (c.Closes o → 1 + k = 1) := by
  have := past.lt
  have := Setting.le_byteSize past.boundary
  apply (range_costs hb).bind (range_leads hb)
  · intro a k _ cost
    exact Costs.pure (by omega)
  · intro k cost
    exact ⟨by omega, fun closes => absurd closes none⟩

/-- A value leaves six of the lookaheads that its bytes pay for. -/
lemma value_costs (leads : InnerLeads c o inner) (costs : InnerCosts c o inner)
    (hb : Text.IsBoundary c.source o) (field : Option String) (marker : Option Marker) :
    Costs c (OnDemand.value inner field marker o) (fun a k => 8 * o + k + 6 ≤ 8 * a.2)
      fun k => 8 * o + k ≤ 8 * Text.byteSize c.source + 1 ∧ (c.Closes o → k = 1) := by
  have within := Setting.le_byteSize hb
  have refuses : Costs c (OnDemand.refuseAt o (Production.valueStart field marker))
      (fun (a : Production.Taken (Modifiers → Clause)) k => 8 * o + (1 + k) + 6 ≤ 8 * a.2)
      fun k => 8 * o + (1 + k) ≤ 8 * Text.byteSize c.source + 1 ∧ (c.Closes o → 1 + k = 1) :=
    costs_refuseAt ⟨by omega, fun _ => rfl⟩
  unfold OnDemand.value Reader.value
  apply costs_lookAt_bind hb
  intro seen hseen
  cases seen
  case word =>
    apply (term_costs hb).bind (term_leads hb (hseen (by simp)).1) _ (fun _ h => h.elim)
    intro a k ha cost
    have := ha.lt
    exact Costs.pure (by omega)
  case phrase =>
    apply (phrase_costs hb).bind (phrase_leads hb (hseen (by simp)).1) _ (fun _ h => h.elim)
    intro a k ha cost
    have := ha.lt
    exact Costs.pure (by omega)
  case openParen =>
    have hk := (hseen (by simp)).1
    have none := Setting.not_closes hseen (by simp) (by simp)
    apply (group_costs leads costs hb hk).bind (group_leads leads hb hk)
    · intro a k _ cost
      exact Costs.pure (by omega)
    · intro k cost
      exact ⟨by omega, fun closes => absurd closes none⟩
  case openBracket =>
    have none := Setting.not_closes hseen (by simp) (by simp)
    cases field with
    | none => exact refuses
    | some name => exact rangeValue_costs hb (hseen (by simp)).2 none
  case openBrace =>
    have none := Setting.not_closes hseen (by simp) (by simp)
    cases field with
    | none => exact refuses
    | some name => exact rangeValue_costs hb (hseen (by simp)).2 none
  all_goals exact refuses

/-- A clause leaves two, and where it cannot start at all, it is refused by the third lookahead. -/
lemma clause_costs (leads : InnerLeads c o inner) (costs : InnerCosts c o inner)
    (hb : Text.IsBoundary c.source o) (operator : Option Operator) :
    Costs c (OnDemand.clause inner operator o) (fun a k => 8 * o + k + 2 ≤ 8 * a.2)
      fun k => 8 * o + k ≤ 8 * Text.byteSize c.source + 4 ∧ (c.Closes o → k = 3) := by
  unfold OnDemand.clause Reader.clause
  apply (marker_costs hb).bind (marker_leads hb) _ (fun _ h => h.elim)
  rintro ⟨marker, o₁⟩ k₁ h₁ cost₁
  apply (field_costs h₁.boundary).bind (field_leads h₁.boundary) _ (fun _ h => h.elim)
  rintro ⟨field, o₂⟩ k₂ h₂ cost₂
  have onward := h₁.trans h₂
  have := h₁.le
  have := h₂.le
  apply (value_costs (leads.onward onward) (costs.onward onward) onward.boundary field
    marker).bind (value_leads (leads.onward onward) onward.boundary field marker)
  · rintro ⟨make, o₃⟩ k₃ h₃ cost₃
    apply (boost_costs h₃.boundary).bind (boost_leads h₃.boundary) _ (fun _ h => h.elim)
    rintro ⟨boost, o₄⟩ k₄ h₄ cost₄
    have := h₄.le
    exact Costs.pure (by omega)
  · rintro k₃ ⟨cost₃, once⟩
    refine ⟨by omega, ?_⟩
    intro closes
    obtain rfl : o₁ = o := cost₁.2 closes
    obtain ⟨rfl, -⟩ : o₂ = o₁ ∧ k₂ = 1 := cost₂.2 closes
    have := cost₂.2 closes
    have := once closes
    omega

/-! ## Sequences -/

lemma afterBlank_costs (leads : InnerLeads c o inner) (costs : InnerCosts c o inner)
    (hb : Text.IsBoundary c.source o) :
    Costs c (OnDemand.afterBlank inner o) (fun a k => 8 * o + k ≤ 8 * a.2)
      fun k => 8 * o + k ≤ 8 * Text.byteSize c.source + 5 ∧ (c.Closes o → k = 4) := by
  unfold OnDemand.afterBlank Reader.afterBlank
  apply costs_lookAt_bind hb
  intro seen hseen
  cases hop : Production.operatorOf? seen with
  | none =>
    apply costs_miss hb ⟨.keywordAnd, by decide⟩
    apply (clause_costs leads costs hb none).mono
    · intro a k cost
      omega
    · rintro k ⟨cost, once⟩
      exact ⟨by omega, fun closes => by rw [once closes]⟩
  | some operator =>
    have hend : seen ≠ .endOfInput := OnDemand.ne_of_operatorOf? hop rfl
    have none := Setting.not_closes hseen hend (OnDemand.ne_of_operatorOf? hop rfl)
    have keyword := (hseen hend).2
    have := keyword.lt
    have := Setting.le_byteSize keyword.boundary
    apply costs_next_bind
    apply (expect_costs (by simp) keyword.boundary).bind (leads_expect (by simp) keyword.boundary)
    · intro o₂ k₂ h₂ cost₂
      have past := keyword.trans h₂
      have := h₂.lt
      apply (clause_costs (leads.onward past.onward) (costs.onward past.onward) past.boundary
        (some operator)).mono
      · intro a k cost
        omega
      · rintro k ⟨cost, -⟩
        exact ⟨by omega, fun closes => absurd closes none⟩
    · intro k cost
      exact ⟨by omega, fun closes => absurd closes none⟩

/-- **A further clause is paid for by its bytes.**  Where there is none, that is seen within five
lookaheads, unless something else stands after the blank. -/
lemma joinedClause_costs (leads : InnerLeads c o inner) (costs : InnerCosts c o inner)
    (hb : Text.IsBoundary c.source o) :
    Costs c (OnDemand.joinedClause inner o) (fun a k => 8 * o + k ≤ 8 * a.2)
      fun k => 8 * o + k ≤ 8 * Text.byteSize c.source + 4 ∧ (¬c.Unclosable o → k ≤ 5) := by
  have within := Setting.le_byteSize hb
  unfold OnDemand.joinedClause Reader.joinedClause
  apply (expect_costs (by simp) hb).bind (leads_expect (by simp) hb)
  · intro o₁ k₁ h₁ cost₁
    have := h₁.lt
    apply (afterBlank_costs (leads.onward h₁.onward) (costs.onward h₁.onward) h₁.boundary).mono
    · intro a k cost
      omega
    · rintro k ⟨cost, once⟩
      refine ⟨by omega, ?_⟩
      intro closable
      obtain ⟨rfl, blank, rfl⟩ := cost₁
      have closes : c.Closes (c.next o) := by
        by_contra other
        exact closable ⟨blank, other⟩
      have := once closes
      omega
  · intro k cost
    exact ⟨by omega, fun _ => by omega⟩

end inner

/-- Clauses are joined on at no cost of their own, until one is refused. -/
lemma moreClauses_costs {joined : Nat → Production (Production.Taken Clause)} {start : Nat}
    (leads : ∀ o, c.Onward start o → Leads c (joined o) fun a => c.Past o a.2)
    (costs : ∀ o, c.Onward start o → Costs c (joined o) (fun a k => 8 * o + k ≤ 8 * a.2)
      fun k => 8 * o + k ≤ 8 * Text.byteSize c.source + 4 ∧ (¬c.Unclosable o → k ≤ 5))
    (steps : Nat) (found : List Clause) (ho : c.Onward start o) :
    Costs c (Production.moreClauses joined steps found o) (fun a k => c.Bill o a.2 k)
      fun _ => False := by
  induction steps generalizing found o with
  | zero => exact fun _ _ => trivial
  | succ steps ih =>
    intro s hs
    have cost := costs o ho s hs
    have led := leads o ho s hs
    unfold Production.moreClauses
    cases hr : joined o c s with
    | took a s₁ =>
      obtain ⟨clause, o₁⟩ := a
      rw [hr] at cost led
      obtain ⟨k, hk, paid⟩ := cost
      obtain ⟨placed, past⟩ := led
      have rest := (ih (clause :: found) (ho.trans past.onward)).mono
        (fun a j bill => bill.after (show 8 * o + k + 0 ≤ 8 * o₁ from paid)) (fun _ h => h)
        s₁ placed
      rw [hk] at rest
      exact rest.after
    | refused s₁ =>
      rw [hr] at cost
      obtain ⟨k, hk, within, soon⟩ := cost
      refine ⟨k, hk, ?_⟩
      by_cases closable : c.Unclosable o
      · exact Or.inr ⟨closable, within⟩
      · have := soon closable
        exact Or.inl (by dsimp only; omega)
    | fault cause => trivial

/-- **A sequence keeps within the bill**, with two lookaheads to spare. -/
theorem sequence_costs (steps : Nat) (hb : Text.IsBoundary c.source o)
    (room : Text.byteSize c.source < o + steps) :
    Costs c (OnDemand.sequence steps o) (fun a k => c.Bill o a.2 (k + 2))
      fun k => 8 * o + k ≤ 8 * Text.byteSize c.source + 4 := by
  induction steps generalizing o with
  | zero =>
    have := Setting.le_byteSize hb
    omega
  | succ steps ih =>
    have leads : InnerLeads c o (OnDemand.sequence steps) := by
      intro o' ho'
      have := ho'.lt
      exact sequence_leads steps ho'.boundary (by omega)
    have costs : InnerCosts c o (OnDemand.sequence steps) := by
      intro o' ho'
      have := ho'.lt
      exact ih ho'.boundary (by omega)
    unfold OnDemand.sequence Reader.sequence
    apply (clause_costs leads costs hb none).bind (clause_leads leads hb none) _ (fun _ h => h.1)
    rintro ⟨first, o₁⟩ k₁ h₁ cost₁
    have := h₁.lt
    have forward (o₂ : Nat) (h₂ : c.Onward o₁ o₂) := h₁.onward.trans h₂
    have led := moreClauses_leads (fun o₂ h₂ => joinedClause_leads
      (leads.onward (forward o₂ h₂)) h₂.boundary) steps [] (Setting.Onward.refl h₁.boundary)
      (by omega)
    have cost := moreClauses_costs (fun o₂ h₂ => joinedClause_leads
      (leads.onward (forward o₂ h₂)) h₂.boundary) (fun o₂ h₂ => joinedClause_costs
      (leads.onward (forward o₂ h₂)) (costs.onward (forward o₂ h₂)) h₂.boundary) steps []
      (Setting.Onward.refl h₁.boundary)
    apply cost.bind led _ (fun _ h => h.elim)
    rintro ⟨more, o₂⟩ k₂ h₂ bill
    exact Costs.pure (bill.after cost₁)

/-- **Reading a query makes less than eight lookaheads for each byte and eight more.** -/
theorem query_costs {steps start : Nat} (hb : Text.IsBoundary c.source start)
    (room : Text.byteSize c.source < start + steps) :
    Costs c (OnDemand.query steps start)
      (fun _ k => 8 * start + k ≤ 8 * Text.byteSize c.source + 6)
      fun k => 8 * start + k ≤ 8 * Text.byteSize c.source + 6 := by
  unfold OnDemand.query Reader.query
  apply (skipBlank_costs hb).bind (leads_skipBlank hb) _ (fun _ h => h.elim)
  intro o₁ k₁ h₁ cost₁
  have := h₁.le
  have far : Text.byteSize c.source < o₁ + steps := by omega
  apply (sequence_costs steps h₁.boundary far).bind (sequence_leads steps h₁.boundary far)
  · rintro ⟨q, o₂⟩ k₂ h₂ bill
    have := Setting.le_byteSize h₂.boundary
    unfold Setting.Bill at bill
    dsimp only at bill
    apply (skipBlank_costs h₂.boundary).bind (leads_skipBlank h₂.boundary) _ (fun _ h => h.elim)
    intro o₃ k₃ h₃ cost₃
    apply costs_lookAt_bind h₃.boundary
    intro seen _
    split_ifs
    · exact Costs.pure (by omega)
    · exact costs_refuseAt (by omega)
  · intro k₂ cost₂
    omega

/-! ## The cost of reading a text -/

lemma looks_of_reply {limits : Limits} {text : String} {s : State}
    (h : (OnDemand.reply limits text).state? = some s) :
    s.looks ≤ 8 * Text.byteSize text.toList + 6 := by
  have boundary := Text.isBoundary_zero (limits.setting text).source
  have none : (OnDemand.start limits).looks = 0 := rfl
  have cost : (OnDemand.reply limits text).Costs (OnDemand.start limits).looks
      (fun _ k => 8 * 0 + k ≤ 8 * Text.byteSize text.toList + 6)
      (fun k => 8 * 0 + k ≤ 8 * Text.byteSize text.toList + 6) :=
    query_costs boundary (by rw [Nat.zero_add]; exact Nat.lt_succ_self _) _ (placed_start _ limits)
  obtain ⟨k, hk, paid⟩ := cost.of_state? h
  omega

/-- What was looked at is what the log holds of it. -/
lemma length_lookaheads_conclude {c : Setting} {x : Reply Query} {s : State}
    (hx : x.state? = some s) : (OnDemand.conclude c x).lookaheads.length = s.looks := by
  have counted (log : List Event) :
      (log.reverse.filterMap fun
        | .lookedAt offset kind => some (offset, kind)
        | _ => none).length = log.countP (·.isLookahead) := by
    rw [List.length_filterMap_eq_countP, List.countP_reverse]
    apply List.countP_congr
    intro event _
    cases event <;> simp [Event.isLookahead]
  cases x with
  | took q s' =>
    obtain rfl := Option.some.inj hx
    exact counted _
  | refused s' =>
    obtain rfl := Option.some.inj hx
    exact counted _
  | fault cause => cases hx

/-- **Reading is linear.**  Whatever the limits, reading a text makes less than eight lookaheads for
each byte of it and eight more.  A limit of that many is never reached, at any limit on nesting, and
so the default limit is not reached by a text of at most 124999 bytes. -/
theorem read_linear (limits : Limits) (text : String) :
    let size := Text.byteSize text.toList
    (limits.read text).lookaheads.length < 8 * (size + 1) ∧
      (∀ f, 8 * (size + 1) ≤ f → ¬(Limits.parse ⟨some f, limits.nesting⟩ text).Exhausted) ∧
      (size ≤ 124999 → ¬(Limits.parse {} text).Exhausted) := by
  intro size
  have enough (nesting : Option Nat) (f : Nat) (hf : 8 * (size + 1) ≤ f) :
      ¬(Limits.parse ⟨some f, nesting⟩ text).Exhausted := by
    by_cases hsize : size ≤ maxOffset
    · obtain ⟨t, ht⟩ := exists_state_reply ⟨none, nesting⟩ text
      have paid := le_trans (paid_le_countP t.log) (looks_of_reply ht)
      rw [parse_eq_onDemand hsize, (read_rationed ht f).1]
      omega
    · rw [parse_of_tooLarge (not_le.1 hsize)]
      exact nofun
  refine ⟨?_, enough limits.nesting, fun small => enough _ _ (by omega)⟩
  by_cases hsize : size ≤ maxOffset
  · obtain ⟨s, hs⟩ := exists_state_reply limits text
    have looks := looks_of_reply hs
    have same := Reading.lookaheads_eq (readTokens_both limits text).2
    have length := length_lookaheads_conclude (c := limits.setting text) hs
    rw [read_of_le hsize, same, OnDemand.read, length]
    omega
  · rw [read_of_tooLarge (not_le.1 hsize)]
    exact Nat.succ_pos _

/-- Of three groups that are never closed, the last one is refused at the end of the text.  The one
around it is refused for two lookaheads more, which makes 35 in all. -/
theorem read_linear_unclosed :
    let text := "((a (b"
    Text.byteSize text.toList = 6 ∧ ¬(Limits.parse ⟨some 56, none⟩ text).Exhausted ∧
      (Limits.parse ⟨some 34, none⟩ text).Exhausted := by
  intro text
  have size : Text.byteSize text.toList = 6 := by decide
  obtain ⟨-, enough, -⟩ := read_linear ⟨none, none⟩ text
  refine ⟨size, enough 56 (by rw [size]), 4, ?_⟩
  decide +kernel

end SearchQuery
