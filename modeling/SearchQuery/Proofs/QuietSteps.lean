import SearchQuery.Proofs.Lookaheads
import SearchQuery.Proofs.OnDemand

/-!
# Steps that cut nothing

Most of reading neither cuts the source anew nor changes the tokens.  `Quiet` relates the states
before and after such a step: the tokens and the cuts are the same, and so is how many of the cuts
came after a limit, which is what `State.Tells` counts.

## After a limit

Once a limit is reached every lookahead sees the end of the input, so that a lookahead that sees a
token shows that none was reached, and that no cut came after one (`lookAt_quiet`).  All productions
but one give up at their first lookahead then.  The one is a range, which passes over a blank that
need not be there and then reads its lower bound without looking.
-/

namespace SearchQuery

open Production

/-! ## What the log tells -/

/-- The place where the source was cut anew. -/
def Event.cut? : Event → Option Nat
  | recut offset => some offset
  | _ => none

namespace State

/-- The places where the source was cut anew, the latest first. -/
def cuts (s : State) : List Nat := s.log.filterMap Event.cut?

/-- No cut is past a place. -/
def CutUpTo (s : State) (x : Nat) : Prop := ∀ y ∈ s.cuts, y ≤ x

/-- The log tells of the limit that was reached, once, and of at most `k` cuts since. -/
def Tells (s : State) (k : Nat) : Prop :=
  match s.reached with
  | none => ∀ event ∈ s.log, event.isLimit = false
  | some cause => ∃ newer older, s.log = newer ++ .limitReached cause :: older ∧
      (∀ event ∈ newer, event.isLimit = false) ∧ (∀ event ∈ older, event.isLimit = false) ∧
      (newer.filterMap Event.cut?).length ≤ k

/-- The kind of the token at an index, if there is one. -/
def kindAt? (s : State) (pos : Nat) : Option Kind := s.tokens[pos]?.map Token.kind

variable {s : State} {k : Nat}

lemma Tells.mono (h : s.Tells k) {n : Nat} (hk : k ≤ n) : s.Tells n := by
  unfold Tells at *
  cases hr : s.reached with
  | none =>
    rw [hr] at h
    exact h
  | some cause =>
    rw [hr] at h
    obtain ⟨newer, older, hlog, hnewer, holder, hcuts⟩ := h
    exact ⟨newer, older, hlog, hnewer, holder, le_trans hcuts hk⟩

/-- While no limit is reached there are no cuts since. -/
lemma Tells.of_unreached (h : s.Tells k) (hr : s.reached = none) (n : Nat) : s.Tells n := by
  unfold Tells at *
  rw [hr] at h ⊢
  exact h

/-- What happens after the log told of a limit is told after it. -/
lemma Tells.push (h : s.Tells k) {s' : State} (event : Event) (hevent : event.isLimit = false)
    (hlog : s'.log = event :: s.log) (hreached : s'.reached = s.reached) {n : Nat}
    (hn : k + event.cut?.toList.length ≤ n) : s'.Tells n := by
  unfold Tells at *
  rw [hreached]
  cases hr : s.reached with
  | none =>
    rw [hr] at h
    rw [hlog]
    exact List.forall_mem_cons.2 ⟨hevent, h⟩
  | some cause =>
    rw [hr] at h
    obtain ⟨newer, older, hs, hnewer, holder, hcuts⟩ := h
    refine ⟨event :: newer, older, by rw [hlog, hs, List.cons_append],
      List.forall_mem_cons.2 ⟨hevent, hnewer⟩, holder, ?_⟩
    cases hcut : event.cut? <;> simp [hcut] at hn ⊢ <;> omega

end State

/-! ## Steps that cut nothing -/

/-- Nothing is cut between two states, and the log tells as much as before. -/
structure Quiet (s s' : State) : Prop where
  tokens : s'.tokens = s.tokens
  cuts : s'.cuts = s.cuts
  tells : ∀ k, s.Tells k → s'.Tells k

namespace Quiet

variable {s s' s'' : State}

lemma trans (h : Quiet s s') (h' : Quiet s' s'') : Quiet s s'' :=
  ⟨by rw [h'.tokens, h.tokens], by rw [h'.cuts, h.cuts], fun k hk => h'.tells k (h.tells k hk)⟩

lemma of_same (tokens : s'.tokens = s.tokens) (log : s'.log = s.log)
    (reached : s'.reached = s.reached) : Quiet s s' := by
  refine ⟨tokens, by unfold State.cuts; rw [log], ?_⟩
  intro k hk
  unfold State.Tells at *
  rw [reached, log]
  exact hk

lemma refl (s : State) : Quiet s s := of_same rfl rfl rfl

lemma kindAt? (h : Quiet s s') (pos : Nat) : s'.kindAt? pos = s.kindAt? pos := by
  unfold State.kindAt?
  rw [h.tokens]

lemma offsetAt (h : Quiet s s') (source : List Char) (pos : Nat) :
    s'.offsetAt source pos = s.offsetAt source pos := by
  unfold State.offsetAt
  rw [h.tokens]

lemma record (s : State) (source : List Char) (pos : Nat) (expected : KindSet) :
    Quiet s (s.record source pos expected) := of_same rfl rfl rfl

lemma withDepth (s : State) (d : Nat) : Quiet s { s with depth := d } := of_same rfl rfl rfl

lemma reach (s : State) (cause : LimitReached) : Quiet s (s.reach cause) := by
  unfold State.reach
  cases hr : s.reached with
  | some cause => exact refl s
  | none =>
    refine ⟨rfl, rfl, ?_⟩
    intro k hk
    unfold State.Tells at *
    rw [hr] at hk
    exact ⟨[], s.log, rfl, by simp, hk, by simp⟩

lemma spend (s : State) (source : List Char) (pos : Nat) : Quiet s (s.spend source pos) := by
  unfold State.spend State.spendAt
  cases s.lookaheads with
  | none => exact refl s
  | some left =>
    cases left with
    | zero => exact reach s _
    | succ left => exact of_same rfl rfl rfl

lemma lookedAt (s : State) (o : Nat) (kind : Kind) :
    Quiet s { s with log := .lookedAt o kind :: s.log } := by
  refine ⟨rfl, rfl, ?_⟩
  intro k hk
  apply hk.push (.lookedAt o kind)
  all_goals rfl

end Quiet

/-! ## Replies -/

/-- A reply with a condition on what is taken and one on the state after a refusal. -/
def Reply.Meets {α : Type} (T : α → State → Prop) (R : State → Prop) : Reply α → Prop
  | .took a s => T a s
  | .refused s => R s
  | .fault _ => True

namespace Reply.Meets

variable {α β : Type} {T : α → State → Prop} {U : β → State → Prop} {R : State → Prop} {c : Setting}
  {s : State}

lemma bind {p : Production α} {f : α → Production β} (h : Meets T R (p c s))
    (hf : ∀ a s', T a s' → Meets U R (f a c s')) : Meets U R ((p >>= f) c s) := by
  rw [Production.bind_apply]
  cases hp : p c s with
  | took a s' =>
    rw [hp] at h
    exact hf a s' h
  | refused s' =>
    rw [hp] at h
    exact h
  | fault cause => trivial

lemma mono {T' : α → State → Prop} {R' : State → Prop} {x : Reply α} (h : Meets T R x)
    (hT : ∀ a s, T a s → T' a s) (hR : ∀ s, R s → R' s) : Meets T' R' x := by
  cases x with
  | took a s => exact hT a s h
  | refused s => exact hR s h
  | fault cause => trivial

/-- Closing a group keeps what does not look at the depth. -/
lemma closed {x : Reply α} (h : Meets T R x) (hT : ∀ a s d, T a s → T a { s with depth := d })
    (hR : ∀ s d, R s → R { s with depth := d }) : Meets T R x.closed := by
  cases x with
  | took a s => exact hT a s _ h
  | refused s => exact hR s _ h
  | fault cause => trivial

end Reply.Meets

/-! ## Productions that cut nothing -/

section Quiet

variable {c : Setting} {s : State} {pos : Nat}

/-- A lookahead sees the end of the input or the kind of the token, the latter only while no limit
is reached. -/
lemma lookAt_quiet (c : Setting) (s : State) (pos : Nat) :
    ∃ s' kind, lookAt pos c s = .took kind s' ∧ Quiet s s' ∧
      (kind = .endOfInput ∨ s'.reached = none ∧ s.kindAt? pos = some kind) := by
  have spent := Quiet.spend s c.source pos
  refine ⟨_, _, rfl, spent.trans (Quiet.lookedAt _ _ _), ?_⟩
  rw [← spent.kindAt?]
  unfold State.kindSeen State.kindAt?
  cases (s.spend c.source pos).reached with
  | some cause => exact Or.inl rfl
  | none =>
    cases (s.spend c.source pos).tokens[pos]? with
    | none => exact Or.inl rfl
    | some token => exact Or.inr ⟨rfl, rfl⟩

lemma lookAt_meets {α : Type} {T : α → State → Prop} {R : State → Prop} {f : Kind → Production α}
    (h : ∀ s' kind, Quiet s s' →
      (kind = .endOfInput ∨ s'.reached = none ∧ s.kindAt? pos = some kind) →
      (f kind c s').Meets T R) : ((lookAt pos >>= f) c s).Meets T R := by
  obtain ⟨s', kind, hs, quiet, seen⟩ := lookAt_quiet c s pos
  rw [bind_of_took hs]
  exact h s' kind quiet seen

lemma textAt_meets {α : Type} {T : α → State → Prop} {R : State → Prop}
    {f : List Char → Production α} (h : ∀ text, (f text c s).Meets T R) :
    ((textAt pos >>= f) c s).Meets T R := by
  rw [bind_apply]
  unfold textAt
  cases s.tokens[pos]? with
  | none => exact h []
  | some token =>
    cases hs : token.span.slice? c.source with
    | none => simp only [hs]; trivial
    | some text => simp only [hs]; exact h text

lemma next_meets {α : Type} {T : α → State → Prop} {R : State → Prop} {f : Nat → Production α}
    (h : (f (pos + 1) c s).Meets T R) : ((Cursor.overTokens.next pos >>= f) c s).Meets T R := h

/-- Going on from a state that nothing was cut before. -/
lemma Reply.Meets.after {α : Type} {x : Reply α} {s' : State} {p : α → Prop}
    (hx : x.Meets (fun a t => Quiet s' t ∧ p a) (Quiet s')) (h : Quiet s s') :
    x.Meets (fun a t => Quiet s t ∧ p a) (Quiet s) :=
  hx.mono (fun _ _ ht => ⟨h.trans ht.1, ht.2⟩) fun _ ht => h.trans ht

lemma expect_quiet {kind : Kind} (hk : kind ≠ .endOfInput) :
    (expect pos kind c s).Meets
      (fun p s' => Quiet s s' ∧ s'.reached = none ∧ p = pos + 1 ∧ s.kindAt? pos = some kind)
      (Quiet s) := by
  unfold expect Cursor.expect
  refine lookAt_meets ?_
  intro s' seen quiet hseen
  split_ifs with heq
  · obtain rfl := heq
    obtain ⟨hreached, hkind⟩ := hseen.resolve_left hk
    exact ⟨quiet, hreached, rfl, hkind⟩
  · exact quiet.trans (Quiet.record _ _ _ _)

lemma skipBlank_quiet :
    (skipBlank pos c s).Meets
      (fun p s' => Quiet s s' ∧ (p = pos ∨ p = pos + 1 ∧ s.kindAt? pos = some .blank))
      (Quiet s) := by
  unfold skipBlank Cursor.skipBlank
  refine lookAt_meets ?_
  intro s' seen quiet hseen
  split_ifs with heq
  · obtain rfl := heq
    exact ⟨quiet, Or.inr ⟨rfl, (hseen.resolve_left (by simp)).2⟩⟩
  · exact ⟨quiet, Or.inl rfl⟩

lemma rangeTo_quiet :
    (rangeTo pos c s).Meets (fun p s' => Quiet s s' ∧ p = pos + 1) (Quiet s) := by
  unfold rangeTo Cursor.rangeTo
  refine lookAt_meets ?_
  intro s' seen quiet _
  split_ifs
  · refine textAt_meets ?_
    intro text
    split_ifs
    · exact ⟨quiet, rfl⟩
    · exact quiet.trans (Quiet.record _ _ _ _)
  · exact quiet.trans (Quiet.record _ _ _ _)

lemma term_quiet :
    (term pos c s).Meets (fun a s' => Quiet s s' ∧ pos ≤ a.2) (Quiet s) := by
  unfold term Cursor.term
  refine textAt_meets fun text => next_meets (lookAt_meets ?_)
  intro s' seen quiet _
  split_ifs
  · exact textAt_meets fun _ => ⟨quiet, Nat.le_add_right pos 2⟩
  · exact ⟨quiet.trans (Quiet.record _ _ _ _), by simp⟩

lemma phrase_quiet :
    (phrase pos c s).Meets (fun a s' => Quiet s s' ∧ pos ≤ a.2) (Quiet s) := by
  unfold phrase Cursor.phrase
  refine textAt_meets fun text => next_meets (lookAt_meets ?_)
  intro s' seen quiet _
  split_ifs
  · refine textAt_meets fun number => ?_
    split_ifs
    · exact ⟨quiet, Nat.le_add_right pos 2⟩
    · exact ⟨quiet.trans (Quiet.record _ _ _ _), by simp⟩
  · exact ⟨quiet.trans (Quiet.record _ _ _ _), by simp⟩

lemma marker_quiet :
    (marker pos c s).Meets (fun a s' => Quiet s s' ∧ pos ≤ a.2) (Quiet s) := by
  unfold marker Cursor.marker
  refine lookAt_meets ?_
  intro s' seen quiet _
  cases seen <;> exact ⟨quiet, by simp⟩

lemma field_quiet :
    (field pos c s).Meets (fun a s' => Quiet s s' ∧ pos ≤ a.2) (Quiet s) := by
  unfold field Cursor.field
  refine lookAt_meets ?_
  intro s₁ seen quiet _
  split_ifs
  · refine next_meets (lookAt_meets ?_)
    intro s₂ after quiet₂ _
    have quiet := quiet.trans quiet₂
    split_ifs
    · refine textAt_meets fun name => ?_
      split_ifs
      · exact ⟨quiet, le_rfl⟩
      · exact ⟨quiet, Nat.le_add_right pos 2⟩
    · exact ⟨quiet, le_rfl⟩
  · exact ⟨quiet, le_rfl⟩

lemma boost_quiet :
    (boost pos c s).Meets (fun a s' => Quiet s s' ∧ pos ≤ a.2) (Quiet s) := by
  unfold boost Cursor.boost
  refine lookAt_meets ?_
  intro s' seen quiet _
  split_ifs
  · exact textAt_meets fun text => ⟨quiet, by simp⟩
  · exact ⟨quiet.trans (Quiet.record _ _ _ _), le_rfl⟩

end Quiet

end SearchQuery
