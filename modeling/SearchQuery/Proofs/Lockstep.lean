import SearchQuery.Proofs.Tiling

/-!
# Two readers in lockstep

One reader goes over an array of tokens and cuts it anew when it must, the other reads on demand.
`Agrees` relates their states: the same depth, lookaheads and limit, the same log but for the cuts,
and the same dead end, told by an index on one side and by a place on the other.  `Reply.Both`
relates their replies, and `Reply.Both.bind` is the one rule that productions are put together by.

## Where the two can part

Cutting anew changes the tokens from an index on, so what was known about larger indices is lost.
`Ready` therefore carries three bounds, `base ≤ k ≤ pos`: the tokens up to `base` have not changed
since a state `s₀` that somebody may go back to, no dead end was recorded past `k`, and the tokens
from `pos` on are those cut from the place `o` on.  A production that refuses keeps the first of
these, which is `Held`.

A sequence ends when no further clause can be joined on, and the attempt may have cut tokens that
lie ahead.  `Tail` is what is left to say then.  Either nothing was cut, or what stands after the
blank can end neither a group nor the query, and reading will refuse there.
-/

namespace SearchQuery

/-! ## Replies -/

/-- Replies of one kind, with related values and states. -/
def Reply.Both {α β : Type} (took : α → State → β → State → Prop)
    (refused : State → State → Prop) : Reply α → Reply β → Prop
  | .took a s, .took b t => took a s b t
  | .refused s, .refused t => refused s t
  | .fault e, .fault e' => e = e'
  | _, _ => False

namespace Reply.Both

variable {α β γ δ : Type} {T : α → State → β → State → Prop} {U : γ → State → δ → State → Prop}
  {R : State → State → Prop} {c : Setting} {s t : State}

/-- Related replies, gone on with in related ways, are related. -/
lemma bind {p : Production α} {q : Production β} {f : α → Production γ} {g : β → Production δ}
    (h : Both T R (p c s) (q c t))
    (hfg : ∀ a s' b t', T a s' b t' → Both U R (f a c s') (g b c t')) :
    Both U R ((p >>= f) c s) ((q >>= g) c t) := by
  rw [Production.bind_apply, Production.bind_apply]
  cases hp : p c s <;> cases hq : q c t <;> rw [hp, hq] at h
  case took.took a s' b t' => exact hfg a s' b t' h
  case refused.refused s' t' => exact h
  case fault.fault e e' => exact h
  all_goals exact h.elim

/-- Weaker relations relate more replies. -/
lemma mono {T' : α → State → β → State → Prop} {R' : State → State → Prop} {x : Reply α}
    {y : Reply β} (h : Both T R x y) (hT : ∀ a s' b t', T a s' b t' → T' a s' b t')
    (hR : ∀ s' t', R s' t' → R' s' t') : Both T' R' x y := by
  cases x <;> cases y
  case took.took a s' b t' => exact hT a s' b t' h
  case refused.refused s' t' => exact hR s' t' h
  case fault.fault e e' => exact h
  all_goals exact h.elim

end Reply.Both

/-! ## States -/

/-- Whether an event is that the source was cut anew. -/
def Event.isRecut : Event → Bool
  | recut _ => true
  | _ => false

/-- The same dead end, told by the index of a token and by a place. -/
def SameDeadEnd (c : Setting) (tokens : Array Token) (f g : Furthest) : Prop :=
  f.expected = g.expected ∧
    match f.place, g.place with
    | none, none => True
    | some (pos, x), some (y, z) => y = x ∧ z = x ∧ Faces c tokens pos x
    | _, _ => False

/-- What the states of the two readers have in common. -/
structure Agrees (c : Setting) (s t : State) : Prop where
  depth : t.depth = s.depth
  lookaheads : t.lookaheads = s.lookaheads
  reached : t.reached = s.reached
  log : t.log = s.log.filter (!·.isRecut)
  furthest : SameDeadEnd c s.tokens s.furthest t.furthest
  tiled : Tiled c s.tokens

/-- No dead end was recorded past an index. -/
def Settled (s : State) (k : Nat) : Prop := ∀ pos x, s.furthest.place = some (pos, x) → pos ≤ k

/-- The states agree, and the tokens up to an index are those of an earlier state. -/
structure Held (c : Setting) (s₀ : State) (base : Nat) (s t : State) : Prop where
  agrees : Agrees c s t
  keeps : ∀ j ≤ base, s.tokens[j]? = s₀.tokens[j]?

/-- Both readers are where they can go on: the one at an index, the other at a place. -/
structure Ready (c : Setting) (s₀ : State) (base k : Nat) (s t : State) (pos o : Nat) : Prop where
  held : Held c s₀ base s t
  aligned : Aligned c s.tokens pos o
  settled : Settled s k
  base_le : base ≤ k
  le_pos : k ≤ pos

/-- Where a sequence of clauses ends. -/
structure Tail (c : Setting) (s₀ : State) (base : Nat) (s t : State) (pos o : Nat) : Prop where
  held : Held c s₀ base s t
  base_le : base ≤ pos
  faces : Faces c s.tokens pos o
  ahead :
    (Aligned c s.tokens pos o ∧ Settled s (if c.kindAt o = .blank then pos + 1 else pos)) ∨
      (c.kindAt o = .blank ∧ Faces c s.tokens (pos + 1) (c.next o) ∧
        c.kindAt (c.next o) ≠ .closeParen ∧ c.kindAt (c.next o) ≠ .endOfInput)

/-- Where a group or the query may be closed. -/
structure Gate (c : Setting) (s₀ : State) (base : Nat) (s t : State) (pos o : Nat) : Prop where
  held : Held c s₀ base s t
  base_le : base ≤ pos
  faces : Faces c s.tokens pos o
  ahead : s.reached = none → c.kindAt o = .closeParen ∨ c.kindAt o = .endOfInput →
    Aligned c s.tokens pos o ∧ Settled s pos

section Bounds

variable {c : Setting} {s₀ s t : State} {base k pos o : Nat}

lemma Held.refl (h : Agrees c s t) (base : Nat) : Held c s base s t := ⟨h, fun _ _ => rfl⟩

lemma Held.trans {s₁ t₁ : State} (h₁ : Held c s₀ base s₁ t₁) (h : Held c s₁ k s t) (hk : base ≤ k) :
    Held c s₀ base s t := by
  refine ⟨h.agrees, ?_⟩
  intro j hj
  rw [h.keeps j (le_trans hj hk), h₁.keeps j hj]

lemma Held.withDepth (h : Held c s₀ base s t) (d : Nat) :
    Held c s₀ base { s with depth := d } { t with depth := d } :=
  ⟨⟨rfl, h.agrees.lookaheads, h.agrees.reached, h.agrees.log, h.agrees.furthest, h.agrees.tiled⟩,
    h.keeps⟩

namespace Ready

lemma agrees (h : Ready c s₀ base k s t pos o) : Agrees c s t := h.held.agrees

lemma faces (h : Ready c s₀ base k s t pos o) : Faces c s.tokens pos o := h.aligned.faces

lemma mono (h : Ready c s₀ base k s t pos o) {k' : Nat} (hk : k ≤ k') (hpos : k' ≤ pos) :
    Ready c s₀ base k' s t pos o := by
  refine ⟨h.held, h.aligned, ?_, le_trans h.base_le hk, hpos⟩
  intro p x hp
  exact le_trans (h.settled p x hp) hk

lemma next (h : Ready c s₀ base k s t pos o) (hk : c.kindAt o ≠ .endOfInput) :
    Ready c s₀ base k s t (pos + 1) (c.next o) :=
  ⟨h.held, h.aligned.next hk, h.settled, h.base_le, by have := h.le_pos; omega⟩

lemma withDepth (h : Ready c s₀ base k s t pos o) (d : Nat) :
    Ready c s₀ base k { s with depth := d } { t with depth := d } pos o :=
  ⟨h.held.withDepth d, h.aligned, h.settled, h.base_le, h.le_pos⟩

/-- What was ready stays so while the tokens and the dead end stay. -/
lemma of_same {s' t' : State} (h : Ready c s₀ base k s t pos o) (agrees : Agrees c s' t')
    (tokens : s'.tokens = s.tokens) (furthest : s'.furthest = s.furthest) :
    Ready c s₀ base k s' t' pos o := by
  refine ⟨⟨agrees, ?_⟩, ?_, ?_, h.base_le, h.le_pos⟩
  · rw [tokens]
    exact h.held.keeps
  · rw [tokens]
    exact h.aligned
  · unfold Settled
    rw [furthest]
    exact h.settled

/-- Both readers start from the states they are in, as if nothing had been before. -/
lemma rebase (h : Ready c s₀ base k s t pos o) : Ready c s pos pos s t pos o :=
  ⟨Held.refl h.agrees pos, h.aligned, (h.mono h.le_pos le_rfl).settled, le_rfl, le_rfl⟩

end Ready

end Bounds

/-! ## What single steps do to both states -/

namespace Agrees

variable {c : Setting} {s t : State} {pos o : Nat}

lemma reach (h : Agrees c s t) (cause : LimitReached) :
    Agrees c (s.reach cause) (t.reach cause) := by
  unfold State.reach
  rw [h.reached]
  cases hr : s.reached with
  | some cause => exact h
  | none =>
    refine ⟨h.depth, h.lookaheads, rfl, ?_, h.furthest, h.tiled⟩
    simp [h.log, Event.isRecut]

lemma spend (h : Agrees c s t) (hf : Faces c s.tokens pos o) :
    Agrees c (s.spend c.source pos) (t.spendAt o) := by
  unfold State.spend State.spendAt
  rw [h.lookaheads]
  cases hl : s.lookaheads with
  | none => exact h
  | some left =>
    cases left with
    | zero =>
      simp only [hf.offsetAt]
      exact h.reach _
    | succ left => exact ⟨h.depth, rfl, h.reached, h.log, h.furthest, h.tiled⟩

lemma record (h : Agrees c s t) (hf : Faces c s.tokens pos o) (expected : KindSet) :
    Agrees c (s.record c.source pos expected) (t.recordAt o expected) := by
  refine ⟨h.depth, h.lookaheads, h.reached, h.log, ?_, h.tiled⟩
  obtain ⟨hexp, hplace⟩ := h.furthest
  simp only [State.record, State.recordAt, hf.offsetAt, Furthest.record]
  cases hs : s.furthest.place with
  | none =>
    cases ht : t.furthest.place with
    | none => exact ⟨rfl, rfl, rfl, hf⟩
    | some place => simp [hs, ht] at hplace
  | some place =>
    obtain ⟨p, x⟩ := place
    cases ht : t.furthest.place with
    | none => simp [hs, ht] at hplace
    | some place =>
      obtain ⟨y, z⟩ := place
      simp only [hs, ht] at hplace
      obtain ⟨rfl, rfl, hfaces⟩ := hplace
      -- the old dead end lies further, at the same place, or less far
      dsimp only
      split_ifs with hlt heq
      · exact ⟨hexp, by simp only [hs, ht]; exact ⟨trivial, trivial, hfaces⟩⟩
      · exact ⟨by simp only [hexp], rfl, rfl, hfaces⟩
      · exact ⟨rfl, rfl, rfl, hf⟩

end Agrees

/-- A dead end is the same one while the tokens up to it are the same. -/
lemma SameDeadEnd.of_keeps {c : Setting} {s : State} {tokens : Array Token} {g : Furthest} {k : Nat}
    (h : SameDeadEnd c s.tokens s.furthest g) (settled : Settled s k)
    (keeps : ∀ j ≤ k, tokens[j]? = s.tokens[j]?) : SameDeadEnd c tokens s.furthest g := by
  obtain ⟨hexp, hplace⟩ := h
  refine ⟨hexp, ?_⟩
  cases hf : s.furthest.place with
  | none =>
    cases hg : g.place with
    | none => trivial
    | some place => simp [hf, hg] at hplace
  | some place =>
    obtain ⟨q, x⟩ := place
    have hq := settled q x hf
    cases hg : g.place with
    | none => simp [hf, hg] at hplace
    | some place =>
      obtain ⟨y, z⟩ := place
      simp only [hf, hg] at hplace
      obtain ⟨hy, hz, faces⟩ := hplace
      exact ⟨hy, hz, faces.boundary, by rw [keeps q hq, faces.token]⟩

lemma Settled.record {s : State} {k pos : Nat} (h : Settled s k) (hk : pos ≤ k)
    (source : List Char) (expected : KindSet) : Settled (s.record source pos expected) k := by
  intro p x hp
  simp only [State.record, Furthest.record] at hp
  cases hs : s.furthest.place with
  | none =>
    simp only [hs, Option.some.injEq, Prod.mk.injEq] at hp
    omega
  | some place =>
    obtain ⟨q, y⟩ := place
    have hq := h q y hs
    simp only [hs] at hp
    split_ifs at hp with hlt heq
    · rw [hs] at hp
      simp only [Option.some.injEq, Prod.mk.injEq] at hp
      omega
    · simp only [Option.some.injEq, Prod.mk.injEq] at hp
      omega
    · simp only [Option.some.injEq, Prod.mk.injEq] at hp
      omega

lemma tokens_reach (s : State) (cause : LimitReached) :
    (s.reach cause).tokens = s.tokens ∧ (s.reach cause).furthest = s.furthest ∧
      ((s.reach cause).reached = none → s.reached = none) := by
  unfold State.reach
  cases hr : s.reached with
  | none => exact ⟨rfl, rfl, fun _ => rfl⟩
  | some cause => exact ⟨rfl, rfl, fun h => by rw [hr] at h; exact h⟩

lemma tokens_spend (s : State) (source : List Char) (pos : Nat) :
    (s.spend source pos).tokens = s.tokens ∧ (s.spend source pos).furthest = s.furthest ∧
      ((s.spend source pos).reached = none → s.reached = none) := by
  unfold State.spend State.spendAt
  cases s.lookaheads with
  | none => exact ⟨rfl, rfl, id⟩
  | some left =>
    cases left with
    | zero => exact tokens_reach s _
    | succ left => exact ⟨rfl, rfl, id⟩

/-- Both readers see the same kind, and only lookaheads, the limit and the log change by it. -/
lemma lookAt_both {c : Setting} {s t : State} {pos o : Nat} (h : Agrees c s t)
    (hf : Faces c s.tokens pos o) :
    ∃ s' t', Production.lookAt pos c s = .took (OnDemand.kindSeen c s' o) s' ∧
      OnDemand.lookAt o c t = .took (OnDemand.kindSeen c s' o) t' ∧ Agrees c s' t' ∧
      s'.tokens = s.tokens ∧ s'.furthest = s.furthest ∧ (s'.reached = none → s.reached = none) := by
  obtain ⟨htokens, hfurthest, hreached⟩ := tokens_spend s c.source pos
  have spent := h.spend hf
  have hf' : Faces c (s.spend c.source pos).tokens pos o := by rwa [htokens]
  have hseen : (s.spend c.source pos).kindSeen pos =
      OnDemand.kindSeen c (s.spend c.source pos) o := by
    unfold State.kindSeen OnDemand.kindSeen Setting.kindAt
    rw [hf'.token]
    cases (s.spend c.source pos).reached <;> cases c.tokenAt? o <;> rfl
  have hseen' : OnDemand.kindSeen c (t.spendAt o) o =
      OnDemand.kindSeen c (s.spend c.source pos) o := by
    unfold OnDemand.kindSeen
    rw [spent.reached]
  set kind := OnDemand.kindSeen c (s.spend c.source pos) o with hkind
  refine ⟨{ s.spend c.source pos with log := .lookedAt o kind :: (s.spend c.source pos).log },
    { t.spendAt o with log := .lookedAt o kind :: (t.spendAt o).log }, ?_, ?_, ?_, htokens,
    hfurthest, hreached⟩
  · unfold Production.lookAt
    simp only [hseen, hf'.offsetAt]
    rfl
  · unfold OnDemand.lookAt
    simp only [hseen']
    rfl
  · refine ⟨spent.depth, spent.lookaheads, spent.reached, ?_, spent.furthest, spent.tiled⟩
    simp [spent.log, Event.isRecut]

lemma kindAt_of_kindSeen {c : Setting} {s : State} {o : Nat} {k : Kind}
    (h : OnDemand.kindSeen c s o = k) (hk : k ≠ .endOfInput) :
    s.reached = none ∧ c.kindAt o = k := by
  unfold OnDemand.kindSeen at h
  cases hr : s.reached with
  | none =>
    rw [hr] at h
    exact ⟨rfl, h⟩
  | some cause =>
    rw [hr] at h
    exact absurd h.symm hk

section Ready

variable {c : Setting} {s₀ s t : State} {base k pos o : Nat}

lemma Ready.record (h : Ready c s₀ base k s t pos o) (expected : KindSet) :
    Ready c s₀ base pos (s.record c.source pos expected) (t.recordAt o expected) pos o :=
  ⟨⟨h.agrees.record h.faces expected, h.held.keeps⟩, h.aligned,
    ((h.mono h.le_pos le_rfl).settled).record le_rfl _ _, le_trans h.base_le h.le_pos, le_rfl⟩

/-- A token that is seen can be gone past. -/
lemma Ready.advance (h : Ready c s₀ base k s t pos o) {kind : Kind}
    (hseen : OnDemand.kindSeen c s o = kind) (hk : kind ≠ .endOfInput) :
    Ready c s₀ base k s t (pos + 1) (c.next o) :=
  h.next (by rw [(kindAt_of_kindSeen hseen hk).2]; exact hk)

/-- Readers that look at the same place see the same and stay ready there. -/
lemma Ready.lookAt_bind {α β : Type} (h : Ready c s₀ base k s t pos o) {f : Kind → Production α}
    {g : Kind → Production β} {T : α → State → β → State → Prop} {R : State → State → Prop}
    (hfg : ∀ {s' t' : State} (kind : Kind), Ready c s₀ base k s' t' pos o →
      OnDemand.kindSeen c s' o = kind → Reply.Both T R (f kind c s') (g kind c t')) :
    Reply.Both T R ((Production.lookAt pos >>= f) c s) ((OnDemand.lookAt o >>= g) c t) := by
  obtain ⟨s', t', hs, ht, agrees, tokens, furthest, -⟩ := lookAt_both h.agrees h.faces
  rw [Production.bind_of_took hs, Production.bind_of_took ht]
  exact hfg _ (h.of_same agrees tokens furthest) rfl

end Ready

end SearchQuery
