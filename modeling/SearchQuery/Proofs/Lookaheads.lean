import SearchQuery.Proofs.Coupling

/-!
# What a limit on lookaheads can do

A run with a limit on lookaheads is compared with the run without one, under the same limit on
nesting.  The two are the same, lookahead by lookahead, until the limit is reached, and so all that
counts is how many lookaheads the unlimited run makes.

It is not all of its lookaheads, though.  Once groups are nested too deep, reading winds down with
lookaheads that see nothing, and a limit that is reached among them comes too late to be the first.
`paid` counts those before that.  `read_rationed` says that a limit is reached exactly when it is
less than this number, and `parse_lookaheads` draws the conclusion: a limit on lookaheads can take
the place of a result but not change it.
-/

namespace SearchQuery

/-- Whether an event is that a limit was reached. -/
def Event.isLimit : Event → Bool
  | limitReached _ => true
  | _ => false

/-- The number of lookaheads before a limit was reached, in a log that is kept latest first. -/
def paid : List Event → Nat
  | [] => 0
  | .lookedAt _ _ :: log => if log.any (·.isLimit) then paid log else paid log + 1
  | .recut _ :: log => paid log
  | .limitReached _ :: log => paid log

lemma paid_le_cons (event : Event) (log : List Event) : paid log ≤ paid (event :: log) := by
  cases event with
  | lookedAt o kind =>
    rw [paid]
    split_ifs <;> omega
  | recut o => exact le_rfl
  | limitReached cause => exact le_rfl

lemma paid_le_of_suffix {log log' : List Event} (h : log <:+ log') : paid log ≤ paid log' := by
  obtain ⟨front, rfl⟩ := h
  induction front with
  | nil => exact le_rfl
  | cons event front ih => exact le_trans ih (paid_le_cons event _)

/-! ## With a limit and without -/

/-- The run with `f` lookaheads and the run without a limit are in the same state, but for what is
left of the lookaheads. -/
structure Rationed (f : Nat) (s t : State) : Prop where
  depth : s.depth = t.depth
  furthest : s.furthest = t.furthest
  reached : s.reached = t.reached
  log : s.log = t.log
  unlimited : t.lookaheads = none
  left : ∃ left, s.lookaheads = some left ∧ (t.reached = none → left + paid t.log = f)
  within : paid t.log ≤ f
  logged : t.reached.isSome = t.log.any (·.isLimit)
  nesting : ∀ o, t.reached ≠ some (.lookaheads o)

/-- The run with `f` lookaheads has had to stop where the other one went on. -/
structure Exhausting (f : Nat) (s t : State) : Prop where
  reached : ∃ o, s.reached = some (.lookaheads o)
  beyond : f < paid t.log

variable {f : Nat} {s t : State}

lemma Exhausting.later {s' t' : State} (h : Exhausting f s t) (hs : s.Later s') (ht : t.Later t') :
    Exhausting f s' t' := by
  obtain ⟨o, ho⟩ := h.reached
  exact ⟨⟨o, hs.reached _ ho⟩, lt_of_lt_of_le h.beyond (paid_le_of_suffix ht.log)⟩

namespace Rationed

lemma withDepth (h : Rationed f s t) (d : Nat) :
    Rationed f { s with depth := d } { t with depth := d } :=
  ⟨rfl, h.furthest, h.reached, h.log, h.unlimited, h.left, h.within, h.logged, h.nesting⟩

lemma reach_nesting (h : Rationed f s t) (o limit : Nat) :
    Rationed f (s.reach (.nesting o limit)) (t.reach (.nesting o limit)) := by
  obtain ⟨left, hleft, -⟩ := h.left
  unfold State.reach
  rw [h.reached]
  cases hr : t.reached with
  | some cause => exact h
  | none =>
    refine ⟨h.depth, h.furthest, rfl, ?_, h.unlimited, ⟨left, hleft, nofun⟩, h.within, ?_, ?_⟩
    · simp only [h.log]
    · simp [Event.isLimit]
    · simp

/-- What both runs see is logged in both.  It is counted unless a limit was reached before. -/
lemma looked (h : Rationed f s t) (o : Nat) (kind : Kind) (left : Nat)
    (hleft : t.reached = none → left + 1 + paid t.log = f) :
    Rationed f { s with lookaheads := some left, log := .lookedAt o kind :: s.log }
      { t with log := .lookedAt o kind :: t.log } := by
  have counted : paid (.lookedAt o kind :: t.log) =
      if t.reached.isSome then paid t.log else paid t.log + 1 := by
    rw [paid, h.logged]
  have within := h.within
  refine ⟨h.depth, h.furthest, h.reached, by simp only [h.log], h.unlimited, ⟨left, rfl, ?_⟩, ?_,
    ?_, h.nesting⟩
  · intro hr
    have hr : t.reached = none := hr
    have := hleft hr
    simp only [counted, hr, Option.isSome_none, Bool.false_eq_true, if_false]
    omega
  · dsimp only
    rw [counted]
    cases hr : t.reached with
    | some cause => simpa using within
    | none =>
      have := hleft hr
      simp only [Option.isSome_none, Bool.false_eq_true, if_false]
      omega
  · simpa [Event.isLimit] using h.logged

lemma kindSeen_eq (h : Rationed f s t) (c : Setting) (o : Nat) :
    OnDemand.kindSeen c s o = OnDemand.kindSeen c t o := by
  unfold OnDemand.kindSeen
  rw [h.reached]

/-- Both runs see the same, unless this is the lookahead that the one run has no more. -/
lemma lookAt (h : Rationed f s t) (c : Setting) (o : Nat) :
    Reply.Alongside (Rationed f) (Exhausting f) (OnDemand.lookAt o c s)
      (OnDemand.lookAt o c t) := by
  obtain ⟨left, hleft, hcount⟩ := h.left
  have spent : t.spendAt o = t := by
    unfold State.spendAt
    rw [h.unlimited]
  have htook : OnDemand.lookAt o c t = .took (OnDemand.kindSeen c t o)
      { t with log := .lookedAt o (OnDemand.kindSeen c t o) :: t.log } := by
    unfold OnDemand.lookAt
    rw [spent]
  rw [htook]
  unfold OnDemand.lookAt State.spendAt
  rw [hleft]
  cases left with
  | succ left =>
    have seen : OnDemand.kindSeen c { s with lookaheads := some left } o =
        OnDemand.kindSeen c t o := h.kindSeen_eq c o
    simp only [seen]
    exact .took (h.looked o _ left hcount)
  | zero =>
    by_cases hr : t.reached = none
    · -- the last one was spent before, so here the runs part
      refine .parted ?_
      intro s' t' hs ht
      obtain rfl := Option.some.inj hs
      obtain rfl := Option.some.inj ht
      have hlimit : t.log.any (·.isLimit) = false := by rw [← h.logged, hr]; rfl
      refine ⟨⟨o, by simp [State.reach, h.reached, hr]⟩, ?_⟩
      have := hcount hr
      simp only [paid, hlimit, Bool.false_eq_true, if_false]
      omega
    · -- reading winds down in both runs, and this limit comes too late to be the first
      obtain ⟨cause, hcause⟩ := Option.ne_none_iff_exists'.1 hr
      have kept : s.reach (.lookaheads o) = s := by simp [State.reach, h.reached, hcause]
      have same : Rationed f { s with log := .lookedAt o (OnDemand.kindSeen c t o) :: s.log }
          { t with log := .lookedAt o (OnDemand.kindSeen c t o) :: t.log } := by
        have looked := h.looked o (OnDemand.kindSeen c t o) 0 (by simp [hr])
        rwa [← hleft] at looked
      simp only [kept, h.kindSeen_eq c o]
      exact .took same

lemma nested {α : Type} {p : Production α} (h : Rationed f s t) (c : Setting) (o : Nat)
    (hp : ∀ s t, Rationed f s t →
      Reply.Alongside (Rationed f) (Exhausting f) (p c s) (p c t)) :
    Reply.Alongside (Rationed f) (Exhausting f) (Production.nestedAt o p c s)
      (Production.nestedAt o p c t) := by
  cases hfull : c.fullAt s.depth with
  | some limit =>
    rw [Production.nestedAt_of_full hfull, Production.nestedAt_of_full (h.depth ▸ hfull)]
    exact .refused (h.reach_nesting o limit)
  | none =>
    rw [Production.nestedAt_of_free hfull, Production.nestedAt_of_free (h.depth ▸ hfull), h.depth]
    refine (hp _ _ (h.withDepth (t.depth + 1))).closed ?_ ?_
    · intro s t h
      rw [h.depth]
      exact h.withDepth _
    · intro s t h
      exact h.later (s.later_withDepth _) (t.later_withDepth _)

end Rationed

/-- A limit on lookaheads makes a coupling with the run without one. -/
lemma rationed_coupling (f : Nat) (c : Setting) :
    Coupling c c (Rationed f) (Exhausting f) where
  source := rfl
  persists := Exhausting.later
  record o expected h := ⟨h.depth, by simp only [State.recordAt, h.furthest], h.reached, h.log,
    h.unlimited, h.left, h.within, h.logged, h.nesting⟩
  lookAt o h := h.lookAt c o
  nested o hp h := h.nested c o hp

/-! ## The outcomes -/

/-- Reading was ended by the limit on lookaheads. -/
def Outcome.Exhausted (x : Outcome) : Prop := ∃ o, x = .rejected (.limit (.lookaheads o))

/-- A reply comes to the limit that was reached in the state that it leaves. -/
lemma exhausted_conclude_iff {c : Setting} {x : Reply Query} (hx : x.state? = some s) :
    (OnDemand.conclude c x).outcome.Exhausted ↔ ∃ o, s.reached = some (.lookaheads o) := by
  unfold Outcome.Exhausted
  cases x with
  | fault cause => cases hx
  | took q s' =>
    obtain rfl := Option.some.inj hx
    cases hr : s'.reached <;> simp [OnDemand.conclude, hr]
  | refused s' =>
    obtain rfl := Option.some.inj hx
    cases hr : s'.reached <;> simp [OnDemand.conclude, hr]

lemma Rationed.not_exhausted (h : Rationed f s t) {c : Setting} {x : Reply Query}
    (hx : x.state? = some s) : ¬(OnDemand.conclude c x).outcome.Exhausted := by
  rw [exhausted_conclude_iff hx, h.reached]
  rintro ⟨o, ho⟩
  exact h.nesting o ho

lemma Rationed.conclude_took (h : Rationed f s t) (c : Setting) (q : Query) :
    (OnDemand.conclude c (.took q s)).outcome = (OnDemand.conclude c (.took q t)).outcome := by
  simp only [OnDemand.conclude, h.reached]

lemma Rationed.conclude_refused (h : Rationed f s t) (c : Setting) :
    (OnDemand.conclude c (.refused s)).outcome = (OnDemand.conclude c (.refused t)).outcome := by
  simp only [OnDemand.conclude, h.reached, h.furthest]

/-- **A limit on lookaheads is reached exactly when it is less than what reading pays for without
one**, and otherwise makes no difference. -/
lemma read_rationed {nesting : Option Nat} {text : String}
    (ht : (OnDemand.reply ⟨none, nesting⟩ text).state? = some t) (f : Nat) :
    ((OnDemand.read ⟨some f, nesting⟩ text).outcome.Exhausted ↔ f < paid t.log) ∧
      (paid t.log ≤ f → (OnDemand.read ⟨some f, nesting⟩ text).outcome =
        (OnDemand.read ⟨none, nesting⟩ text).outcome) := by
  obtain ⟨s, hs⟩ := exists_state_reply ⟨some f, nesting⟩ text
  have start : Rationed f (OnDemand.start ⟨some f, nesting⟩) (OnDemand.start ⟨none, nesting⟩) :=
    ⟨rfl, rfl, rfl, rfl, rfl, ⟨f, rfl, fun _ => rfl⟩, Nat.zero_le f, rfl, nofun⟩
  have along : Reply.Alongside (Rationed f) (Exhausting f)
      (OnDemand.reply ⟨some f, nesting⟩ text) (OnDemand.reply ⟨none, nesting⟩ text) :=
    (query_coupled (rationed_coupling f _) _ 0).both _ _ start
  unfold OnDemand.read
  have setting : Limits.setting ⟨some f, nesting⟩ text = Limits.setting ⟨none, nesting⟩ text := rfl
  rw [setting]
  generalize OnDemand.reply ⟨some f, nesting⟩ text = x at along hs
  generalize OnDemand.reply ⟨none, nesting⟩ text = y at along ht
  cases along with
  | took h =>
    cases Option.some.inj hs
    cases Option.some.inj ht
    exact ⟨iff_of_false (h.not_exhausted hs) (not_lt.2 h.within), fun _ => h.conclude_took _ _⟩
  | refused h =>
    cases Option.some.inj hs
    cases Option.some.inj ht
    exact ⟨iff_of_false (h.not_exhausted hs) (not_lt.2 h.within), fun _ => h.conclude_refused _⟩
  | parted apart =>
    obtain ⟨⟨o, ho⟩, beyond⟩ := apart s t hs ht
    refine ⟨iff_of_true ?_ beyond, fun h => absurd beyond (not_lt.2 h)⟩
    exact (exhausted_conclude_iff hs).2 ⟨o, ho⟩

/-- The same for reading a text of any size. -/
lemma parse_rationed (nesting : Option Nat) (text : String) :
    ∃ N, ∀ f, ((Limits.parse ⟨some f, nesting⟩ text).Exhausted ↔ f < N) ∧
      (N ≤ f → Limits.parse ⟨some f, nesting⟩ text = Limits.parse ⟨none, nesting⟩ text) := by
  by_cases hsize : Text.byteSize text.toList ≤ maxOffset
  · simp only [parse_eq_onDemand hsize]
    obtain ⟨t, ht⟩ := exists_state_reply ⟨none, nesting⟩ text
    exact ⟨paid t.log, read_rationed ht⟩
  · have large := not_le.1 hsize
    refine ⟨0, fun f => ⟨?_, ?_⟩⟩
    · rw [parse_of_tooLarge large]
      exact iff_of_false nofun (Nat.not_lt_zero f)
    · intro _
      rw [parse_of_tooLarge large, parse_of_tooLarge large]

/-- **A limit on lookaheads can take the place of a result, but not change it.**  Where it is not
reached, neither a larger one nor none at all makes a difference, and the limits that are reached
are those below some number. -/
theorem parse_lookaheads (nesting : Option Nat) (text : String) :
    (∀ f, ¬(Limits.parse ⟨some f, nesting⟩ text).Exhausted →
        (∀ f', f ≤ f' →
          Limits.parse ⟨some f', nesting⟩ text = Limits.parse ⟨some f, nesting⟩ text) ∧
        Limits.parse ⟨none, nesting⟩ text = Limits.parse ⟨some f, nesting⟩ text) ∧
      ∃ N, ∀ f, (Limits.parse ⟨some f, nesting⟩ text).Exhausted ↔ f < N := by
  obtain ⟨N, hN⟩ := parse_rationed nesting text
  refine ⟨?_, N, fun f => (hN f).1⟩
  intro f hf
  have enough : N ≤ f := by
    rw [(hN f).1] at hf
    exact not_lt.1 hf
  have same := (hN f).2 enough
  refine ⟨?_, same.symm⟩
  intro f' hf'
  rw [(hN f').2 (le_trans enough hf'), same]

end SearchQuery
