import Mathlib.Order.Bounds.Basic
import SearchQuery.Proofs.Acceptance
import SearchQuery.Proofs.DeadEnds
import SearchQuery.Proofs.Locations
import SearchQuery.Proofs.Openings

/-!
# What a limit on nesting can do

Without a limit on lookaheads, reading within a limit on nesting is compared with reading without
any limit.  `parse_nesting` says what becomes of the outcome.

* A query is accepted as before if its groups are nested within the limit.  Otherwise the limit is
  reached at the first parenthesis that opens a group one level too deep.
* A rejection for the grammar stays the same, unless the limit is reached at a parenthesis before
  it.  The furthest dead end is what decides this, although it may be recorded long before reading
  ends: a group that is opened behind it would have recorded a dead end further on.
* Where the limit is not reached, no larger one makes a difference, and neither does none at all.

The three parts are shown in different ways.  For the first, the text is known from its derivation,
and the run is followed along it.  For the second, nothing is known of the text, and the two runs
are compared up to the dead end.  For the third, they are compared up to the limit.
-/

namespace SearchQuery

/-! ## Accepted queries -/

lemma SequenceOpens.text {n k : Nat} {q : Query} {w : List Char} (h : SequenceOpens n q w k) :
    SequenceText q w := by
  cases h with
  | first unjoined text opens joined => exact .collapse unjoined text joined
  | more unjoined text joined opens => exact .collapse unjoined text joined

/-- Where a text hits in all its readings, the limit is reached. -/
lemma parse_of_hits {L k : Nat} {text : String} {u v w : List Char} (before : IsGap u)
    (inked : Inked v) (after : IsGap w) (htext : text.toList = u ++ v ++ w)
    (hsize : Text.byteSize text.toList ≤ maxOffset) (hits : SequenceHits (L + 1) v k) :
    Limits.parse ⟨none, some L⟩ text =
      .rejected (.limit (.nesting (Text.byteSize u + k) L)) := by
  obtain ⟨s, hs⟩ := exists_state_reply ⟨none, some L⟩ text
  have whole : (Limits.setting ⟨none, some L⟩ text).rest 0 = u ++ v ++ w := by
    rw [Setting.rest_zero]
    exact htext
  have hsteps : Text.byteSize v < Text.byteSize text.toList + 1 := by
    rw [htext, Text.byteSize_append, Text.byteSize_append]
    omega
  have reached := query_hits before inked after hits rfl rfl whole hsteps
    (OnDemand.start ⟨none, some L⟩) rfl (fun n => ⟨rfl, nofun⟩) s hs
  rw [Nat.zero_add] at reached
  exact parse_of_reached hsize hs reached

/-- **A query that is nested too deep is rejected at the first parenthesis that opens a group one
level too deep.** -/
lemma Derives.rejected_of_deep {L : Nat} {text : String} {q : Query} (h : Derives text.toList q)
    (hsize : Text.byteSize text.toList ≤ maxOffset) (deep : L < q.depth) :
    ∃ o, IsLeast {o | Opens (L + 1) q text.toList o} o ∧
      Limits.parse ⟨none, some L⟩ text = .rejected (.limit (.nesting o L)) := by
  obtain ⟨u, v, w, before, sequence, after, htext⟩ := h
  obtain ⟨k, -, opens, hits⟩ := sequence.hits (Nat.le_add_left 1 L) deep
  have rejected := parse_of_hits before sequence.inked after htext hsize hits
  refine ⟨Text.byteSize u + k, ⟨⟨u, v, w, k, before, opens, after, htext, rfl⟩, ?_⟩, rejected⟩
  rintro _ ⟨u', v', w', k', before', opens', after', htext', rfl⟩
  obtain ⟨-, k'', hk, hits'⟩ := opens'.hits
  have rejected' := parse_of_hits before' opens'.text.inked after' htext' hsize hits'
  rw [rejected] at rejected'
  simp only [Outcome.rejected.injEq, Rejection.limit.injEq, LimitReached.nesting.injEq] at rejected'
  omega

/-! ## Rejected texts -/

/-- A source is like itself, under a limit as well as without one. -/
lemma Setting.alike_of_unlimited (source : List Char) (nesting : Option Nat) (a : Nat) :
    Setting.Alike ⟨source, none⟩ ⟨source, nesting⟩ a where
  kind _ _ _ := rfl
  token _ _ _ _ := ⟨rfl, rfl⟩
  sign _ _ _ _ := Iff.rfl
  colon _ h := h
  bound _ _ _ := rfl
  full := nofun

/-- **A dead end stays where it is, unless the limit is reached before.** -/
lemma parse_of_unexpected {L : Nat} {text : String} {e : Unexpected}
    (h : Limits.unlimited.parse text = .rejected (.unexpected e)) :
    Limits.parse ⟨none, some L⟩ text = .rejected (.unexpected e) ∨
      ∃ o < e.span.start,
        (∃ front back, text.toList = front ++ '(' :: back ∧ Text.byteSize front = o) ∧
          Limits.parse ⟨none, some L⟩ text = .rejected (.limit (.nesting o L)) := by
  obtain ⟨hsize, s, hs, placed, reached, recorded, rfl⟩ := reply_of_unexpected h
  obtain ⟨place, hplace⟩ := Option.isSome_iff_exists.1 recorded
  have hspan : (OnDemand.report (Limits.unlimited.setting text) s.furthest).span.start =
      place.2 := by simp [OnDemand.report, OnDemand.deadEnd, hplace]
  have hits : ¬s.Misses place.2 := by
    rintro (cut | elsewhere)
    · rw [reached] at cut
      cases cut
    · exact elsewhere place hplace rfl
  have alike := Setting.alike_of_unlimited text.toList (some L) place.2
  have matched : (OnDemand.start Limits.unlimited).Matches (OnDemand.start ⟨none, some L⟩) :=
    ⟨rfl, rfl, rfl, rfl⟩
  have behind : (OnDemand.start Limits.unlimited).Behind 0 := by
    intro place h
    cases h
  rw [hspan]
  rcases query_abreast alike (Nat.zero_le _) matched behind hs hits with
    ⟨t, ht, same⟩ | ⟨o, d, limit, ho, -, full, cut⟩
  · left
    have again : OnDemand.reply ⟨none, some L⟩ text = .refused t := ht
    rw [parse_of_refused hsize again (same.reached ▸ reached), ← same.furthest]
    rfl
  · right
    obtain ⟨t, ht⟩ := exists_state_reply ⟨none, some L⟩ text
    have hcut := cut t ht
    obtain rfl : L = limit := Option.some.inj (Setting.nestingLimit_of_fullAt full)
    have rejected := parse_of_reached hsize ht hcut
    obtain ⟨t', ht', placed', -⟩ := exists_state_of_rejected hsize rejected
    obtain rfl := Option.some.inj (ht.symm.trans ht')
    obtain ⟨boundary, hk⟩ := placed'.nesting o L hcut
    exact ⟨o, ho, Setting.exists_openParen boundary hk, rejected⟩

/-! ## Larger limits -/

/-- Two runs are in the same state, and no limit was reached. -/
def Unaffected (s t : State) : Prop := s = t ∧ s.lookaheads = none ∧ s.reached = none

/-- The run within a limit has reached it. -/
def Overrun (L : Nat) (s _t : State) : Prop := ∃ o, s.reached = some (.nesting o L)

/-- A limit makes a coupling with all that allow for more. -/
lemma nesting_coupling {L : Nat} {nesting : Option Nat} (source : List Char)
    (larger : ∀ limit ∈ nesting, L ≤ limit) :
    Coupling ⟨source, some L⟩ ⟨source, nesting⟩ Unaffected (Overrun L) where
  source := rfl
  persists := by
    rintro s t s' t' ⟨o, ho⟩ later -
    exact ⟨o, later.reached _ ho⟩
  record := by
    rintro s t o expected ⟨rfl, left, reached⟩
    exact ⟨rfl, left, reached⟩
  lookAt := by
    rintro s t o ⟨rfl, left, reached⟩
    have spent : s.spendAt o = s := by
      unfold State.spendAt
      rw [left]
    unfold OnDemand.lookAt
    rw [spent]
    exact .took ⟨rfl, left, reached⟩
  nested := by
    rintro α p s t o hp ⟨rfl, left, reached⟩
    cases hfull : Setting.fullAt ⟨source, some L⟩ s.depth with
    | some limit =>
      obtain rfl : L = limit := Option.some.inj (Setting.nestingLimit_of_fullAt hfull)
      refine .parted fun s' t' hs' _ => ⟨o, ?_⟩
      rw [Production.nestedAt_of_full hfull] at hs'
      obtain rfl := Option.some.inj hs'
      unfold State.reach
      rw [reached]
    | none =>
      have fits := Setting.fullAt_eq_none_iff.1 hfull L rfl
      have opens : Setting.fullAt ⟨source, nesting⟩ s.depth = none :=
        Setting.fullAt_eq_none_iff.2 fun limit hlimit => le_trans fits (larger limit hlimit)
      rw [Production.nestedAt_of_free hfull, Production.nestedAt_of_free opens]
      refine (hp { s with depth := s.depth + 1 } _ ⟨rfl, left, reached⟩).closed ?_ fun s t h => h
      rintro s _ ⟨rfl, left, reached⟩
      exact ⟨rfl, left, reached⟩

/-- **Where the limit is not reached, no larger one makes a difference.** -/
lemma parse_of_not_overrun {L : Nat} {nesting : Option Nat} {text : String}
    (h : ∀ o, Limits.parse ⟨none, some L⟩ text ≠ .rejected (.limit (.nesting o L)))
    (larger : ∀ limit ∈ nesting, L ≤ limit) :
    Limits.parse ⟨none, nesting⟩ text = Limits.parse ⟨none, some L⟩ text := by
  by_cases hsize : Text.byteSize text.toList ≤ maxOffset
  case neg =>
    rw [parse_of_tooLarge (not_le.1 hsize), parse_of_tooLarge (not_le.1 hsize)]
  obtain ⟨s, hs⟩ := exists_state_reply ⟨none, some L⟩ text
  obtain ⟨t, ht⟩ := exists_state_reply ⟨none, nesting⟩ text
  have along : Reply.Alongside Unaffected (Overrun L) (OnDemand.reply ⟨none, some L⟩ text)
      (OnDemand.reply ⟨none, nesting⟩ text) :=
    (query_coupled (nesting_coupling text.toList larger) _ 0).both _ _ ⟨rfl, rfl, rfl⟩
  rw [parse_eq_onDemand hsize, parse_eq_onDemand hsize]
  unfold OnDemand.read
  generalize hx : OnDemand.reply ⟨none, some L⟩ text = x at along hs ⊢
  generalize OnDemand.reply ⟨none, nesting⟩ text = y at along ht ⊢
  cases along with
  | took same =>
    obtain ⟨rfl, -, reached⟩ := same
    simp only [OnDemand.conclude, reached]
  | refused same =>
    obtain ⟨rfl, -, reached⟩ := same
    simp only [OnDemand.conclude, reached]
    rfl
  | parted apart =>
    obtain ⟨o, ho⟩ := apart s t hs ht
    exact absurd (parse_of_reached hsize (hx ▸ hs) ho) (h o)

/-- **What a limit on nesting can do.**  A query that is nested within the limit is accepted, and
one that is not is rejected at the first parenthesis that opens a group one level too deep.  A
rejection for the grammar is given again, unless the limit is reached at a parenthesis before it.
Where the limit is not reached, neither a larger one nor none at all makes a difference. -/
theorem parse_nesting (L : Nat) (text : String) :
    (∀ q, Limits.unlimited.parse text = .accepted q →
        (q.depth ≤ L → Limits.parse ⟨none, some L⟩ text = .accepted q) ∧
        (L < q.depth → ∃ o, IsLeast {o | Opens (L + 1) q text.toList o} o ∧
          Limits.parse ⟨none, some L⟩ text = .rejected (.limit (.nesting o L)))) ∧
      (∀ e, Limits.unlimited.parse text = .rejected (.unexpected e) →
        Limits.parse ⟨none, some L⟩ text = .rejected (.unexpected e) ∨
          ∃ o < e.span.start,
            (∃ front back, text.toList = front ++ '(' :: back ∧ Text.byteSize front = o) ∧
              Limits.parse ⟨none, some L⟩ text = .rejected (.limit (.nesting o L))) ∧
      ((∀ o, Limits.parse ⟨none, some L⟩ text ≠ .rejected (.limit (.nesting o L))) →
        ∀ nesting : Option Nat, (∀ limit ∈ nesting, L ≤ limit) →
          Limits.parse ⟨none, nesting⟩ text = Limits.parse ⟨none, some L⟩ text) := by
  refine ⟨fun q h => ?_, fun e h => parse_of_unexpected h, fun h nesting larger =>
    parse_of_not_overrun h larger⟩
  obtain ⟨hsize, derives, -⟩ := derives_of_accepted h
  refine ⟨fun shallow => derives.accepted_of_fits hsize ?_, derives.rejected_of_deep hsize⟩
  rintro limit ⟨⟩
  exact shallow

end SearchQuery
