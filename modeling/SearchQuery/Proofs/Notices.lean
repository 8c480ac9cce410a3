import SearchQuery.Proofs.CutOrder
import SearchQuery.Proofs.Reference

/-!
# What is reported of reading

The notices of a reading come in a fixed order: the size of the text first, the ending last, and in
between the places where the source was cut anew, each further on than the one before, with the
limit among them if one was reached.  The notice of a limit stands there exactly if that limit is
what the text is rejected for, and after it the source was cut at most once.

All of this is in the log of the state that reading ends in, of which `query_orderly` says what is
true.  What remains is to read the log from its other end.
-/

namespace SearchQuery

/-! ## The log, read from its beginning -/

/-- Where no limit is told of, the notices are those of the cuts. -/
lemma filterMap_notice?_of_no_limit {log : List Event} (h : ∀ event ∈ log, event.isLimit = false) :
    log.filterMap Event.notice? = (log.filterMap Event.cut?).map Notice.recut := by
  induction log with
  | nil => rfl
  | cons event log ih =>
    have hmore := ih fun e he => h e (List.mem_cons_of_mem _ he)
    cases event with
    | lookedAt o kind => exact hmore
    | recut o => exact congrArg (Notice.recut o :: ·) hmore
    | limitReached cause => exact absurd (h _ List.mem_cons_self) (by simp [Event.isLimit])

/-- The notices of the log are the cuts before the limit, the limit, and the cuts since. -/
lemma exists_cuts_of_tells {s : State} {k : Nat} (h : s.Tells k) :
    ∃ before after : List Nat, s.log.reverse.filterMap Event.notice? =
        before.map Notice.recut ++ s.reached.toList.map Notice.limitReached ++
          after.map Notice.recut ∧
      before ++ after = s.cuts.reverse ∧ after.length ≤ k ∧ (s.reached = none → after = []) := by
  unfold State.Tells at h
  cases hr : s.reached with
  | none =>
    rw [hr] at h
    refine ⟨s.cuts.reverse, [], ?_, by simp, by simp, fun _ => rfl⟩
    rw [List.filterMap_reverse, filterMap_notice?_of_no_limit h]
    simp [State.cuts]
  | some cause =>
    rw [hr] at h
    obtain ⟨newer, older, hlog, hnewer, holder, hcuts⟩ := h
    refine ⟨(older.filterMap Event.cut?).reverse, (newer.filterMap Event.cut?).reverse, ?_, ?_, ?_,
      nofun⟩
    · rw [hlog, List.filterMap_reverse, List.filterMap_append, List.filterMap_cons,
        filterMap_notice?_of_no_limit hnewer, filterMap_notice?_of_no_limit holder]
      simp [Event.notice?]
    · rw [State.cuts, hlog, List.filterMap_append, List.filterMap_cons]
      simp [Event.cut?]
    · rw [List.length_reverse]
      exact hcuts

/-! ## The end of reading -/

/-- Reading begins with the tokens of the whole source, and with nothing cut. -/
lemma poised_start (c : Setting) (lookaheads : Option Nat) :
    let s : State := { tokens := (Token.lex c.source).toArray, lookaheads := lookaheads }
    Poised c s 0 1 s 0 := by
  have tokens := (Setting.tiles_lexFrom (Text.isBoundary_zero c.source)).adjoin
  refine ⟨⟨⟨0, tokens⟩, List.Pairwise.nil, ?_, ?_⟩, fun _ _ => rfl, le_rfl, ?_⟩
  · exact fun x hx => absurd hx List.not_mem_nil
  · exact fun event hevent => absurd hevent List.not_mem_nil
  · exact fun x hx => absurd hx List.not_mem_nil

/-- A text that is not too large is read to a state whose log is in order, and the limit that was
reached decides what it comes to. -/
lemma exists_orderly_of_le (limits : Limits) {text : String}
    (hsize : Text.byteSize text.toList ≤ maxOffset) :
    ∃ s, Orderly (limits.setting text) 1 s ∧ (limits.read text).events = s.log.reverse ∧
      ((s.reached = none ∧ ∃ q, limits.parse text = .accepted q) ∨
        (s.reached = none ∧ ∃ e, limits.parse text = .rejected (.unexpected e)) ∨
        ∃ cause, s.reached = some cause ∧ limits.parse text = .rejected (.limit cause)) := by
  let start : State :=
    { tokens := (Token.lex text.toList).toArray, lookaheads := limits.lookaheads }
  have poised : Poised (limits.setting text) start 0 1 start 0 :=
    poised_start (limits.setting text) limits.lookaheads
  have orderly := query_orderly (limits.setting text) (limits.stepsOf text) poised
  have nofault := (readTokens_eq_onDemand limits text).2.2
  have hread : limits.readTokens text.toList (Token.lex text.toList) =
      Limits.conclude text.toList
        (Production.query (limits.stepsOf text) (limits.setting text) start) := rfl
  rw [hread] at nofault
  unfold Limits.parse
  rw [read_of_le hsize, hread]
  cases hreply : Production.query (limits.stepsOf text) (limits.setting text) start with
  | fault cause =>
    rw [hreply] at nofault
    exact absurd rfl (nofault cause)
  | took q s =>
    rw [hreply] at orderly
    refine ⟨s, orderly, rfl, ?_⟩
    cases hr : s.reached with
    | none => exact Or.inl ⟨rfl, q, by simp [Limits.conclude, hr]⟩
    | some cause => exact Or.inr (Or.inr ⟨cause, rfl, by simp [Limits.conclude, hr]⟩)
  | refused s =>
    rw [hreply] at orderly nofault
    refine ⟨s, orderly, rfl, ?_⟩
    cases hr : s.reached with
    | some cause => exact Or.inr (Or.inr ⟨cause, rfl, by simp [Limits.conclude, hr]⟩)
    | none =>
      cases hreport : s.furthest.report? text.toList s.tokens with
      | some e => exact Or.inr (Or.inl ⟨rfl, e, by simp [Limits.conclude, hr, hreport]⟩)
      | none => exact absurd (by simp [Limits.conclude, hr, hreport]) (nofault .notInSource)

/-! ## Notices -/

/-- The notices of reading a text: its size, cuts, perhaps a limit and what was cut since, and the
ending. -/
structure NoticesInOrder (limits : Limits) (text : String) (before : List Nat)
    (fatal : Option LimitReached) (after : List Nat) (ending : Notice) : Prop where
  notices : limits.notices text = .started (Text.byteSize text.toList) ::
    (before.map .recut ++ fatal.toList.map .limitReached ++ after.map .recut ++ [ending])
  increasing : (before ++ after).Pairwise (· < ·)
  inside : ∀ o ∈ before ++ after, o < Text.byteSize text.toList
  /-- Only a limit is followed by more cuts, and by one at most. -/
  few : after.length ≤ 1
  none_after : fatal = none → after = []
  /-- The limit is what the text is rejected for. -/
  fatal_iff : ∀ cause, fatal = some cause ↔ limits.parse text = .rejected (.limit cause)
  outcome : (∃ q, limits.parse text = .accepted q ∧ ending = .accepted q.length) ∨
    ∃ cause, limits.parse text = .rejected cause ∧ ending = .rejected cause.offset cause.message

/-- **The notices of a reading are in order.**  The size comes first and the ending last.  In
between are the places where the source was cut anew, further and further on and all in front of its
end, and among them the limit that the text is rejected for, if it is, with at most one cut after
it. -/
theorem notices_in_order (limits : Limits) (text : String)
    (hsize : Text.byteSize text.toList ≤ maxOffset) :
    ∃ before fatal after ending, NoticesInOrder limits text before fatal after ending := by
  obtain ⟨s, orderly, hevents, hends⟩ := exists_orderly_of_le limits hsize
  obtain ⟨before, after, hnotices, hcuts, hafter, hnone⟩ := exists_cuts_of_tells orderly.tells
  have increasing : (before ++ after).Pairwise (· < ·) := by
    rw [hcuts, List.pairwise_reverse]
    exact orderly.increasing
  have inside : ∀ o ∈ before ++ after, o < Text.byteSize text.toList := by
    intro o ho
    rw [hcuts, List.mem_reverse] at ho
    exact orderly.inside o ho
  have fatal : ∀ cause, s.reached = some cause ↔
      limits.parse text = .rejected (.limit cause) := by
    intro cause
    rcases hends with ⟨hr, q, hq⟩ | ⟨hr, e, he⟩ | ⟨reached, hr, hc⟩
    · simp [hr, hq]
    · simp [hr, he]
    · simp [hr, hc]
  obtain ⟨ending, hending, outcome⟩ : ∃ ending, (limits.parse text).notice? = some ending ∧
      ((∃ q, limits.parse text = .accepted q ∧ ending = .accepted q.length) ∨
        ∃ cause, limits.parse text = .rejected cause ∧
          ending = .rejected cause.offset cause.message) := by
    rcases hends with ⟨-, q, hq⟩ | ⟨-, e, he⟩ | ⟨cause, -, hc⟩
    · exact ⟨_, by rw [hq]; rfl, Or.inl ⟨q, hq, rfl⟩⟩
    · exact ⟨_, by rw [he]; rfl, Or.inr ⟨_, he, rfl⟩⟩
    · exact ⟨_, by rw [hc]; rfl, Or.inr ⟨_, hc, rfl⟩⟩
  refine ⟨before, s.reached, after, ending, ?_, increasing, inside, hafter, hnone, fatal, outcome⟩
  have hnotice : (limits.read text).outcome.notice? = some ending := hending
  simp only [Limits.notices, hevents, hnotices, hnotice, Option.toList_some]

/-- Lookaheads run out in front of a bound, and the quote that it starts with is cut loose from the
phrase all the same. -/
theorem notices_in_order_cut_after_limit :
    let limits : Limits := ⟨some 6, none⟩
    let text := "f:[\"a b\" TO c]"
    limits.notices text = [.started 14, .limitReached (.lookaheads 3), .recut 5,
      .rejected 3 "execution limit exceeded"] ∧
    Text.byteSize text.toList ≤ maxOffset ∧
      ∃ before fatal after ending, NoticesInOrder limits text before fatal after ending := by
  intro limits text
  have hsize : Text.byteSize text.toList ≤ maxOffset := by decide +kernel
  exact ⟨by decide +kernel, hsize, notices_in_order limits text hsize⟩

end SearchQuery
