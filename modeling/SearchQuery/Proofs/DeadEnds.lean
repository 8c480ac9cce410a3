import SearchQuery.Proofs.Closings

/-!
# Abreast up to a dead end

All productions go abreast, and so two texts that are alike up to a dead end of the first one are
both rejected there.  `query_abreast` says this of whole queries.  Sequences of clauses are those
that settle, and a group or a query closes them.
-/

namespace SearchQuery

open Production (Taken)

variable {c d : Setting} {a o : Nat}

/-! ## Values -/

lemma term_steady (alike : c.Alike d a) (hk : c.kindAt o = .word) :
    Steady c d a Prod.snd o (OnDemand.term o) := by
  have word : c.kindAt o ≠ .stray := by simp [hk]
  unfold OnDemand.term Cursor.term
  refine steady_textAt_bind alike word fun text => steady_next_bind alike word fun n => ?_
  refine (steady_lookAt_bind alike fun seen hseen => ?_).toAbreast
  split_ifs with h
  · have fuzzy : c.kindAt n ≠ .stray := by simp [hseen (by simp [h]), h]
    refine steady_textAt_bind alike fuzzy fun number => ?_
    exact steady_next_bind alike fuzzy fun n => abreast_pure rfl
  · exact steady_miss (steady_pure rfl)

lemma phrase_steady (alike : c.Alike d a) (hk : c.kindAt o = .phrase) :
    Steady c d a Prod.snd o (OnDemand.phrase o) := by
  have quoted : c.kindAt o ≠ .stray := by simp [hk]
  unfold OnDemand.phrase Cursor.phrase
  refine steady_textAt_bind alike quoted fun text => steady_next_bind alike quoted fun n => ?_
  refine (steady_lookAt_bind alike fun seen hseen => ?_).toAbreast
  split_ifs with h
  · have fuzzy : c.kindAt n ≠ .stray := by simp [hseen (by simp [h]), h]
    refine steady_textAt_bind alike fuzzy fun number => ?_
    dsimp only
    split_ifs
    · exact steady_next_bind alike fuzzy fun n => abreast_pure rfl
    · exact steady_miss (steady_pure rfl)
  · exact steady_miss (steady_pure rfl)

lemma rangeTo_steady_bind {β : Type} {place : β → Nat} {f : Nat → Production β}
    (alike : c.Alike d a) (hf : ∀ n, Abreast c d a place n (f n)) :
    Steady c d a place o (OnDemand.rangeTo o >>= f) := by
  unfold OnDemand.rangeTo Cursor.rangeTo
  rw [bind_assoc]
  refine steady_lookAt_bind alike fun seen hseen => ?_
  split_ifs with h
  · have word : c.kindAt o ≠ .stray := by simp [hseen (by simp [h]), h]
    rw [bind_assoc]
    refine steady_textAt_bind alike word fun text => ?_
    split_ifs
    · exact steady_next_bind alike word hf
    · exact steady_refuseAt
  · exact steady_refuseAt

/-- The bounds of a range are read wherever they begin, also inside what looked like a phrase. -/
lemma rangeAfter_abreast (alike : c.Alike d a) (inclusive : Bool) {closing : Kind}
    (hend : closing ≠ .endOfInput) (hstray : closing ≠ .stray) :
    Abreast c d a Prod.snd o (OnDemand.rangeAfter o inclusive closing) := by
  unfold OnDemand.rangeAfter Reader.rangeAfter
  refine abreast_skipBlank_bind alike fun o₁ => abreast_bound_bind alike ?_
  rintro ⟨low, o₂⟩
  refine steady_expect_bind alike (by simp) (by simp) fun o₃ => ?_
  refine (rangeTo_steady_bind alike fun o₄ => ?_).toAbreast
  refine (steady_expect_bind alike (by simp) (by simp) fun o₅ => ?_).toAbreast
  refine abreast_bound_bind alike ?_
  rintro ⟨high, o₆⟩
  refine (steady_skipBlank alike).bind fun o₇ => ?_
  exact steady_expect_bind alike hend hstray fun o₈ => abreast_pure rfl

lemma range_steady (alike : c.Alike d a) : Steady c d a Prod.snd o (OnDemand.range o) := by
  unfold OnDemand.range Reader.range
  refine steady_lookAt_bind alike fun seen hseen => ?_
  cases seen
  case openBracket =>
    have bracket := hseen (by simp)
    exact steady_next_bind alike (by simp [bracket]) fun n =>
      rangeAfter_abreast alike true (by simp) (by simp)
  case openBrace =>
    have bracket := hseen (by simp)
    exact steady_next_bind alike (by simp [bracket]) fun n =>
      rangeAfter_abreast alike false (by simp) (by simp)
  all_goals exact steady_refuseAt

/-! ## Groups and clauses -/

section inner

variable {inner : Nat → Production (Taken Query)}

/-- Closes a group, of which the body is already read. -/
def OnDemand.closing (v : Taken Query) : Production (Taken Query) :=
  shut .closeParen (fun o => do pure (v.1, ← next o)) v.2

lemma group_eq (o : Nat) : OnDemand.group inner o = Production.nestedAt o (do
    inner (← OnDemand.skipBlank (← OnDemand.expect o .openParen)) >>= OnDemand.closing) := by
  unfold OnDemand.group OnDemand.closing OnDemand.shut Reader.group
  simp only [latch_next]

/-- A sequence and what closes it. -/
lemma Settles.closed (alike : c.Alike d a) (hinner : Settles c d a inner) :
    Steady c d a Prod.snd o (inner o >>= OnDemand.closing) := by
  have hg (v : Taken Query) (o : Nat) (hk : Kind.closeParen ≠ .endOfInput →
      c.kindAt o = .closeParen) : Steady c d a Prod.snd o
        (OnDemand.next o >>= fun o => pure (v.1, o)) :=
    steady_next_bind alike (by simp [hk (by simp)]) fun n => abreast_pure rfl
  have closing (v : Taken Query) : Steady c d a Prod.snd v.2 (OnDemand.closing v) :=
    (steady_skipBlank alike).bind fun o => latch_steady alike (hg v o)
  have strays (v : Taken Query) (s : State) (h : Adrift c a v s) :
      (OnDemand.closing v c s).Strays a (Lost c a Prod.snd) :=
    shut_strays (Or.inl rfl) (hg v) alike h
  refine ⟨⟨?_, ?_⟩, ?_⟩
  · intro s
    exact (hinner.carries o s).bind fun v => (closing v).carries
  · intro ho s t matched behind
    have ends := hinner.both o ho s t matched behind
    generalize hx : inner o c s = x at ends
    generalize hy : inner o d t = y at ends
    cases ends with
    | took same ended =>
      rw [Production.bind_of_took hx, Production.bind_of_took hy]
      exact shut_both (Or.inl rfl) (hg _) alike same ended
    | refused same =>
      rw [Production.bind_apply, Production.bind_apply, hx, hy]
      exact .refused same
    | strayed lost => exact .strayed ((hx ▸ lost).bind strays)
    | cut beyond left reached opens full =>
      have beyond := (hx ▸ beyond : (inner o c s).Beyond _ _).bind fun v => (closing v).carries
      rw [Production.bind_apply (inner o) _ d t, hy]
      cases y with
      | took v t₁ =>
        obtain rfl := Option.some.inj left
        -- a run that was cut short sees no parenthesis
        dsimp only
        rw [OnDemand.closing, shut_of_reached reached, if_neg (by simp)]
        exact .cut beyond (reached_look (e := d) (reached_look reached)) opens full
      | refused t₁ =>
        obtain rfl := Option.some.inj left
        exact .cut beyond reached opens full
      | fault cause => cases left
  · intro straddles s behind
    exact (hinner.stalls o straddles s behind).bind strays

lemma group_steady (alike : c.Alike d a) (hinner : Settles c d a inner)
    (hk : c.kindAt o = .openParen) : Steady c d a Prod.snd o (OnDemand.group inner o) := by
  have body (n : Nat) : Steady c d a Prod.snd n
      (OnDemand.skipBlank n >>= fun o => inner o >>= OnDemand.closing) :=
    (steady_skipBlank alike).bind fun o => hinner.closed alike
  rw [group_eq]
  refine steady_nested alike ?_ ?_
  · exact steady_expect_bind alike (by simp) (by simp) fun n => (body n).toAbreast
  · exact beyond_expect_bind hk (by simp) fun n => (body n).carries

lemma marker_steady (alike : c.Alike d a) : Steady c d a Prod.snd o (OnDemand.marker o) := by
  unfold OnDemand.marker Cursor.marker
  refine steady_lookAt_bind alike fun seen hseen => ?_
  cases seen
  case plus => exact steady_next_bind alike (by simp [hseen]) fun n => abreast_pure rfl
  case minus => exact steady_next_bind alike (by simp [hseen]) fun n => abreast_pure rfl
  all_goals exact steady_pure rfl

lemma boost_steady (alike : c.Alike d a) : Steady c d a Prod.snd o (OnDemand.boost o) := by
  unfold OnDemand.boost Cursor.boost
  refine steady_lookAt_bind alike fun seen hseen => ?_
  split_ifs with h
  · have boosted : c.kindAt o ≠ .stray := by simp [hseen (by simp [h]), h]
    refine steady_textAt_bind alike boosted fun text => ?_
    exact steady_next_bind alike boosted fun n => abreast_pure rfl
  · exact steady_miss (steady_pure rfl)

/-- What a field comes to: two lookaheads, if there is a word. -/
lemma field_apply (e : Setting) (s : State) (o : Nat) :
    OnDemand.field o e s =
      if OnDemand.kindSeen e (s.spendAt o) o = .word then
        .took (if OnDemand.kindSeen e ((s.look e o).spendAt (e.next o)) (e.next o) = .colon ∧
            ¬(e.textAt o).contains '*' then
            (some (String.ofList (e.textAt o)), e.next (e.next o)) else (none, o))
          ((s.look e o).look e (e.next o))
      else .took (none, o) (s.look e o) := by
  show (if OnDemand.kindSeen e (s.spendAt o) o = .word then _ else _ : Production _) e
    (s.look e o) = _
  by_cases word : OnDemand.kindSeen e (s.spendAt o) o = .word
  · rw [if_pos word, if_pos word]
    show (if OnDemand.kindSeen e ((s.look e o).spendAt (e.next o)) (e.next o) = .colon then _
      else _ : Production _) e ((s.look e o).look e (e.next o)) = _
    by_cases colon : OnDemand.kindSeen e ((s.look e o).spendAt (e.next o)) (e.next o) = .colon
    · rw [if_pos colon]
      show (if (e.textAt o).contains '*' then _ else _ : Production _) e
        ((s.look e o).look e (e.next o)) = _
      by_cases star : (e.textAt o).contains '*' = true
      · rw [if_pos star, if_neg fun h => h.2 star]
        rfl
      · rw [if_neg star, if_pos ⟨colon, star⟩]
        rfl
    · rw [if_neg colon, if_neg fun h => colon h.1]
      rfl
  · rw [if_neg word, if_neg word]
    rfl

/-- A colon that the first run does not see after a word is not there for the second one either,
even beyond `a`. -/
lemma Setting.Alike.no_colon (alike : c.Alike d a) (ho : o ≤ a) (within : ¬c.Straddles a o)
    (word : c.kindAt o = .word) (hnext : d.next o = c.next o) {s t : State} (matched : s.Matches t)
    (h : OnDemand.kindSeen c s (c.next o) ≠ .colon) :
    OnDemand.kindSeen d t (c.next o) ≠ .colon := by
  unfold OnDemand.kindSeen at h ⊢
  rw [matched.reached] at h
  cases hr : t.reached with
  | some cause => simp
  | none =>
    rw [hr] at h
    by_cases inside : c.next o ≤ a
    · exact fun hd => h ((alike.sign _ inside .colon (by simp)).1 hd)
    · obtain rfl : o = a := by
        by_contra hne
        exact within ⟨lt_of_le_of_ne ho hne, not_le.1 inside⟩
      have := alike.colon word h
      rwa [hnext] at this

/-- A colon that ends by `a` is seen by both runs, and ends at the same place. -/
lemma Setting.Alike.seen_colon (alike : c.Alike d a) (inside : c.next o ≤ a) {s t : State}
    (matched : s.Matches t) (h : OnDemand.kindSeen c s o = .colon) :
    OnDemand.kindSeen d t o = .colon ∧ d.next o = c.next o := by
  have before : o ≤ a := le_trans (c.le_next o) inside
  have within : ¬c.Straddles a o := fun straddles => by
    have := straddles.2
    omega
  have colon := kindAt_of_kindSeen_ne h (by simp)
  exact ⟨(matched.kindSeen (alike.kind o before within)).trans h,
    (alike.token o before within (by simp [colon])).2⟩

/-- The second lookahead may be made beyond `a`.  A colon there makes a field, which the first run
does not come back from, and if there is none, the two runs do the same. -/
lemma field_steady (alike : c.Alike d a) : Steady c d a Prod.snd o (OnDemand.field o) := by
  have onward : o ≤ c.next (c.next o) := le_trans (c.le_next o) (c.le_next _)
  refine .mk' ?_ ?_ ?_
  · intro s
    rw [field_apply]
    split_ifs
    · exact ⟨onward, State.precedes_look.trans State.precedes_look⟩
    · exact ⟨le_rfl, State.precedes_look.trans State.precedes_look⟩
    · exact ⟨le_rfl, State.precedes_look⟩
  · intro straddles s behind
    have behind : (s.look c o).Behind o := behind.look
    rw [field_apply]
    split_ifs
    · exact Or.inr (Or.inl (lt_of_lt_of_le straddles.2 (c.le_next _)))
    · exact Or.inr (Or.inr ⟨straddles, behind.look⟩)
    · exact Or.inr (Or.inr ⟨straddles, behind⟩)
  · intro ho straddles s t matched behind
    have behind : (s.look c o).Behind o := behind.look
    have looked := matched.look (c := c) (d := d) o
    have seen := (matched.spendAt o).kindSeen (alike.kind o ho straddles)
    rw [field_apply, field_apply, seen]
    by_cases word : OnDemand.kindSeen c (s.spendAt o) o = .word
    case neg =>
      rw [if_neg word, if_neg word]
      exact .took looked ⟨ho, behind⟩
    have stands := kindAt_of_kindSeen_ne word (by simp)
    obtain ⟨htext, hnext⟩ := alike.token o ho straddles (by simp [stands])
    have spent := looked.spendAt (c.next o)
    rw [if_pos word, if_pos word, htext, hnext]
    by_cases named : OnDemand.kindSeen c ((s.look c o).spendAt (c.next o)) (c.next o) = .colon ∧
        ¬(c.textAt o).contains '*'
    · rw [if_pos named]
      by_cases inside : c.next (c.next o) ≤ a
      · obtain ⟨colon, past⟩ := alike.seen_colon inside spent named.1
        rw [if_pos ⟨colon, named.2⟩, past]
        exact .took (looked.look _) ⟨inside, behind.look.mono onward⟩
      · exact .strayed (Or.inr (Or.inl (not_le.1 inside)))
    · have unnamed : ¬(OnDemand.kindSeen d ((t.look d o).spendAt (c.next o)) (c.next o) = .colon ∧
          ¬(c.textAt o).contains '*') := by
        rintro ⟨colon', plain⟩
        have colon := fun h => alike.no_colon ho straddles stands hnext spent h colon'
        exact named ⟨not_not.1 colon, plain⟩
      rw [if_neg named, if_neg unnamed]
      exact .took (looked.look _) ⟨ho, behind.look⟩

lemma value_steady (alike : c.Alike d a) (hinner : Settles c d a inner) (field : Option String)
    (marker : Option Marker) :
    Steady c d a Prod.snd o (OnDemand.value inner field marker o) := by
  unfold OnDemand.value Reader.value
  refine steady_lookAt_bind alike fun seen hseen => ?_
  cases seen
  case word => exact (term_steady alike (hseen (by simp))).bind fun v => steady_pure rfl
  case phrase => exact (phrase_steady alike (hseen (by simp))).bind fun v => steady_pure rfl
  case openParen =>
    exact (group_steady alike hinner (hseen (by simp))).bind fun v => steady_pure rfl
  case openBracket =>
    cases field with
    | none => exact steady_refuseAt
    | some name => exact (range_steady alike).bind fun v => steady_pure rfl
  case openBrace =>
    cases field with
    | none => exact steady_refuseAt
    | some name => exact (range_steady alike).bind fun v => steady_pure rfl
  all_goals exact steady_refuseAt

lemma clause_steady (alike : c.Alike d a) (hinner : Settles c d a inner)
    (operator : Option Operator) :
    Steady c d a Prod.snd o (OnDemand.clause inner operator o) := by
  unfold OnDemand.clause Reader.clause
  refine (marker_steady alike).bind fun marker => (field_steady alike).bind fun field => ?_
  refine (value_steady alike hinner field.1 marker.1).bind fun make => ?_
  exact (boost_steady alike).bind fun boost => steady_pure rfl

lemma afterBlank_steady (alike : c.Alike d a) (hinner : Settles c d a inner) :
    Steady c d a Prod.snd o (OnDemand.afterBlank inner o) := by
  unfold OnDemand.afterBlank Reader.afterBlank
  refine steady_lookAt_bind alike fun seen hseen => ?_
  cases hop : Production.operatorOf? seen with
  | none => exact steady_miss (clause_steady alike hinner none)
  | some operator =>
    have keyword : c.kindAt o ≠ .stray := by
      rw [hseen (OnDemand.ne_of_operatorOf? hop rfl)]
      exact OnDemand.ne_of_operatorOf? hop rfl
    refine steady_next_bind alike keyword fun n => ?_
    refine (steady_expect_bind alike (by simp) (by simp) fun n => ?_).toAbreast
    exact (clause_steady alike hinner (some operator)).toAbreast

lemma joinedClause_steady (alike : c.Alike d a) (hinner : Settles c d a inner) :
    Steady c d a Prod.snd o (OnDemand.joinedClause inner o) := by
  unfold OnDemand.joinedClause Reader.joinedClause
  exact steady_expect_bind alike (by simp) (by simp) fun n =>
    (afterBlank_steady alike hinner).toAbreast

/-! ## Sequences -/

lemma kindSeen_of_shuts {e : Setting} (h : e.Shuts o) (s : State) :
    OnDemand.kindSeen e s o = .closeParen ∨ OnDemand.kindSeen e s o = .endOfInput := by
  unfold OnDemand.kindSeen
  cases s.reached with
  | some cause => exact Or.inr rfl
  | none => exact h

/-- The state in which a clause is turned away. -/
def State.turnedAway (s : State) (e : Setting) (o : Nat) : State :=
  (((s.look e o).look e o).look e o).recordAt o (Production.valueStart none none)

/-- Where a sequence is closed, a clause is turned away at once. -/
lemma clause_of_shuts {e : Setting} (h : e.Shuts o) (operator : Option Operator) (s : State) :
    OnDemand.clause inner operator o e s = .refused (s.turnedAway e o) := by
  have marker (s : State) : OnDemand.marker o e s = .took (none, o) (s.look e o) := by
    unfold OnDemand.marker Cursor.marker
    rw [Production.bind_of_took (lookAt_apply e s o)]
    rcases kindSeen_of_shuts h (s.spendAt o) with hk | hk
    · rw [hk]
      rfl
    · rw [hk]
      rfl
  have field (s : State) : OnDemand.field o e s = .took (none, o) (s.look e o) := by
    rw [field_apply, if_neg]
    rcases kindSeen_of_shuts h (s.spendAt o) with hk | hk <;> simp [hk]
  have value (s : State) : OnDemand.value inner none none o e s =
      .refused ((s.look e o).recordAt o (Production.valueStart none none)) := by
    unfold OnDemand.value Reader.value
    rw [Production.bind_of_took (lookAt_apply e s o)]
    rcases kindSeen_of_shuts h (s.spendAt o) with hk | hk
    · rw [hk]
      rfl
    · rw [hk]
      rfl
  unfold OnDemand.clause Reader.clause
  refine (Production.bind_of_took (marker s)).trans ((Production.bind_of_took (field _)).trans ?_)
  exact Production.bind_of_refused (value _)

lemma afterBlank_of_shuts {e : Setting} (h : e.Shuts o) (s : State) :
    OnDemand.afterBlank inner o e s =
      .refused (((s.look e o).recordAt o .keywords).turnedAway e o) := by
  unfold OnDemand.afterBlank Reader.afterBlank
  rw [Production.bind_of_took (lookAt_apply e s o)]
  have none : Production.operatorOf? (OnDemand.kindSeen e (s.spendAt o) o) = none := by
    rcases kindSeen_of_shuts h (s.spendAt o) with hk | hk <;> rw [hk] <;> rfl
  rw [none]
  exact clause_of_shuts h Option.none _

/-- The state in which a further clause is turned away, a blank being seen before it or not. -/
def State.turnedBack (s : State) (e : Setting) (o : Nat) (blank : Bool) : State :=
  if blank then ((((s.look e o).look e (e.after o)).recordAt (e.after o) .keywords).turnedAway e
    (e.after o)) else (s.look e o).recordAt o (.only .blank)

lemma joinedClause_of_shuts {e : Setting} (h : e.Shuts (e.after o)) (s : State) :
    OnDemand.joinedClause inner o e s =
      .refused (s.turnedBack e o (OnDemand.kindSeen e (s.spendAt o) o = .blank)) := by
  unfold OnDemand.joinedClause Reader.joinedClause Cursor.expect State.turnedBack
  rw [bind_assoc, Production.bind_of_took (lookAt_apply e s o)]
  by_cases hk : OnDemand.kindSeen e (s.spendAt o) o = .blank
  · have stands := kindAt_of_kindSeen_ne hk (by simp)
    have hafter : e.after o = e.next o := if_pos stands
    rw [if_pos hk, decide_eq_true hk, if_pos rfl]
    rw [hafter] at h ⊢
    exact afterBlank_of_shuts h (s.look e o)
  · rw [if_neg hk, decide_eq_false hk, if_neg (by simp)]
    rfl

lemma State.Behind.turnedAway {s : State} {e : Setting} (h : s.Behind o) :
    (s.turnedAway e o).Behind o := h.look.look.look.recordAt

lemma State.Matches.turnedAway {s t : State} (h : s.Matches t) :
    (s.turnedAway c o).Matches (t.turnedAway d o) :=
  (((h.look o).look o).look o).recordAt o _

lemma State.Behind.turnedBack {s : State} {e : Setting} {blank : Bool} (h : s.Behind o) :
    (s.turnedBack e o blank).Behind (e.after o) := by
  unfold State.turnedBack
  split_ifs
  · exact State.Behind.turnedAway (State.Behind.recordAt (h.look.look.mono (e.le_after o)))
  · exact State.Behind.mono (State.Behind.recordAt h.look) (e.le_after o)

lemma State.Matches.turnedBack {s t : State} {blank : Bool} (h : s.Matches t)
    (hafter : d.after o = c.after o) :
    (s.turnedBack c o blank).Matches (t.turnedBack d o blank) := by
  unfold State.turnedBack
  rw [hafter]
  split_ifs
  · exact State.Matches.turnedAway (((h.look o).look _).recordAt _ _)
  · exact (h.look o).recordAt _ _

/-- A clause that is refused after another one was looked for behind the blanks. -/
lemma ahead_of_joinedClause (alike : c.Alike d a) (hinner : Settles c d a inner) {s s' : State}
    (h : OnDemand.joinedClause inner o c s = .refused s') : s'.Ahead (c.after o) := by
  have carries := (afterBlank_steady (o := c.next o) alike hinner).carries (s.look c o)
  unfold OnDemand.joinedClause Reader.joinedClause Cursor.expect at h
  rw [bind_assoc, Production.bind_of_took (lookAt_apply c s o)] at h
  by_cases hk : OnDemand.kindSeen c (s.spendAt o) o = .blank
  · have stands := kindAt_of_kindSeen_ne hk (by simp)
    have hafter : c.after o = c.next o := if_pos stands
    rw [if_pos hk] at h
    have h : OnDemand.afterBlank inner (c.next o) c (s.look c o) = .refused s' := h
    rw [h] at carries
    rw [hafter]
    exact carries.1
  · rw [if_neg hk] at h
    obtain rfl : (s.look c o).recordAt o (.only .blank) = s' := Reply.refused.inj h
    by_cases hr : (s.look c o).reached = none
    · rw [kindSeen_of_reached hr] at hk
      have hafter : c.after o = o := if_neg hk
      rw [hafter]
      exact State.ahead_recordAt
    · exact Or.inl (Option.isSome_iff_ne_none.2 hr)

/-- What a refused clause leaves, when the first run has missed `a`. -/
lemma adrift_of_refused (alike : c.Alike d a) (hinner : Settles c d a inner) {s s' : State}
    {α : Type} {v : Taken α} (h : OnDemand.joinedClause inner v.2 c s = .refused s')
    (misses : s'.Misses a) (open_ : a < c.after v.2 ∨ ¬c.Shuts (c.after v.2)) :
    Adrift c a v s' := by
  have ahead := ahead_of_joinedClause alike hinner h
  refine ⟨ahead, misses, ?_⟩
  rcases open_ with past | open_
  · exact Or.inl (ahead.mono past)
  · exact Or.inr open_

/-- Where the sequence is closed, both runs turn the further clause away at the same place. -/
lemma moreClauses_shut (alike : c.Alike d a) {steps : Nat} {found : List Clause} {s t : State}
    (matched : s.Matches t) (behind : s.Behind o) (within : c.after o ≤ a)
    (shuts : c.Shuts (c.after o)) :
    Reply.Ends c d a (Production.moreClauses (OnDemand.joinedClause inner) (steps + 1) found o c s)
      (Production.moreClauses (OnDemand.joinedClause inner) (steps + 1) found o d t) := by
  have ho : o ≤ a := le_trans (c.le_after o) within
  have hafter := alike.after within
  have shuts' : d.Shuts (d.after o) := by
    rw [hafter]
    exact (alike.shuts within).2 shuts
  have blank : decide (OnDemand.kindSeen d (t.spendAt o) o = .blank) =
      decide (OnDemand.kindSeen c (s.spendAt o) o = .blank) := by
    have spent := (matched.spendAt o).reached
    unfold OnDemand.kindSeen
    rw [spent]
    cases (t.spendAt o).reached with
    | some cause => rfl
    | none => exact decide_eq_decide.2 (alike.sign o ho .blank (by simp))
  rw [Production.moreClauses, Production.moreClauses, joinedClause_of_shuts shuts,
    joinedClause_of_shuts shuts', blank]
  exact .took (matched.turnedBack hafter) ⟨within, Or.inl behind.turnedBack⟩

/-- Where it is not closed, a further clause is read abreast, and then the rest of the sequence. -/
lemma moreClauses_open (alike : c.Alike d a) (hinner : Settles c d a inner) {steps : Nat}
    {found : List Clause} (rest : ∀ found, Settles c d a
      (Production.moreClauses (OnDemand.joinedClause inner) steps found)) {s t : State} (ho : o ≤ a)
    (matched : s.Matches t) (behind : s.Behind o)
    (shut : ¬(c.after o ≤ a ∧ c.Shuts (c.after o))) :
    Reply.Ends c d a (Production.moreClauses (OnDemand.joinedClause inner) (steps + 1) found o c s)
      (Production.moreClauses (OnDemand.joinedClause inner) (steps + 1) found o d t) := by
  have open_ : a < c.after o ∨ ¬c.Shuts (c.after o) := by
    by_cases within : c.after o ≤ a
    · exact Or.inr fun shuts => shut ⟨within, shuts⟩
    · exact Or.inl (not_le.1 within)
  have together := (joinedClause_steady alike hinner).both ho s t matched behind
  rw [Production.moreClauses, Production.moreClauses]
  generalize hx : OnDemand.joinedClause inner o c s = x at together
  generalize hy : OnDemand.joinedClause inner o d t = y at together
  cases together with
  | took same kept => exact (rest _).both _ kept.1 _ _ same kept.2
  | @refused s' t' same =>
    have ahead := ahead_of_joinedClause alike hinner hx
    by_cases within : c.after o ≤ a
    · exact .took same ⟨within, Or.inr ⟨ahead, fun shuts => shut ⟨within, shuts⟩⟩⟩
    · have far := ahead.mono (not_le.1 within)
      exact .strayed ⟨ahead, far.misses, Or.inl far⟩
  | strayed lost =>
    refine .strayed ?_
    cases x with
    | took v s' => exact (rest (v.1 :: found)).lost lost
    | refused s' => exact adrift_of_refused (v := (found.reverse, o)) alike hinner hx lost open_
    | fault cause => trivial
  | cut beyond reached opens full =>
    refine .cut ?_ rfl reached opens full
    cases x with
    | took v s' => exact ((rest (v.1 :: found)).carries v.2 s').beyond beyond
    | refused s' => exact Or.inr beyond
    | fault cause => trivial

lemma moreClauses_settles (alike : c.Alike d a) (hinner : Settles c d a inner) (steps : Nat)
    (found : List Clause) : Settles c d a
      (Production.moreClauses (OnDemand.joinedClause inner) steps found) := by
  induction steps generalizing found with
  | zero =>
    exact ⟨fun _ _ => trivial, nofun, fun _ _ _ _ => trivial,
      fun _ _ _ _ _ _ => .strayed trivial⟩
  | succ steps ih =>
    have joined (o : Nat) := joinedClause_steady (o := o) alike hinner
    refine ⟨?_, ?_, ?_, ?_⟩
    · intro o s
      have carries := (joined o).carries s
      rw [Production.moreClauses]
      generalize OnDemand.joinedClause inner o c s = x at carries
      cases x with
      | took v s' => exact ((ih (v.1 :: found)).carries v.2 s').after carries.1 carries.2
      | refused s' => exact ⟨le_rfl, carries.2⟩
      | fault cause => trivial
    · intro o s v s' h
      rw [Production.moreClauses] at h
      cases hx : OnDemand.joinedClause inner o c s with
      | took w s₁ =>
        rw [hx] at h
        exact (ih (w.1 :: found)).ahead w.2 s₁ v s' h
      | refused s₁ =>
        rw [hx] at h
        obtain ⟨rfl, rfl⟩ := Reply.took.inj h
        exact ahead_of_joinedClause alike hinner hx
      | fault cause =>
        rw [hx] at h
        cases h
    · intro o straddles s behind
      have lost := (joined o).stalls straddles s behind
      rw [Production.moreClauses]
      cases hx : OnDemand.joinedClause inner o c s with
      | took v s' =>
        rw [hx] at lost
        exact (ih (v.1 :: found)).lost lost
      | refused s' =>
        rw [hx] at lost
        exact adrift_of_refused (v := (found.reverse, o)) alike hinner hx lost straddles.after
      | fault cause => trivial
    · intro o ho s t matched behind
      by_cases shut : c.after o ≤ a ∧ c.Shuts (c.after o)
      · exact moreClauses_shut alike matched behind shut.1 shut.2
      · exact moreClauses_open alike hinner ih ho matched behind shut

end inner

lemma sequence_settles (alike : c.Alike d a) (steps : Nat) :
    Settles c d a (OnDemand.sequence steps) := by
  induction steps with
  | zero =>
    exact ⟨fun _ _ => trivial, nofun, fun _ _ _ _ => trivial,
      fun _ _ _ _ _ _ => .strayed trivial⟩
  | succ steps ih =>
    exact Settles.bind (fun o => clause_steady alike ih none) fun first =>
      (moreClauses_settles alike ih steps []).map (Query.collapse first.1)

/-! ## Queries -/

/-- Ends a query, of which the sequence is already read. -/
def OnDemand.ending (v : Taken Query) : Production (Taken Query) :=
  shut .endOfInput (fun o => pure (v.1, o)) v.2

lemma query_eq (steps start : Nat) : OnDemand.query steps start = (do
    let v ← OnDemand.sequence steps (← OnDemand.skipBlank start)
    let v ← OnDemand.ending v
    pure v.1) := by
  unfold OnDemand.query OnDemand.ending OnDemand.shut OnDemand.latch Reader.query
  simp only [bind_assoc]
  congr
  funext o
  congr
  funext v
  congr
  funext o
  congr
  funext seen
  split_ifs <;> rfl

lemma ending_of_reached {e : Setting} {t : State} {cause : LimitReached} {v : Taken Query}
    (h : t.reached = some cause) :
    OnDemand.ending v e t = .took v ((t.look e v.2).look e v.2) := by
  unfold OnDemand.ending
  rw [shut_of_reached h, if_pos rfl]
  rfl

/-- A run that was cut short before the end of a query stays so. -/
lemma reached_of_ending {e : Setting} {p : Production (Taken Query)} {t t₁ t' : State}
    {cause : LimitReached} (left : (p e t).state? = some t₁) (reached : t₁.reached = some cause)
    (h : ((p >>= OnDemand.ending) e t).state? = some t') : t'.reached = some cause := by
  rw [Production.bind_apply] at h
  cases hp : p e t with
  | took v t₂ =>
    rw [hp] at h left
    obtain rfl := Option.some.inj left
    dsimp only at h
    rw [ending_of_reached reached] at h
    obtain rfl := Option.some.inj h
    exact reached_look (e := e) (reached_look reached)
  | refused t₂ =>
    rw [hp] at h left
    obtain rfl := Option.some.inj left
    obtain rfl := Option.some.inj h
    exact reached
  | fault cause =>
    rw [hp] at left
    cases left

/-- A dead end at a place and one behind another place put the places in order. -/
lemma State.Ahead.lt_of_not_misses {s : State} {k : Nat} (h : s.Ahead (k + 1))
    (hits : ¬s.Misses a) : k < a := by
  by_contra hk
  exact hits (h.mono (by omega : a + 1 ≤ k + 1)).misses

/-- What is known of the second run when the first one refuses with its furthest dead end at `a`:
it refuses in a matching state, or it was not let into a group before `a`. -/
def Reply.Follows {α : Type} (c d : Setting) (a : Nat) (s : State) (y : Reply α) : Prop :=
  (∃ t, y = .refused t ∧ s.Matches t) ∨
    ∃ k e limit, k < a ∧ c.fullAt e = none ∧ d.fullAt e = some limit ∧
      ∀ t, y.state? = some t → t.reached = some (.nesting k limit)

lemma Reply.Abreast.follows {α : Type} {place : α → Nat} {s : State} {y : Reply α}
    (h : Reply.Abreast c d a place (.refused s) y) (hits : ¬s.Misses a) : y.Follows c d a s := by
  cases h with
  | refused same => exact Or.inl ⟨_, rfl, same⟩
  | strayed lost => exact absurd lost hits
  | @cut _ t k e limit beyond reached opens full =>
    refine Or.inr ⟨k, e, limit, beyond.lt_of_not_misses hits, opens, full, ?_⟩
    intro t' ht'
    obtain rfl := Option.some.inj ht'
    exact reached

/-- The second run follows through the end of a query. -/
lemma Settles.ended (alike : c.Alike d a) {p : Nat → Production (Taken Query)}
    (hp : Settles c d a p) (ho : o ≤ a) {s t s' : State} (matched : s.Matches t)
    (behind : s.Behind o) (h : (p o >>= OnDemand.ending) c s = .refused s') (hits : ¬s'.Misses a) :
    ((p o >>= OnDemand.ending) d t).Follows c d a s' := by
  have hg (v : Taken Query) (o : Nat) (_ : Kind.endOfInput ≠ .endOfInput →
      c.kindAt o = .endOfInput) : Steady c d a Prod.snd o (pure (v.1, o)) := steady_pure rfl
  have ending (v : Taken Query) : Steady c d a Prod.snd v.2 (OnDemand.ending v) :=
    (steady_skipBlank alike).bind fun o => latch_steady alike (hg v o)
  have ends := hp.both o ho s t matched behind
  generalize hx : p o c s = x at ends
  generalize hy : p o d t = y at ends
  cases ends with
  | @took v s₁ t₁ same ended =>
    have abreast : Reply.Abreast c d a Prod.snd (OnDemand.ending v c s₁) (OnDemand.ending v d t₁) :=
      shut_both (Or.inr rfl) (hg v) alike same ended
    rw [Production.bind_of_took hx] at h
    rw [Production.bind_of_took hy]
    rw [h] at abreast
    exact abreast.follows hits
  | refused same =>
    rw [Production.bind_apply, hx] at h
    obtain rfl := Reply.refused.inj h
    rw [Production.bind_apply, hy]
    exact Or.inl ⟨_, rfl, same⟩
  | strayed lost =>
    have lost := (hx ▸ lost : (p o c s).Strays a (Adrift c a)).bind fun v s adrift =>
      shut_strays (Or.inr rfl) (hg v) alike adrift
    have lost : ((p o >>= OnDemand.ending) c s).Strays a (Lost c a Prod.snd) := lost
    rw [h] at lost
    exact absurd lost hits
  | @cut _ _ t₁ k e limit beyond left reached opens full =>
    have beyond := (hx ▸ beyond : (p o c s).Beyond _ _).bind fun v => (ending v).carries
    rw [h] at beyond
    exact Or.inr ⟨k, e, limit, beyond.lt_of_not_misses hits, opens, full, fun t' =>
      reached_of_ending (hy ▸ left) reached⟩

/-- **Two texts that are alike up to a dead end are rejected there abreast.**  Where the first run
refuses with its furthest dead end at `a`, the second one refuses in a matching state, or it was not
let into a group before `a`. -/
theorem query_abreast (alike : c.Alike d a) {steps start : Nat} (hstart : start ≤ a)
    {s t s' : State} (matched : s.Matches t) (behind : s.Behind start)
    (h : OnDemand.query steps start c s = .refused s') (hits : ¬s'.Misses a) :
    (OnDemand.query steps start d t).Follows c d a s' := by
  have reads : Settles c d a fun o => OnDemand.skipBlank o >>= fun o => OnDemand.sequence steps o :=
    Settles.bind (fun o => steady_skipBlank alike) fun _ => sequence_settles alike steps
  have whole : OnDemand.query steps start =
      (((OnDemand.skipBlank start >>= fun o => OnDemand.sequence steps o) >>= OnDemand.ending) >>=
        fun v => pure v.1) := by
    rw [query_eq]
    simp only [bind_assoc]
  rw [whole, Production.bind_apply] at h ⊢
  have follows := @Settles.ended c d a start alike _ reads hstart s t s' matched behind
  generalize ((OnDemand.skipBlank start >>= fun o => OnDemand.sequence steps o) >>=
    OnDemand.ending) c s = x at h follows
  generalize ((OnDemand.skipBlank start >>= fun o => OnDemand.sequence steps o) >>=
    OnDemand.ending) d t = y at follows ⊢
  -- the last step takes whatever it is given
  cases x with
  | took v s₁ => cases h
  | fault cause => cases h
  | refused s₁ =>
    obtain rfl := Reply.refused.inj h
    rcases follows rfl hits with ⟨t', rfl, same⟩ | ⟨k, e, limit, hk, opens, full, reached⟩
    · exact Or.inl ⟨t', rfl, same⟩
    · refine Or.inr ⟨k, e, limit, hk, opens, full, ?_⟩
      intro t' ht'
      cases y with
      | took v t₁ => exact reached t' ht'
      | refused t₁ => exact reached t' ht'
      | fault cause => cases ht'

end SearchQuery
