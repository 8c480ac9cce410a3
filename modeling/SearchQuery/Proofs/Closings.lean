import SearchQuery.Proofs.Abreast

/-!
# Closing a sequence up to a dead end

A sequence goes on until a further clause is refused, which may be far behind the place where the
sequence ends.  From then on only what closes it can be taken, and if that does not stand there,
nothing will be recorded any more that is further on.  So after a sequence it matters whether a
group is closed or the text is at its end behind the blanks, which is `Setting.Shuts`.  If so, the
refused clause was turned away at the very place, and reading goes on with no dead end after it.  If
not, reading is over, and whether the first run ends at `a` is decided.  The values that sequences
take are sorted by this into `Ended` and `Adrift`, instead of `Kept` and `Lost`.

A production that takes such values is one that `Settles`, and `OnDemand.shut` takes what closes the
sequence.  After a value that has ended the runs close it abreast (`shut_both`), and after one that
is adrift the first run misses `a` (`shut_strays`).
-/

namespace SearchQuery

open Production (Taken)

variable {c d : Setting} {a o : Nat}

/-! ## What stands after a sequence -/

namespace Setting

/-- The place after a blank, if one stands at a place. -/
def after (c : Setting) (o : Nat) : Nat := if c.kindAt o = .blank then c.next o else o

/-- A group is closed at a place, or the text is at its end. -/
def Shuts (c : Setting) (o : Nat) : Prop := c.kindAt o = .closeParen ∨ c.kindAt o = .endOfInput

lemma le_after (c : Setting) (o : Nat) : o ≤ c.after o := by
  unfold after
  split_ifs
  · exact c.le_next o
  · exact le_rfl

/-- What closes a sequence does not lie across a place. -/
lemma Straddles.not_shuts (h : c.Straddles a o) : ¬c.Shuts o := by
  obtain ⟨before, past⟩ := h
  rintro (hk | hk)
  · obtain ⟨form, -, hn⟩ := reads_of_kindAt hk (by simp)
    rw [show c.textAt o = [')'] from form] at hn
    have one : Text.byteSize [')'] = 1 := by decide
    omega
  · obtain ⟨-, -, hn⟩ := kindAt_of_rest_eq_nil (rest_eq_nil_of_kindAt hk)
    omega

/-- Blanks that do not end by `a` lead beyond it, and no other token counts as blanks. -/
lemma Straddles.after (h : c.Straddles a o) : a < c.after o ∨ ¬c.Shuts (c.after o) := by
  unfold Setting.after
  split_ifs with hk
  · exact Or.inl h.2
  · exact Or.inr h.not_shuts

/-- Up to `a` the blanks end at the same place. -/
lemma Alike.after (alike : c.Alike d a) (ho : c.after o ≤ a) : d.after o = c.after o := by
  have hoa : o ≤ a := le_trans (c.le_after o) ho
  have blank := alike.sign o hoa .blank (by simp)
  by_cases hk : c.kindAt o = .blank
  · have hnext : c.after o = c.next o := if_pos hk
    have within : ¬c.Straddles a o := fun straddles => by
      have := straddles.2
      omega
    rw [hnext, Setting.after, if_pos (blank.2 hk), (alike.token o hoa within (by simp [hk])).2]
  · rw [Setting.after, Setting.after, if_neg hk, if_neg fun h => hk (blank.1 h)]

lemma Alike.shuts (alike : c.Alike d a) (ho : o ≤ a) : d.Shuts o ↔ c.Shuts o := by
  unfold Shuts
  rw [alike.sign o ho .closeParen (by simp), alike.sign o ho .endOfInput (by simp)]

end Setting

section ends

variable (c d : Setting) (a : Nat) {α : Type}

/-- A value after which reading goes on abreast: with no dead end after the blanks, or with nothing
there that could close the sequence. -/
def Ended (v : Taken α) (s : State) : Prop :=
  c.after v.2 ≤ a ∧ (s.Behind (c.after v.2) ∨ s.Ahead (c.after v.2) ∧ ¬c.Shuts (c.after v.2))

/-- A value after which the first run misses `a`. -/
def Adrift (v : Taken α) (s : State) : Prop :=
  s.Ahead (c.after v.2) ∧ s.Misses a ∧ (s.Ahead (a + 1) ∨ ¬c.Shuts (c.after v.2))

/-- The ways in which two runs of a sequence may end.  The second one may have been cut short in its
last clause, and then it takes the clauses before that. -/
inductive Reply.Ends : Reply (Taken α) → Reply (Taken α) → Prop
  | took {v : Taken α} {s t : State} (same : s.Matches t) (ended : Ended c a v s) :
      Ends (.took v s) (.took v t)
  | refused {s t : State} (same : s.Matches t) : Ends (.refused s) (.refused t)
  | strayed {x y : Reply (Taken α)} (lost : x.Strays a (Adrift c a)) : Ends x y
  | cut {x y : Reply (Taken α)} {t : State} {k e limit : Nat} (beyond : x.Beyond Prod.snd (k + 1))
      (left : y.state? = some t) (reached : t.reached = some (.nesting k limit))
      (opens : c.fullAt e = none) (full : d.fullAt e = some limit) : Ends x y

/-- What is asked of a production for sequences: it may be begun anywhere. -/
structure Settles (p : Nat → Production (Taken α)) : Prop where
  carries : ∀ o s, (p o c s).Carries Prod.snd o s
  ahead : ∀ o s v s', p o c s = .took v s' → s'.Ahead (c.after v.2)
  stalls : ∀ o, c.Straddles a o → ∀ s, s.Behind o → (p o c s).Strays a (Adrift c a)
  both : ∀ o ≤ a, ∀ s t, s.Matches t → s.Behind o → Reply.Ends c d a (p o c s) (p o d t)

end ends

section settles

variable {α β : Type} {s : State}

/-- A run that gets beyond `a`, and then finds no further clause, is adrift. -/
lemma Reply.Carries.adrift {x : Reply (Taken α)} (h : x.Carries Prod.snd o s)
    (ahead : ∀ v s', x = .took v s' → s'.Ahead (c.after v.2)) (hk : a < o ∨ s.Ahead (a + 1)) :
    x.Strays a (Adrift c a) := by
  have beyond := h.beyond (k := a + 1) hk
  cases x with
  | fault cause => trivial
  | refused s' => exact State.Ahead.misses beyond
  | took v s' =>
    have rests := ahead v s' rfl
    have far : s'.Ahead (a + 1) := by
      rcases beyond with past | far
      · exact rests.mono (le_trans past (c.le_after v.2))
      · exact far
    exact ⟨rests, far.misses, Or.inl far⟩

variable {γ : Type} {place : γ → Nat} {p : Nat → Production (Taken α)} {q : Nat → Production γ}
  {f : γ → Nat → Production (Taken β)}

lemma Settles.lost (h : Settles c d a p) {v : γ} (lost : Lost c a place v s) :
    (p (place v) c s).Strays a (Adrift c a) := by
  rcases lost with ahead | past | ⟨straddles, behind⟩
  · exact (h.carries (place v) s).adrift (h.ahead (place v) s) (Or.inr ahead)
  · exact (h.carries (place v) s).adrift (h.ahead (place v) s) (Or.inl past)
  · exact h.stalls (place v) straddles s behind

/-- A production that settles may come after one that goes abreast. -/
lemma Settles.bind (hq : ∀ o, Steady c d a place o (q o)) (hf : ∀ v, Settles c d a (f v)) :
    Settles c d a fun o => q o >>= fun v => f v (place v) := by
  refine ⟨?_, ?_, ?_, ?_⟩
  · intro o s
    exact ((hq o).carries s).bind fun v => (hf v).carries (place v)
  · intro o s w s' h
    rw [Production.bind_apply] at h
    cases hx : q o c s with
    | took v s₁ =>
      rw [hx] at h
      exact (hf v).ahead (place v) s₁ w s' h
    | refused s₁ =>
      rw [hx] at h
      cases h
    | fault cause =>
      rw [hx] at h
      cases h
  · intro o straddles s behind
    exact ((hq o).stalls straddles s behind).bind fun v s => (hf v).lost
  · intro o ho s t matched behind
    have together := (hq o).both ho s t matched behind
    generalize hx : q o c s = x at together
    generalize hy : q o d t = y at together
    cases together with
    | took same kept =>
      rw [Production.bind_of_took hx, Production.bind_of_took hy]
      exact (hf _).both _ kept.1 _ _ same kept.2
    | refused same =>
      rw [Production.bind_apply, Production.bind_apply, hx, hy]
      exact .refused same
    | strayed lost => exact .strayed ((hx ▸ lost).bind fun v s => (hf v).lost)
    | cut beyond reached opens full =>
      rw [Production.bind_apply (q o) _ d t, hy]
      exact .cut ((hx ▸ beyond).bind fun v => (hf v).carries (place v)) rfl reached opens full

/-- Only the value is changed. -/
lemma Settles.map (hp : Settles c d a p) (g : α → β) :
    Settles c d a fun o => p o >>= fun v => pure (g v.1, v.2) := by
  refine ⟨?_, ?_, ?_, ?_⟩
  · intro o s
    exact (hp.carries o s).bind fun v s => ⟨le_rfl, .refl s⟩
  · intro o s w s' h
    rw [Production.bind_apply] at h
    cases hx : p o c s with
    | took v s₁ =>
      rw [hx] at h
      obtain ⟨rfl, rfl⟩ := Reply.took.inj h
      exact hp.ahead o s v s₁ hx
    | refused s₁ =>
      rw [hx] at h
      cases h
    | fault cause =>
      rw [hx] at h
      cases h
  · intro o straddles s behind
    exact (hp.stalls o straddles s behind).bind fun v s adrift => adrift
  · intro o ho s t matched behind
    have ends := hp.both o ho s t matched behind
    generalize hx : p o c s = x at ends
    generalize hy : p o d t = y at ends
    cases ends with
    | took same ended =>
      rw [Production.bind_of_took hx, Production.bind_of_took hy]
      exact .took same ended
    | refused same =>
      rw [Production.bind_apply, Production.bind_apply, hx, hy]
      exact .refused same
    | strayed lost => exact .strayed ((hx ▸ lost).bind fun v s adrift => adrift)
    | @cut _ _ _ k _ _ beyond left reached opens full =>
      have further : ((p o >>= fun v => pure (g v.1, v.2)) c s).Beyond Prod.snd (k + 1) :=
        (hx ▸ beyond : (p o c s).Beyond _ _).bind fun v s => ⟨le_rfl, .refl s⟩
      refine .cut further ?_ reached opens full
      rw [Production.bind_apply, hy]
      cases y with
      | took v t₁ => exact left
      | refused t₁ => exact left
      | fault cause => cases left

end settles

/-! ## Closing a sequence -/

section shut

variable {β : Type} {place : β → Nat} {kind : Kind} {g : Nat → Production β} {s t : State}

/-- Takes what closes a sequence, and goes on. -/
def OnDemand.latch {β : Type} (kind : Kind) (g : Nat → Production β) (o : Nat) : Production β := do
  if (← lookAt o) = kind then g o else refuseAt o (.only kind)

/-- Takes what closes a sequence, perhaps after a blank, and goes on. -/
def OnDemand.shut {β : Type} (kind : Kind) (g : Nat → Production β) (o : Nat) : Production β := do
  latch kind g (← skipBlank o)

lemma latch_next (f : Nat → Production β) :
    OnDemand.latch kind (fun o => OnDemand.next o >>= f) o = OnDemand.expect o kind >>= f := by
  unfold OnDemand.latch OnDemand.expect Cursor.expect
  rw [bind_assoc]
  congr
  funext seen
  split_ifs <;> rfl

lemma latch_steady (alike : c.Alike d a)
    (hg : (kind ≠ .endOfInput → c.kindAt o = kind) → Steady c d a place o (g o)) :
    Steady c d a place o (OnDemand.latch kind g o) := by
  unfold OnDemand.latch
  refine steady_lookAt_bind alike fun seen hseen => ?_
  split_ifs with h
  · exact hg (by rwa [← h])
  · exact steady_refuseAt

/-- Once a limit was reached, what goes on is lost. -/
lemma Steady.strays_of_reached {p : Production β} (hp : Steady c d a place o p)
    (h : s.reached ≠ none) : (p c s).Strays a (Lost c a place) :=
  ((hp.carries s).beyond (Or.inr (Or.inl (Option.isSome_iff_ne_none.2 h)))).strays

lemma kindSeen_of_reached {e : Setting} (h : (s.look e o).reached = none) :
    OnDemand.kindSeen e (s.spendAt o) o = e.kindAt o := by
  have reached : (s.spendAt o).reached = none := h
  unfold OnDemand.kindSeen
  rw [reached]

lemma latch_of_ne {e : Setting} (h : (s.look e o).reached = none) (hk : e.kindAt o ≠ kind) :
    OnDemand.latch kind g o e s = .refused ((s.look e o).recordAt o (.only kind)) := by
  show (if OnDemand.kindSeen e (s.spendAt o) o = kind then g o
    else OnDemand.refuseAt o (.only kind)) e (s.look e o) = _
  rw [kindSeen_of_reached h, if_neg hk]
  rfl

lemma skipBlank_of_reached {e : Setting} (h : (s.look e o).reached = none) :
    OnDemand.skipBlank o e s = .took (e.after o) (s.look e o) := by
  rw [skipBlank_apply, kindSeen_of_reached h]
  rfl

/-- Once a limit was reached with the lookahead, it does not matter what is seen. -/
lemma latch_strays_of_reached
    (hg : (kind ≠ .endOfInput → c.kindAt o = kind) → Steady c d a place o (g o))
    (h : (s.look c o).reached ≠ none) :
    (OnDemand.latch kind g o c s).Strays a (Lost c a place) := by
  show ((if OnDemand.kindSeen c (s.spendAt o) o = kind then g o
    else OnDemand.refuseAt o (.only kind)) c (s.look c o)).Strays a (Lost c a place)
  split_ifs with hseen
  · exact (hg fun hk => kindAt_of_kindSeen_ne hseen hk).strays_of_reached h
  · exact Or.inl (Option.isSome_iff_ne_none.2 h)

/-- Where what closes the sequence does not stand, and reading has got to, nothing changes any
more. -/
lemma latch_strays (hg : (kind ≠ .endOfInput → c.kindAt o = kind) → Steady c d a place o (g o))
    (ahead : s.Ahead o) (misses : s.Misses a) (hk : c.kindAt o ≠ kind) :
    (OnDemand.latch kind g o c s).Strays a (Lost c a place) := by
  by_cases h : (s.look c o).reached = none
  · rw [latch_of_ne h hk]
    exact misses.look.recordAt (State.precedes_look _ ahead)
  · exact latch_strays_of_reached hg h

lemma reached_look {e : Setting} {cause : LimitReached} (h : t.reached = some cause) :
    (t.look e o).reached = some cause := (t.later_lookAt o _).reached cause h

lemma kindSeen_eq_endOfInput {e : Setting} {cause : LimitReached} (h : t.reached = some cause) :
    OnDemand.kindSeen e (t.spendAt o) o = .endOfInput := by
  unfold OnDemand.kindSeen
  rw [(t.later_spendAt o).reached cause h]

/-- A run that was cut short sees the end of the text, and so closes nothing else. -/
lemma shut_of_reached {e : Setting} {cause : LimitReached} (h : t.reached = some cause) :
    OnDemand.shut kind g o e t =
      (if Kind.endOfInput = kind then g o else OnDemand.refuseAt o (.only kind)) e
        ((t.look e o).look e o) := by
  unfold OnDemand.shut
  rw [Production.bind_of_took (skipBlank_apply e t o), kindSeen_eq_endOfInput h,
    if_neg (by simp)]
  show (if OnDemand.kindSeen e ((t.look e o).spendAt o) o = kind then g o
    else OnDemand.refuseAt o (.only kind)) e ((t.look e o).look e o) = _
  rw [kindSeen_eq_endOfInput (reached_look h)]

variable (hkind : kind = .closeParen ∨ kind = .endOfInput)
  (hg : ∀ o, (kind ≠ .endOfInput → c.kindAt o = kind) → Steady c d a place o (g o))

include hkind hg

/-- After a value that leaves the first run adrift, it misses `a`. -/
lemma shut_strays (alike : c.Alike d a) {α : Type} {v : Taken α} (h : Adrift c a v s) :
    (OnDemand.shut kind g v.2 c s).Strays a (Lost c a place) := by
  obtain ⟨ahead, misses, fate⟩ := h
  unfold OnDemand.shut
  by_cases hr : (s.look c v.2).reached = none
  · rw [Production.bind_of_took (skipBlank_of_reached hr)]
    rcases fate with far | shut
    · have far : (s.look c v.2).Ahead (a + 1) := State.precedes_look _ far
      exact (((latch_steady alike (hg _)).carries _).beyond (Or.inr far)).strays
    · refine latch_strays (hg _) (State.precedes_look _ ahead) misses.look ?_
      rintro rfl
      exact shut hkind
  · rw [Production.bind_of_took (skipBlank_apply c s v.2)]
    exact (latch_steady alike (hg _)).strays_of_reached hr

/-- After a value to go on from, the runs close the sequence abreast. -/
lemma shut_both (alike : c.Alike d a) {α : Type} {v : Taken α} (same : s.Matches t)
    (h : Ended c a v s) :
    Reply.Abreast c d a place (OnDemand.shut kind g v.2 c s) (OnDemand.shut kind g v.2 d t) := by
  obtain ⟨within, fate⟩ := h
  have looked := same.look (c := c) (d := d) v.2
  unfold OnDemand.shut
  by_cases hr : (s.look c v.2).reached = none
  · have hr' : (t.look d v.2).reached = none := by rw [← looked.reached, hr]
    rw [Production.bind_of_took (skipBlank_of_reached hr),
      Production.bind_of_took (skipBlank_of_reached hr'), alike.after within]
    rcases fate with behind | ⟨ahead, shut⟩
    · exact (latch_steady alike (hg _)).both within _ _ looked behind.look
    · by_cases hs : ((s.look c v.2).look c (c.after v.2)).reached = none
      · have ht : ((t.look d v.2).look d (c.after v.2)).reached = none := by
          rw [← (looked.look (c := c) (d := d) _).reached, hs]
        have other : c.kindAt (c.after v.2) ≠ kind := by
          rintro rfl
          exact shut hkind
        have other' : d.kindAt (c.after v.2) ≠ kind := by
          have sign := alike.sign _ within kind (by rcases hkind with rfl | rfl <;> simp)
          exact fun h => other (sign.1 h)
        rw [latch_of_ne hs other, latch_of_ne ht other']
        exact .refused ((looked.look _).recordAt _ _)
      · exact .strayed (latch_strays_of_reached (hg _) hs)
  · rw [Production.bind_of_took (skipBlank_apply c s v.2)]
    exact .strayed ((latch_steady alike (hg _)).strays_of_reached hr)

end shut

end SearchQuery
