import SearchQuery.Proofs.Lockstep

/-!
# Reading tokens is reading on demand

Every production over an array of tokens replies as the same production on demand does, from states
that agree to states that agree.  The productions are gone through in the order of the grammar.
Those below a sequence take what they need to know of the sequence in a group as a hypothesis, and
`sequence_both` ties the knot by induction on the steps.

The one production whose refusal is not the end of the matter is `joinedClause`.  It refuses at the
end of every sequence, so its refusal is told more exactly than that of the others, by `Tail`.
-/

namespace SearchQuery

open Production

/-- Both readers took the same, and both can go on after it. -/
def TookBoth (c : Setting) (s₀ : State) (base : Nat) {α : Type} (a : Taken α) (s : State)
    (b : Taken α) (t : State) : Prop :=
  a.1 = b.1 ∧ Ready c s₀ base a.2 s t a.2 b.2

/-- Both readers took the same and stand at the end of a sequence. -/
def EndedBoth (c : Setting) (s₀ : State) (base : Nat) {α : Type} (a : Taken α) (s : State)
    (b : Taken α) (t : State) : Prop :=
  a.1 = b.1 ∧ Tail c s₀ base s t a.2 b.2

variable {c : Setting} {s₀ s t : State} {base k pos o : Nat}

/-! ## Steps -/

lemma refuseAt_both {α : Type} {T : α → State → α → State → Prop} (h : Held c s₀ base s t)
    (hf : Faces c s.tokens pos o) (expected : KindSet) :
    Reply.Both T (Held c s₀ base) (refuseAt pos expected c s)
      (OnDemand.refuseAt o expected c t) :=
  show Held c s₀ base _ _ from ⟨h.agrees.record hf expected, h.keeps⟩

/-- A token that is expected is taken by both readers or refused by both, and either way the tokens
stay as they were. -/
lemma expect_cases (h : Ready c s₀ base k s t pos o) {kind : Kind} (hk : kind ≠ .endOfInput) :
    (∃ s' t', expect pos kind c s = .took (pos + 1) s' ∧
        OnDemand.expect o kind c t = .took (c.next o) t' ∧ c.kindAt o = kind ∧
        s'.tokens = s.tokens ∧ Ready c s₀ base k s' t' pos o) ∨
      ∃ s' t', expect pos kind c s = .refused s' ∧ OnDemand.expect o kind c t = .refused t' ∧
        s'.tokens = s.tokens ∧ Ready c s₀ base pos s' t' pos o := by
  obtain ⟨s', t', hs, ht, agrees, tokens, furthest, -⟩ := lookAt_both h.agrees h.faces
  have ready := h.of_same agrees tokens furthest
  unfold expect OnDemand.expect Cursor.expect
  rw [bind_of_took hs, bind_of_took ht]
  by_cases hseen : OnDemand.kindSeen c s' o = kind
  · rw [if_pos hseen, if_pos hseen]
    exact Or.inl ⟨s', t', rfl, rfl, (kindAt_of_kindSeen hseen hk).2, tokens, ready⟩
  · rw [if_neg hseen, if_neg hseen]
    exact Or.inr ⟨_, _, rfl, rfl, tokens, ready.record _⟩

lemma expect_both (h : Ready c s₀ base k s t pos o) {kind : Kind} (hk : kind ≠ .endOfInput) :
    Reply.Both (fun p s' q t' => Ready c s₀ base k s' t' p q ∧ pos < p) (Held c s₀ base)
      (expect pos kind c s) (OnDemand.expect o kind c t) := by
  rcases expect_cases h hk with ⟨s', t', hs, ht, hkind, -, ready⟩ | ⟨s', t', hs, ht, -, ready⟩
  · rw [hs, ht]
    exact ⟨ready.next (by rw [hkind]; exact hk), by omega⟩
  · rw [hs, ht]
    exact ready.held

lemma skipBlank_both (h : Ready c s₀ base k s t pos o) :
    Reply.Both (fun p s' q t' => Ready c s₀ base k s' t' p q ∧ pos ≤ p) (Held c s₀ base)
      (skipBlank pos c s) (OnDemand.skipBlank o c t) := by
  unfold skipBlank OnDemand.skipBlank Cursor.skipBlank
  refine h.lookAt_bind ?_
  intro s' t' kind ready hseen
  split_ifs with hblank
  · exact ⟨ready.advance (hseen.trans hblank) (by simp), by omega⟩
  · exact ⟨ready, le_rfl⟩

/-! ## The end of a sequence -/

/-- Whether what is seen at a place can close a group or the query. -/
def Closes (c : Setting) (s : State) (o : Nat) : Prop :=
  s.reached = none → c.kindAt o = .closeParen ∨ c.kindAt o = .endOfInput

lemma skipBlank_tail (h : Tail c s₀ base s t pos o) :
    Reply.Both (fun p s' q t' => Gate c s₀ base s' t' p q) (Held c s₀ base)
      (skipBlank pos c s) (OnDemand.skipBlank o c t) := by
  obtain ⟨s', t', hs, ht, agrees, tokens, furthest, -⟩ := lookAt_both h.held.agrees h.faces
  have held : Held c s₀ base s' t' := ⟨agrees, by rw [tokens]; exact h.held.keeps⟩
  have ahead := h.ahead
  unfold Settled at ahead
  rw [← tokens, ← furthest] at ahead
  unfold skipBlank OnDemand.skipBlank Cursor.skipBlank
  rw [bind_of_took hs, bind_of_took ht]
  by_cases hseen : OnDemand.kindSeen c s' o = .blank
  · rw [if_pos hseen, if_pos hseen]
    obtain ⟨-, hblank⟩ := kindAt_of_kindSeen hseen (by simp)
    rw [if_pos hblank] at ahead
    rcases ahead with ⟨aligned, settled⟩ | ⟨-, faces, hclose, hend⟩
    · have aligned' := aligned.next (by rw [hblank]; simp)
      exact ⟨held, by have := h.base_le; omega, aligned'.faces, fun _ _ => ⟨aligned', settled⟩⟩
    · refine ⟨held, by have := h.base_le; omega, faces, ?_⟩
      rintro - (hc | he)
      · exact absurd hc hclose
      · exact absurd he hend
  · rw [if_neg hseen, if_neg hseen]
    refine ⟨held, h.base_le, by rw [tokens]; exact h.faces, ?_⟩
    intro hreached _
    have hblank : c.kindAt o ≠ .blank := by
      intro hb
      exact hseen (by rw [OnDemand.kindSeen, hreached]; exact hb)
    rw [if_neg hblank] at ahead
    rcases ahead with ahead | ⟨hb, -⟩
    · exact ahead
    · exact absurd hb hblank

lemma expect_gate (h : Gate c s₀ base s t pos o) :
    Reply.Both (fun p s' q t' => Ready c s₀ base p s' t' p q) (Held c s₀ base)
      (expect pos .closeParen c s) (OnDemand.expect o .closeParen c t) := by
  obtain ⟨s', t', hs, ht, agrees, tokens, furthest, hreach⟩ := lookAt_both h.held.agrees h.faces
  have held : Held c s₀ base s' t' := ⟨agrees, by rw [tokens]; exact h.held.keeps⟩
  unfold expect OnDemand.expect Cursor.expect
  rw [bind_of_took hs, bind_of_took ht]
  by_cases hseen : OnDemand.kindSeen c s' o = .closeParen
  · rw [if_pos hseen, if_pos hseen]
    obtain ⟨hnone, hkind⟩ := kindAt_of_kindSeen hseen (by simp)
    obtain ⟨aligned, settled⟩ := h.ahead (hreach hnone) (Or.inl hkind)
    rw [← tokens] at aligned
    refine ⟨held, aligned.next (by rw [hkind]; simp), ?_, by have := h.base_le; omega, le_rfl⟩
    intro p x hp
    rw [furthest] at hp
    have := settled p x hp
    omega
  · rw [if_neg hseen, if_neg hseen]
    exact refuseAt_both held (by rw [tokens]; exact h.faces) _

/-! ## Values -/

lemma textAt_both (h : Faces c s.tokens pos o) {α β : Type} {f : List Char → Production α}
    {g : List Char → Production β} {T : α → State → β → State → Prop} {R : State → State → Prop}
    (hfg : Reply.Both T R (f (c.textAt o) c s) (g (c.textAt o) c t)) :
    Reply.Both T R ((textAt pos >>= f) c s) ((OnDemand.textAt o >>= g) c t) := by
  rw [bind_of_took h.textAt, bind_of_took (rfl : OnDemand.textAt o c t = .took (c.textAt o) t)]
  exact hfg

/-- Both readers go past a token without looking at it. -/
lemma next_both {α β : Type} {f : Nat → Production α} {g : Nat → Production β}
    {T : α → State → β → State → Prop} {R : State → State → Prop}
    (hfg : Reply.Both T R (f (pos + 1) c s) (g (c.next o) c t)) :
    Reply.Both T R ((Cursor.overTokens.next pos >>= f) c s) ((OnDemand.next o >>= g) c t) := hfg

lemma term_both (h : Ready c s₀ base k s t pos o) (hk : c.kindAt o ≠ .endOfInput) :
    Reply.Both (TookBoth c s₀ base) (Held c s₀ base) (term pos c s) (OnDemand.term o c t) := by
  unfold term OnDemand.term Cursor.term
  refine textAt_both h.faces ?_
  refine next_both ?_
  refine (h.next hk).lookAt_bind ?_
  intro s' t' kind ready hseen
  split_ifs with hfuzzy
  · refine textAt_both ready.faces ?_
    have past := ready.advance (hseen.trans hfuzzy) (by simp)
    exact ⟨rfl, past.mono past.le_pos le_rfl⟩
  · exact ⟨rfl, ready.record _⟩

lemma phrase_both (h : Ready c s₀ base k s t pos o) (hk : c.kindAt o ≠ .endOfInput) :
    Reply.Both (TookBoth c s₀ base) (Held c s₀ base) (phrase pos c s) (OnDemand.phrase o c t) := by
  unfold phrase OnDemand.phrase Cursor.phrase
  refine textAt_both h.faces ?_
  refine next_both ?_
  refine (h.next hk).lookAt_bind ?_
  intro s' t' kind ready hseen
  split_ifs with hfuzzy
  · refine textAt_both ready.faces ?_
    have past := ready.advance (hseen.trans hfuzzy) (by simp)
    split_ifs with hnumber
    · exact ⟨rfl, past.mono past.le_pos le_rfl⟩
    · exact ⟨rfl, ready.record _⟩
  · exact ⟨rfl, ready.record _⟩

/-- Wherever a token of the source was read past, the tokens of both readers can be cut anew. -/
lemma Ready.seek {text back : List Char} (h : Ready c s₀ base k s t pos o) (hk : k < pos)
    (hrest : c.rest o = text ++ back) (hne : text ≠ []) :
    ∃ i s', seek (o + Text.byteSize text) c s = .took i s' ∧
      Ready c s₀ base k s' t i (o + Text.byteSize text) ∧ k < i := by
  obtain ⟨i, s', hseek, hlt, aligned, tiled, keeps, hs'⟩ :=
    seek_aligned h.agrees.tiled h.aligned hrest hne
  -- only the tokens and the log can have changed, and the tokens only from the bound on
  have hsame : s'.furthest = s.furthest ∧ s'.depth = s.depth ∧ s'.lookaheads = s.lookaheads ∧
      s'.reached = s.reached ∧ s'.log.filter (!·.isRecut) = s.log.filter (!·.isRecut) := by
    rcases hs' with rfl | hs'
    · exact ⟨rfl, rfl, rfl, rfl, rfl⟩
    · rw [hs']
      exact ⟨rfl, rfl, rfl, rfl, by simp [Event.isRecut]⟩
  obtain ⟨hfurthest, hdepth, hlookaheads, hreached, hlog⟩ := hsame
  have agrees : Agrees c s' t := by
    refine ⟨?_, ?_, ?_, ?_, ?_, tiled⟩
    · rw [hdepth, h.agrees.depth]
    · rw [hlookaheads, h.agrees.lookaheads]
    · rw [hreached, h.agrees.reached]
    · rw [hlog, h.agrees.log]
    · rw [hfurthest]
      exact h.agrees.furthest.of_keeps h.settled fun j hj => keeps j (by omega)
  refine ⟨i, s', hseek, ⟨⟨agrees, ?_⟩, aligned, ?_, h.base_le, by omega⟩, by omega⟩
  · intro j hj
    have := h.base_le
    rw [keeps j (by omega), h.held.keeps j hj]
  · unfold Settled
    rw [hfurthest]
    exact h.settled

lemma bound_both (h : Ready c s₀ base k s t pos o) (hk : k < pos) :
    Reply.Both (fun a s' b t' => a.1 = b.1 ∧ Ready c s₀ base k s' t' a.2 b.2 ∧ k < a.2)
      (Held c s₀ base) (bound pos c s) (OnDemand.bound o c t) := by
  have hdrop := Setting.dropBytes?_eq_rest h.aligned.boundary
  cases hw : (c.rest o).takeWhile (!endsBound ·) with
  | nil =>
    rw [OnDemand.bound_of_nil hw, bound_of_nil h.faces.offsetAt hdrop hw]
    exact refuseAt_both h.held h.faces _
  | cons p text =>
    have hrest : c.rest o = (p :: text) ++ (c.rest o).dropWhile (!endsBound ·) := by
      rw [← hw, List.takeWhile_append_dropWhile]
    obtain ⟨i, s', hseek, ready, hi⟩ := h.seek hk hrest (by simp)
    rw [OnDemand.bound_of_cons hw, bound_of_cons h.faces.offsetAt hdrop hw, bind_of_took hseek]
    exact ⟨rfl, ready, hi⟩

lemma rangeTo_both (h : Ready c s₀ base k s t pos o) :
    Reply.Both (fun p s' q t' => Ready c s₀ base k s' t' p q ∧ pos < p) (Held c s₀ base)
      (rangeTo pos c s) (OnDemand.rangeTo o c t) := by
  unfold rangeTo OnDemand.rangeTo Cursor.rangeTo
  refine h.lookAt_bind ?_
  intro s' t' kind ready hseen
  split_ifs with hword
  · refine textAt_both ready.faces ?_
    split_ifs with hto
    · exact ⟨ready.advance (hseen.trans hword) (by simp), by omega⟩
    · exact refuseAt_both ready.held ready.faces _
  · exact refuseAt_both ready.held ready.faces _

/-- A range, after its opening bracket.  No dead end lies past the bracket until the range is read
or refused, so the cuts leave all of them in place. -/
lemma rangeAfter_both (h : Ready c s₀ base k s t pos o) (hk : k < pos) (inclusive : Bool)
    {closing : Kind} (hc : closing ≠ .endOfInput) :
    Reply.Both (TookBoth c s₀ base) (Held c s₀ base) (rangeAfter pos inclusive closing c s)
      (OnDemand.rangeAfter o inclusive closing c t) := by
  unfold rangeAfter OnDemand.rangeAfter Reader.rangeAfter
  refine Reply.Both.bind (skipBlank_both h) ?_
  rintro p s₁ q t₁ ⟨h₁, hp⟩
  refine Reply.Both.bind (bound_both h₁ (by omega)) ?_
  rintro ⟨low, p⟩ s₂ ⟨low', q⟩ t₂ ⟨rfl, h₂, hp₂⟩
  refine Reply.Both.bind (expect_both h₂ (by simp)) ?_
  rintro p s₃ q t₃ ⟨h₃, hp₃⟩
  refine Reply.Both.bind (rangeTo_both h₃) ?_
  rintro p s₄ q t₄ ⟨h₄, hp₄⟩
  refine Reply.Both.bind (expect_both h₄ (by simp)) ?_
  rintro p s₅ q t₅ ⟨h₅, hp₅⟩
  refine Reply.Both.bind (bound_both h₅ (by simp only at hp₂; omega)) ?_
  rintro ⟨high, p⟩ s₆ ⟨high', q⟩ t₆ ⟨rfl, h₆, hp₆⟩
  refine Reply.Both.bind (skipBlank_both h₆) ?_
  rintro p s₇ q t₇ ⟨h₇, hp₇⟩
  refine Reply.Both.bind (expect_both h₇ hc) ?_
  rintro p s₈ q t₈ ⟨h₈, hp₈⟩
  exact ⟨rfl, h₈.mono h₈.le_pos le_rfl⟩

lemma range_both (h : Ready c s₀ base pos s t pos o) :
    Reply.Both (TookBoth c s₀ base) (Held c s₀ base) (range pos c s) (OnDemand.range o c t) := by
  unfold range OnDemand.range Reader.range
  refine h.lookAt_bind ?_
  intro s' t' kind ready hseen
  cases kind
  case openBracket =>
    exact rangeAfter_both (ready.advance hseen (by simp)) (by omega) true (by simp)
  case openBrace =>
    exact rangeAfter_both (ready.advance hseen (by simp)) (by omega) false (by simp)
  all_goals exact refuseAt_both ready.held ready.faces _

/-! ## Groups -/

/-- What is known of the productions for the sequence in a group. -/
def InnerBoth (c : Setting) (inner inner' : Nat → Production (Taken Query)) : Prop :=
  ∀ {s₀ s t : State} {base pos o : Nat}, Ready c s₀ base pos s t pos o →
    Reply.Both (EndedBoth c s₀ base) (Held c s₀ base) (inner pos c s) (inner' o c t)

lemma closed_both {x y : Reply (Taken Query)}
    (h : Reply.Both (TookBoth c s₀ base) (Held c s₀ base) x y) :
    Reply.Both (TookBoth c s₀ base) (Held c s₀ base) x.closed y.closed := by
  cases x <;> cases y
  case took.took a s b t =>
    obtain ⟨hab, ready⟩ := h
    have depth := ready.agrees.depth
    dsimp only [Reply.closed]
    rw [depth]
    exact ⟨hab, ready.withDepth _⟩
  case refused.refused s t =>
    have held : Held c s₀ base s t := h
    have depth := held.agrees.depth
    dsimp only [Reply.closed]
    rw [depth]
    exact held.withDepth _
  case fault.fault e e' => exact h
  all_goals exact h.elim

lemma nested_both {p q : Production (Taken Query)} (h : Ready c s₀ base k s t pos o)
    (hpq : ∀ {s t : State}, Ready c s₀ base k s t pos o →
      Reply.Both (TookBoth c s₀ base) (Held c s₀ base) (p c s) (q c t)) :
    Reply.Both (TookBoth c s₀ base) (Held c s₀ base) (nested pos p c s)
      (Production.nestedAt o q c t) := by
  have depth := h.agrees.depth
  rw [nested_apply, h.faces.offsetAt]
  cases hfull : c.fullAt s.depth with
  | some limit =>
    rw [nestedAt_of_full hfull, nestedAt_of_full (depth ▸ hfull)]
    exact ⟨h.agrees.reach _, by rw [(tokens_reach s _).1]; exact h.held.keeps⟩
  | none =>
    rw [nestedAt_of_free hfull, nestedAt_of_free (depth ▸ hfull), depth]
    exact closed_both (hpq (h.withDepth (s.depth + 1)))

lemma group_both {inner inner' : Nat → Production (Taken Query)} (hinner : InnerBoth c inner inner')
    (h : Ready c s₀ base k s t pos o) :
    Reply.Both (TookBoth c s₀ base) (Held c s₀ base) (group inner pos c s)
      (OnDemand.group inner' o c t) := by
  unfold group OnDemand.group Reader.group
  refine nested_both h ?_
  intro s t h
  refine Reply.Both.bind (expect_both h (by simp)) ?_
  rintro p s₁ q t₁ ⟨h₁, -⟩
  refine Reply.Both.bind (skipBlank_both h₁) ?_
  rintro p s₂ q t₂ ⟨h₂, -⟩
  refine Reply.Both.bind (hinner (h₂.mono h₂.le_pos le_rfl)) ?_
  rintro ⟨body, p⟩ s₃ ⟨body', q⟩ t₃ ⟨rfl, tail⟩
  refine Reply.Both.bind (skipBlank_tail tail) ?_
  rintro p s₄ q t₄ gate
  refine Reply.Both.bind (expect_gate gate) ?_
  rintro p s₅ q t₅ h₅
  exact ⟨rfl, h₅⟩

/-! ## Clauses -/

lemma marker_both (h : Ready c s₀ base pos s t pos o) :
    Reply.Both (TookBoth c s₀ base) (Held c s₀ base) (marker pos c s) (OnDemand.marker o c t) := by
  unfold marker OnDemand.marker Cursor.marker
  refine h.lookAt_bind ?_
  intro s' t' kind ready hseen
  cases kind
  case plus => exact ⟨rfl, (ready.advance hseen (by simp)).mono (by omega) le_rfl⟩
  case minus => exact ⟨rfl, (ready.advance hseen (by simp)).mono (by omega) le_rfl⟩
  all_goals exact ⟨rfl, ready⟩

lemma field_both (h : Ready c s₀ base pos s t pos o) :
    Reply.Both (TookBoth c s₀ base) (Held c s₀ base) (field pos c s) (OnDemand.field o c t) := by
  unfold field OnDemand.field Cursor.field
  refine h.lookAt_bind ?_
  intro s₁ t₁ kind ready hseen
  split_ifs with hword
  · refine next_both ?_
    have after := ready.advance (hseen.trans hword) (by simp)
    -- looking past the word leaves both readers ready on either side of it
    obtain ⟨s₂, t₂, hs, ht, agrees, tokens, furthest, -⟩ := lookAt_both after.agrees after.faces
    have before := ready.of_same agrees tokens furthest
    have after := after.of_same agrees tokens furthest
    rw [bind_of_took hs, bind_of_took ht]
    split_ifs with hcolon
    · refine textAt_both before.faces ?_
      split_ifs with hstar
      · exact ⟨rfl, before⟩
      · exact ⟨rfl, (after.advance hcolon (by simp)).mono (by omega) le_rfl⟩
    · exact ⟨rfl, before⟩
  · exact ⟨rfl, ready⟩

lemma boost_both (h : Ready c s₀ base pos s t pos o) :
    Reply.Both (TookBoth c s₀ base) (Held c s₀ base) (boost pos c s) (OnDemand.boost o c t) := by
  unfold boost OnDemand.boost Cursor.boost
  refine h.lookAt_bind ?_
  intro s' t' kind ready hseen
  split_ifs with hboost
  · refine textAt_both ready.faces ?_
    exact ⟨rfl, (ready.advance (hseen.trans hboost) (by simp)).mono (by omega) le_rfl⟩
  · exact ⟨rfl, ready.record _⟩

/-- A value that both readers took makes the clause on both sides alike. -/
lemma Reply.Both.make {α : Type} {x y : Production (Taken α)} {make : α → Modifiers → Clause}
    (hxy : Reply.Both (TookBoth c s₀ base) (Held c s₀ base) (x c s) (y c t)) :
    Reply.Both (TookBoth c s₀ base) (Held c s₀ base)
      ((x >>= fun a => pure (make a.1, a.2)) c s) ((y >>= fun a => pure (make a.1, a.2)) c t) := by
  refine Reply.Both.bind hxy ?_
  rintro ⟨a, p⟩ s₁ ⟨b, q⟩ t₁ ⟨rfl, h₁⟩
  exact ⟨rfl, h₁⟩

lemma value_both {inner inner' : Nat → Production (Taken Query)} (hinner : InnerBoth c inner inner')
    (field : Option String) (marker : Option Marker) (h : Ready c s₀ base pos s t pos o) :
    Reply.Both (TookBoth c s₀ base) (Held c s₀ base) (value inner field marker pos c s)
      (OnDemand.value inner' field marker o c t) := by
  unfold value OnDemand.value Reader.value
  refine h.lookAt_bind ?_
  intro s' t' kind ready hseen
  cases kind
  case word =>
    exact (term_both ready (by rw [(kindAt_of_kindSeen hseen (by simp)).2]; simp)).make
  case phrase =>
    exact (phrase_both ready (by rw [(kindAt_of_kindSeen hseen (by simp)).2]; simp)).make
  case openParen => exact (group_both hinner ready).make
  case openBracket =>
    cases field with
    | none => exact refuseAt_both ready.held ready.faces _
    | some name => exact (range_both ready).make
  case openBrace =>
    cases field with
    | none => exact refuseAt_both ready.held ready.faces _
    | some name => exact (range_both ready).make
  all_goals exact refuseAt_both ready.held ready.faces _

lemma clause_both {inner inner' : Nat → Production (Taken Query)}
    (hinner : InnerBoth c inner inner') (operator : Option Operator)
    (h : Ready c s₀ base pos s t pos o) :
    Reply.Both (TookBoth c s₀ base) (Held c s₀ base) (clause inner operator pos c s)
      (OnDemand.clause inner' operator o c t) := by
  unfold clause OnDemand.clause Reader.clause
  refine Reply.Both.bind (marker_both h) ?_
  rintro ⟨marker, p⟩ s₁ ⟨marker', q⟩ t₁ ⟨rfl, h₁⟩
  refine Reply.Both.bind (field_both h₁) ?_
  rintro ⟨field, p⟩ s₂ ⟨field', q⟩ t₂ ⟨rfl, h₂⟩
  refine Reply.Both.bind (value_both hinner field marker h₂) ?_
  rintro ⟨make, p⟩ s₃ ⟨make', q⟩ t₃ ⟨rfl, h₃⟩
  refine Reply.Both.bind (boost_both h₃) ?_
  rintro ⟨boost, p⟩ s₄ ⟨boost', q⟩ t₄ ⟨rfl, h₄⟩
  exact ⟨rfl, h₄⟩

/-! ## Sequences -/

/-- What both readers took since a later state, they took since the earlier one. -/
lemma TookBoth.since {α : Type} {s₁ t₁ : State} {a b : Taken α} {base' : Nat}
    (h : TookBoth c s₁ base' a s b t) (h₁ : Held c s₀ base s₁ t₁) (hb : base ≤ base') :
    TookBoth c s₀ base a s b t := by
  obtain ⟨hab, ready⟩ := h
  exact ⟨hab, h₁.trans ready.held hb, ready.aligned, ready.settled, le_trans hb ready.base_le,
    ready.le_pos⟩

/-- A clause that was begun after a blank and refused leaves the tokens up to where it began. -/
lemma Held.blocked {s₁ t₁ s' t' : State} (h : Held c s₀ base s₁ t₁) (hb : base ≤ pos)
    (before : Faces c s₁.tokens pos o) (after : Faces c s₁.tokens (pos + 1) (c.next o))
    (h' : Held c s₁ (pos + 1) s' t') (hblank : c.kindAt o = .blank)
    (hclose : c.kindAt (c.next o) ≠ .closeParen) (hend : c.kindAt (c.next o) ≠ .endOfInput) :
    Tail c s₀ base s' t' pos o := by
  refine ⟨h.trans h' (by omega), hb, ⟨before.boundary, ?_⟩,
    Or.inr ⟨hblank, ⟨after.boundary, ?_⟩, hclose, hend⟩⟩
  · rw [h'.keeps pos (by omega), before.token]
  · rw [h'.keeps (pos + 1) le_rfl, after.token]

lemma kindSeen_of_closes (h : Closes c s o) :
    OnDemand.kindSeen c s o = .closeParen ∨ OnDemand.kindSeen c s o = .endOfInput := by
  unfold OnDemand.kindSeen
  cases hr : s.reached with
  | none => exact h hr
  | some cause => exact Or.inr rfl

lemma marker_of_closes (h : Ready c s₀ base pos s t pos o) (hc : Closes c s o) :
    ∃ s' t', marker pos c s = .took (none, pos) s' ∧
      OnDemand.marker o c t = .took (none, o) t' ∧ s'.tokens = s.tokens ∧
      Ready c s₀ base pos s' t' pos o ∧ Closes c s' o := by
  obtain ⟨s', t', hs, ht, agrees, tokens, furthest, hreach⟩ := lookAt_both h.agrees h.faces
  have closes : Closes c s' o := fun hr => hc (hreach hr)
  refine ⟨s', t', ?_, ?_, tokens, h.of_same agrees tokens furthest, closes⟩
  · unfold marker Cursor.marker
    rw [bind_of_took hs]
    rcases kindSeen_of_closes closes with hk | hk <;> rw [hk] <;> rfl
  · unfold OnDemand.marker Cursor.marker
    rw [bind_of_took ht]
    rcases kindSeen_of_closes closes with hk | hk <;> rw [hk] <;> rfl

lemma field_of_closes (h : Ready c s₀ base pos s t pos o) (hc : Closes c s o) :
    ∃ s' t', field pos c s = .took (none, pos) s' ∧
      OnDemand.field o c t = .took (none, o) t' ∧ s'.tokens = s.tokens ∧
      Ready c s₀ base pos s' t' pos o ∧ Closes c s' o := by
  obtain ⟨s', t', hs, ht, agrees, tokens, furthest, hreach⟩ := lookAt_both h.agrees h.faces
  have closes : Closes c s' o := fun hr => hc (hreach hr)
  have hword : OnDemand.kindSeen c s' o ≠ .word := by
    rcases kindSeen_of_closes closes with hk | hk <;> rw [hk] <;> simp
  refine ⟨s', t', ?_, ?_, tokens, h.of_same agrees tokens furthest, closes⟩
  · unfold field Cursor.field
    rw [bind_of_took hs, if_neg hword]
    rfl
  · unfold OnDemand.field Cursor.field
    rw [bind_of_took ht, if_neg hword]
    rfl

lemma value_of_closes (inner inner' : Nat → Production (Taken Query))
    (h : Ready c s₀ base pos s t pos o) (hc : Closes c s o) :
    ∃ s' t', value inner none none pos c s = .refused s' ∧
      OnDemand.value inner' none none o c t = .refused t' ∧ s'.tokens = s.tokens ∧
      Ready c s₀ base pos s' t' pos o := by
  obtain ⟨s', t', hs, ht, agrees, tokens, furthest, hreach⟩ := lookAt_both h.agrees h.faces
  have closes : Closes c s' o := fun hr => hc (hreach hr)
  have ready := h.of_same agrees tokens furthest
  refine ⟨s'.record c.source pos (valueStart none none), t'.recordAt o (valueStart none none),
    ?_, ?_, tokens, ready.record _⟩
  · unfold value Reader.value
    rw [bind_of_took hs]
    rcases kindSeen_of_closes closes with hk | hk <;> rw [hk] <;> rfl
  · unfold OnDemand.value Reader.value
    rw [bind_of_took ht]
    rcases kindSeen_of_closes closes with hk | hk <;> rw [hk] <;> rfl

/-- Where a sequence may be closed, a clause is refused before anything is cut. -/
lemma clause_of_closes (inner inner' : Nat → Production (Taken Query)) (operator : Option Operator)
    (h : Ready c s₀ base pos s t pos o) (hc : Closes c s o) :
    ∃ s' t', clause inner operator pos c s = .refused s' ∧
      OnDemand.clause inner' operator o c t = .refused t' ∧ s'.tokens = s.tokens ∧
      Ready c s₀ base pos s' t' pos o := by
  obtain ⟨s₁, t₁, hs₁, ht₁, tokens₁, h₁, hc₁⟩ := marker_of_closes h hc
  obtain ⟨s₂, t₂, hs₂, ht₂, tokens₂, h₂, hc₂⟩ := field_of_closes h₁ hc₁
  obtain ⟨s₃, t₃, hs₃, ht₃, tokens₃, h₃⟩ := value_of_closes inner inner' h₂ hc₂
  refine ⟨s₃, t₃, ?_, ?_, by rw [tokens₃, tokens₂, tokens₁], h₃⟩
  · unfold clause Reader.clause
    rw [bind_of_took hs₁]
    dsimp only
    rw [bind_of_took hs₂]
    exact bind_of_refused hs₃
  · unfold OnDemand.clause Reader.clause
    rw [bind_of_took ht₁]
    dsimp only
    rw [bind_of_took ht₂]
    exact bind_of_refused ht₃

/-- What both readers do after the blank counts from there, so that what is cut does not touch the
place to go back to. -/
lemma Reply.Both.joined {s₁ t₁ : State} {x y : Reply (Taken Clause)}
    (hxy : Reply.Both (TookBoth c s₁ (pos + 1)) (Held c s₁ (pos + 1)) x y)
    (h : Held c s₀ base s₁ t₁) (hb : base ≤ pos) (before : Faces c s₁.tokens pos o)
    (after : Faces c s₁.tokens (pos + 1) (c.next o)) (hblank : c.kindAt o = .blank)
    (hclose : c.kindAt (c.next o) ≠ .closeParen) (hend : c.kindAt (c.next o) ≠ .endOfInput) :
    Reply.Both (TookBoth c s₀ base) (fun s' t' => Tail c s₀ base s' t' pos o) x y := by
  refine hxy.mono ?_ ?_
  · intro a s' b t' hab
    exact hab.since h (by omega)
  · intro s' t' held
    exact h.blocked hb before after held hblank hclose hend

/-- A clause after a keyword, which can close nothing. -/
lemma keywordClause_both {inner inner' : Nat → Production (Taken Query)} {operator : Operator}
    (hinner : InnerBoth c inner inner') (before : Ready c s₀ base pos s t pos o)
    (here : Ready c s₀ base k s t (pos + 1) (c.next o)) (hblank : c.kindAt o = .blank)
    (hop : operatorOf? (OnDemand.kindSeen c s (c.next o)) = some operator) :
    Reply.Both (TookBoth c s₀ base) (fun s' t' => Tail c s₀ base s' t' pos o)
      ((expect (pos + 2) .blank >>= clause inner (some operator)) c s)
      ((OnDemand.next (c.next o) >>= fun o => OnDemand.expect o .blank >>=
        OnDemand.clause inner' (some operator)) c t) := by
  have hend : OnDemand.kindSeen c s (c.next o) ≠ .endOfInput := OnDemand.ne_of_operatorOf? hop rfl
  obtain ⟨-, hkind⟩ := kindAt_of_kindSeen rfl hend
  have hclose : c.kindAt (c.next o) ≠ .closeParen := by
    rw [hkind]
    exact OnDemand.ne_of_operatorOf? hop rfl
  refine Reply.Both.joined ?_ here.held before.base_le before.faces here.faces hblank hclose
    (by rw [hkind]; exact hend)
  rw [bind_of_took (rfl : OnDemand.next (c.next o) c t = .took (c.next (c.next o)) t)]
  refine Reply.Both.bind (expect_both (here.rebase.advance rfl hend) (by simp)) ?_
  rintro p s₃ q t₃ ⟨h₃, -⟩
  exact clause_both hinner (some operator) (h₃.mono h₃.le_pos le_rfl)

/-- A clause right after the blank.  Where the sequence may be closed, it is refused and nothing was
cut; and elsewhere, reading will be refused after the blank. -/
lemma bareClause_both {inner inner' : Nat → Production (Taken Query)}
    (hinner : InnerBoth c inner inner') (before : Ready c s₀ base pos s t pos o)
    (here : Ready c s₀ base k s t (pos + 1) (c.next o)) (hblank : c.kindAt o = .blank) :
    Reply.Both (TookBoth c s₀ base) (fun s' t' => Tail c s₀ base s' t' pos o)
      ((miss (pos + 1) .keywords >>= fun _ => clause inner none (pos + 1)) c s)
      ((OnDemand.miss (c.next o) .keywords >>= fun _ => OnDemand.clause inner' none (c.next o))
        c t) := by
  have missed := here.record .keywords
  by_cases hc : Closes c (s.record c.source (pos + 1) .keywords) (c.next o)
  · obtain ⟨s', t', hs, ht, tokens, h'⟩ := clause_of_closes inner inner' none missed hc
    have aligned : Aligned c s'.tokens pos o := by
      rw [tokens]
      exact before.aligned
    have hs' : (miss (pos + 1) .keywords >>= fun _ => clause inner none (pos + 1)) c s =
        .refused s' := hs
    have ht' : (OnDemand.miss (c.next o) .keywords >>= fun _ =>
        OnDemand.clause inner' none (c.next o)) c t = .refused t' := ht
    rw [hs', ht']
    refine ⟨h'.held, before.base_le, aligned.faces, Or.inl ⟨aligned, ?_⟩⟩
    rw [if_pos hblank]
    exact h'.settled
  · unfold Closes at hc
    rw [Classical.not_imp, not_or] at hc
    obtain ⟨-, hclose, hend⟩ := hc
    refine Reply.Both.joined ?_ missed.held before.base_le before.faces here.faces hblank hclose
      hend
    exact clause_both hinner none missed.rebase

/-- A refusal of a further clause leaves the readers at the end of the sequence. -/
lemma joinedClause_both {inner inner' : Nat → Production (Taken Query)}
    (hinner : InnerBoth c inner inner') (h : Ready c s₀ base pos s t pos o) :
    Reply.Both (TookBoth c s₀ base) (fun s' t' => Tail c s₀ base s' t' pos o)
      (joinedClause inner pos c s) (OnDemand.joinedClause inner' o c t) := by
  unfold joinedClause OnDemand.joinedClause Reader.joinedClause Reader.afterBlank
  rcases expect_cases h (by simp : Kind.blank ≠ .endOfInput) with
    ⟨s₁, t₁, hs, ht, hblank, -, h₁⟩ | ⟨s₁, t₁, hs, ht, -, h₁⟩
  · have after := h₁.next (by rw [hblank]; simp)
    obtain ⟨s₂, t₂, hs₂, ht₂, agrees, tokens, furthest, -⟩ := lookAt_both after.agrees after.faces
    have before := h₁.of_same agrees tokens furthest
    have here := after.of_same agrees tokens furthest
    rw [bind_of_took hs, bind_of_took ht, bind_of_took hs₂, bind_of_took ht₂]
    cases hop : operatorOf? (OnDemand.kindSeen c s₂ (c.next o)) with
    | some operator => exact keywordClause_both hinner before here hblank hop
    | none => exact bareClause_both hinner before here hblank
  · have hpos : pos ≤ if c.kindAt o = .blank then pos + 1 else pos := by split_ifs <;> omega
    rw [bind_of_refused hs, bind_of_refused ht]
    refine ⟨h₁.held, h₁.base_le, h₁.faces, Or.inl ⟨h₁.aligned, ?_⟩⟩
    intro p x hp
    exact le_trans (h₁.settled p x hp) hpos

lemma moreClauses_both {joined joined' : Nat → Production (Taken Clause)}
    (hjoined : ∀ {s t : State} {pos o : Nat}, Ready c s₀ base pos s t pos o →
      Reply.Both (TookBoth c s₀ base) (fun s' t' => Tail c s₀ base s' t' pos o)
        (joined pos c s) (joined' o c t))
    (steps : Nat) (found : List Clause) (h : Ready c s₀ base pos s t pos o) :
    Reply.Both (EndedBoth c s₀ base) (Held c s₀ base) (moreClauses joined steps found pos c s)
      (moreClauses joined' steps found o c t) := by
  induction steps generalizing found s t pos o with
  | zero => exact rfl
  | succ steps ih =>
    have step := hjoined h
    unfold moreClauses
    cases hp : joined pos c s <;> cases hq : joined' o c t <;> rw [hp, hq] at step
    case took.took a s' b t' =>
      obtain ⟨clause, p⟩ := a
      obtain ⟨clause', q⟩ := b
      obtain ⟨rfl, ready⟩ := step
      exact ih (clause :: found) ready
    case refused.refused s' t' => exact ⟨rfl, step⟩
    case fault.fault e e' => exact step
    all_goals exact step.elim

/-- **A sequence over tokens is a sequence on demand**, within any bound on the steps. -/
theorem sequence_both (c : Setting) (steps : Nat) :
    InnerBoth c (Production.sequence steps) (OnDemand.sequence steps) := by
  induction steps with
  | zero =>
    intro s₀ s t base pos o h
    exact rfl
  | succ steps ih =>
    intro s₀ s t base pos o h
    unfold Production.sequence OnDemand.sequence Reader.sequence
    refine Reply.Both.bind (clause_both ih none h) ?_
    rintro ⟨first, p⟩ s₁ ⟨first', q⟩ t₁ ⟨rfl, h₁⟩
    refine Reply.Both.bind (moreClauses_both (joinedClause_both ih) steps [] h₁) ?_
    rintro ⟨more, p⟩ s₂ ⟨more', q⟩ t₂ ⟨rfl, tail⟩
    exact ⟨rfl, tail⟩

/-! ## Queries -/

/-- **A query over the tokens cut from a place is the query read on demand from there.** -/
theorem query_both (h : Agrees c s t) (steps start : Nat)
    (hb : Text.IsBoundary c.source start)
    (tokens : s.tokens = (Token.lexFrom c.source start).toArray) (settled : Settled s 0) :
    Reply.Both (fun q s' q' t' => q = q' ∧ Agrees c s' t') (Agrees c)
      (Production.query steps c s) (OnDemand.query steps start c t) := by
  have ready : Ready c s 0 0 s t 0 start := by
    refine ⟨Held.refl h 0, ⟨hb, ?_⟩, settled, le_rfl, le_rfl⟩
    rw [tokens]
    rfl
  have read : Reply.Both (fun q s' q' t' => q = q' ∧ Agrees c s' t') (Held c s 0)
      (Production.query steps c s) (OnDemand.query steps start c t) := by
    unfold Production.query OnDemand.query Reader.query
    refine Reply.Both.bind (skipBlank_both ready) ?_
    rintro p s₁ q t₁ ⟨h₁, -⟩
    refine Reply.Both.bind (sequence_both c steps (h₁.mono h₁.le_pos le_rfl)) ?_
    rintro ⟨q, p⟩ s₂ ⟨q', o⟩ t₂ ⟨rfl, tail⟩
    refine Reply.Both.bind (skipBlank_tail tail) ?_
    rintro p s₃ o t₃ gate
    obtain ⟨s₄, t₄, hs, ht, agrees, tokens₄, -, -⟩ := lookAt_both gate.held.agrees gate.faces
    have faces : Faces c s₄.tokens p o := by
      rw [tokens₄]
      exact gate.faces
    have held : Held c s 0 s₄ t₄ := ⟨agrees, by rw [tokens₄]; exact gate.held.keeps⟩
    rw [bind_of_took hs, bind_of_took ht]
    by_cases hend : OnDemand.kindSeen c s₄ o = .endOfInput
    · rw [if_pos hend, if_pos hend]
      exact ⟨rfl, agrees⟩
    · rw [if_neg hend, if_neg hend]
      exact refuseAt_both held faces _
  exact read.mono (fun _ _ _ _ h => h) (fun _ _ h => h.agrees)

/-- The state that reading on demand starts from. -/
def OnDemand.start (limits : Limits) : State := { tokens := #[], lookaheads := limits.lookaheads }

/-- The bound on the steps for a text. -/
def Limits.stepsOf (limits : Limits) (text : String) : Nat :=
  limits.steps text.toList (Token.lex text.toList).toArray

/-- The setting in which a text is read. -/
def Limits.setting (limits : Limits) (text : String) : Setting := ⟨text.toList, limits.nesting⟩

lemma query_start_both (limits : Limits) (text : String) :
    Reply.Both
      (fun q s q' t => q = q' ∧ Agrees (limits.setting text) s t) (Agrees (limits.setting text))
      (Production.query (limits.stepsOf text) (limits.setting text)
        { tokens := (Token.lex text.toList).toArray, lookaheads := limits.lookaheads })
      (OnDemand.query (limits.stepsOf text) 0 (limits.setting text) (OnDemand.start limits)) := by
  have boundary := Text.isBoundary_zero (limits.setting text).source
  refine query_both ?_ (limits.stepsOf text) 0 boundary rfl ?_
  · exact ⟨rfl, rfl, rfl, rfl, ⟨rfl, trivial⟩, 0, Setting.tiles_lexFrom boundary⟩
  · intro pos x hp
    cases hp

/-- What was read is accepted if it was taken and no limit was reached. -/
lemma conclude_eq_accepted_iff {source : List Char} {reply : Reply Query} {q : Query} :
    (Limits.conclude source reply).outcome = .accepted q ↔
      ∃ s, reply = .took q s ∧ s.reached = none := by
  unfold Limits.conclude
  cases reply with
  | took p s =>
    cases hr : s.reached with
    | some cause => simp [hr]
    | none =>
      simp only [hr, Outcome.accepted.injEq, Reply.took.injEq]
      constructor
      · rintro rfl
        exact ⟨s, ⟨rfl, rfl⟩, hr⟩
      · rintro ⟨s', ⟨rfl, -⟩, -⟩
        rfl
  | refused s =>
    cases hr : s.reached with
    | some cause => simp [hr]
    | none => cases hf : s.furthest.report? source s.tokens <;> simp [hr, hf]
  | fault cause => simp

/-- **A query is accepted if it is read on demand with no limit reached.** -/
theorem parse_eq_accepted_iff {limits : Limits} {text : String} {q : Query} :
    limits.parse text = .accepted q ↔
      Text.byteSize text.toList ≤ maxOffset ∧
        ∃ t, OnDemand.query (limits.stepsOf text) 0 (limits.setting text) (OnDemand.start limits) =
          .took q t ∧ t.reached = none := by
  have both := query_start_both limits text
  unfold Limits.parse Limits.read
  by_cases hsize : maxOffset < Text.byteSize text.toList
  · simp only [if_pos hsize]
    constructor
    · intro h
      cases h
    · intro h
      omega
  · have hread : limits.readTokens text.toList (Token.lex text.toList) =
        Limits.conclude text.toList (Production.query (limits.stepsOf text) (limits.setting text)
          { tokens := (Token.lex text.toList).toArray, lookaheads := limits.lookaheads }) := rfl
    simp only [if_neg hsize, hread, conclude_eq_accepted_iff]
    rw [and_iff_right (by omega)]
    constructor
    · rintro ⟨s, hs, hreached⟩
      rw [hs] at both
      cases hq : OnDemand.query (limits.stepsOf text) 0 (limits.setting text)
          (OnDemand.start limits) <;> rw [hq] at both
      case took q' t =>
        obtain ⟨rfl, agrees⟩ := both
        exact ⟨t, rfl, by rw [agrees.reached, hreached]⟩
      all_goals exact both.elim
    · rintro ⟨t, ht, hreached⟩
      rw [ht] at both
      cases hp : Production.query (limits.stepsOf text) (limits.setting text)
          { tokens := (Token.lex text.toList).toArray, lookaheads := limits.lookaheads } <;>
        rw [hp] at both
      case took q' s =>
        obtain ⟨rfl, agrees⟩ := both
        exact ⟨s, rfl, by rw [← agrees.reached, hreached]⟩
      all_goals exact both.elim

end SearchQuery
