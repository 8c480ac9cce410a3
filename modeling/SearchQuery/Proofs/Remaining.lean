import SearchQuery.Proofs.Reachable

/-!
# What remains of the source

An index tells nothing about how much there is still to read, since going past a bound may leave
more tokens than there were.  What falls is `State.remaining`, the bytes of the source from the
place of an index on.  Whatever a production takes ends at a place further on than where the
production was begun, and both a further clause and the sequence in a group are begun with fewer
bytes remaining.  So the recursion of the grammar ends by itself, and more steps than there are
bytes remaining are as good as any larger number.

## How places are compared

Indices are compared in one state and places across states, which is possible because the places up
to an index stay what they are while reading goes on from it, even where tokens are cut anew.  That
is `Since`.  `GotTo c s₀ base o s pos` says that reading was begun at the index `base` of `s₀`, is
now at the index `pos` of `s`, and that this stands for the place `o` or one further on.

The judgement on replies, `Reply.Goes`, is about two replies at once.  They are the same one, no
fault, and keep the places up to where the production was begun.  The two come from sequences with
different numbers of steps, and all else follows from `sequence_goes`.
-/

namespace SearchQuery

open Production

/-- The bytes of the source from the place of an index on. -/
def State.remaining (s : State) (source : List Char) (pos : Nat) : Nat :=
  Text.byteSize source - s.offsetAt source pos

/-! ## Where reading has got to -/

/-- What stays of a state after reading went on from an index: the places up to it. -/
structure Since (c : Setting) (s : State) (pos : Nat) (s' : State) : Prop where
  reachable : Reachable c s'
  places : ∀ j ≤ pos, s'.offsetAt c.source j = s.offsetAt c.source j

/-- Reading that was begun at an index of `s₀` is at another one of `s`, at the place `o` or further
on. -/
structure GotTo (c : Setting) (s₀ : State) (base o : Nat) (s : State) (pos : Nat) : Prop extends
    Since c s₀ base s where
  le : base ≤ pos
  place : o ≤ s.offsetAt c.source pos

/-- A lookahead at an index: it changes no token, and sees the end of the input or the token. -/
structure Looked (c : Setting) (s : State) (pos : Nat) (kind : Kind) (s' : State) : Prop where
  reachable : Reachable c s'
  tokens : s'.tokens = s.tokens
  seen : kind = .endOfInput ∨ s'.kindAt? pos = some kind

section

variable {c : Setting} {s₀ s s' : State} {base pos p o x : Nat}

lemma State.offsetAt_of_tokens (tokens : s'.tokens = s.tokens) (source : List Char) (pos : Nat) :
    s'.offsetAt source pos = s.offsetAt source pos := by
  unfold State.offsetAt
  rw [tokens]

lemma Since.trans (h : Since c s₀ base s) (h' : Since c s pos s') (hle : base ≤ pos) :
    Since c s₀ base s' := by
  refine ⟨h'.reachable, ?_⟩
  intro j hj
  rw [h'.places j (le_trans hj hle), h.places j hj]

namespace GotTo

lemma here (h : Reachable c s) (pos : Nat) : GotTo c s pos (s.offsetAt c.source pos) s pos :=
  ⟨⟨h, fun _ _ => rfl⟩, le_rfl, le_rfl⟩

lemma mono (h : GotTo c s₀ base o s pos) (hx : x ≤ o) : GotTo c s₀ base x s pos :=
  ⟨h.toSince, h.le, le_trans hx h.place⟩

lemma trans (h : GotTo c s₀ base o s pos) (h' : GotTo c s pos x s' p) :
    GotTo c s₀ base x s' p :=
  ⟨h.toSince.trans h'.toSince h.le, le_trans h.le h'.le, h'.place⟩

/-- Reading can go back to an index after what was begun there. -/
lemma back (h : GotTo c s₀ base o s pos) (since : Since c s pos s') :
    GotTo c s₀ base o s' pos := by
  refine ⟨h.toSince.trans since h.le, h.le, ?_⟩
  rw [since.places pos le_rfl]
  exact h.place

lemma of_tokens (h : GotTo c s₀ base o s pos) (reachable : Reachable c s')
    (tokens : s'.tokens = s.tokens) : GotTo c s₀ base o s' pos := by
  refine ⟨⟨reachable, ?_⟩, h.le, ?_⟩
  · intro j hj
    rw [State.offsetAt_of_tokens tokens, h.places j hj]
  · rw [State.offsetAt_of_tokens tokens]
    exact h.place

lemma record (h : GotTo c s₀ base o s pos) (p : Nat) (expected : KindSet) :
    GotTo c s₀ base o (s.record c.source p expected) pos :=
  h.of_tokens (h.reachable.record p expected) rfl

lemma withDepth (h : GotTo c s₀ base o s pos) (d : Nat) :
    GotTo c s₀ base o { s with depth := d } pos :=
  h.of_tokens (h.reachable.withDepth d) rfl

lemma after {kind : Kind} (h : GotTo c s₀ base o s p) (looked : Looked c s pos kind s') :
    GotTo c s₀ base o s' p := h.of_tokens looked.reachable looked.tokens

/-- A token that was seen is gone past, and the place behind it is further on. -/
lemma past {kind : Kind} (h : GotTo c s₀ base o s pos) (looked : Looked c s pos kind s')
    (hk : kind ≠ .endOfInput) : GotTo c s₀ base (o + 1) s' (pos + 1) := by
  have here := h.after looked
  have further := here.reachable.paved.offsetAt_lt_succ (looked.seen.resolve_left hk)
  exact ⟨here.toSince, Nat.le_succ_of_le here.le, lt_of_le_of_lt here.place further⟩

end GotTo

end

/-! ## Replies -/

/-- Two replies are the same one, and no fault.  What is taken satisfies a condition, and a refusal
keeps the places up to where reading was begun. -/
def Reply.Goes {α : Type} (c : Setting) (s₀ : State) (base : Nat) (T : α → State → Prop) :
    Reply α → Reply α → Prop
  | .took a s, y => y = .took a s ∧ T a s
  | .refused s, y => y = .refused s ∧ Since c s₀ base s
  | .fault _, _ => False

/-- Both replies take the same and have got to a place. -/
def Reply.GoesTo {α : Type} (c : Setting) (s₀ : State) (base o : Nat) :
    Reply (Taken α) → Reply (Taken α) → Prop :=
  Reply.Goes c s₀ base fun a s => GotTo c s₀ base o s a.2

section

variable {α β : Type} {c : Setting} {s₀ s : State} {base pos o : Nat} {T : α → State → Prop}
  {U : β → State → Prop}

namespace Reply.Goes

lemma bind {p q : Production α} {f g : α → Production β} (h : (p c s).Goes c s₀ base T (q c s))
    (hfg : ∀ a s', T a s' → (f a c s').Goes c s₀ base U (g a c s')) :
    ((p >>= f) c s).Goes c s₀ base U ((q >>= g) c s) := by
  rw [bind_apply, bind_apply]
  cases hp : p c s with
  | took a s' =>
    rw [hp] at h
    obtain ⟨hq, taken⟩ := h
    rw [hq]
    exact hfg a s' taken
  | refused s' =>
    rw [hp] at h
    obtain ⟨hq, since⟩ := h
    rw [hq]
    exact ⟨rfl, since⟩
  | fault cause =>
    rw [hp] at h
    exact h.elim

lemma mono {x y : Reply α} (hxy : x.Goes c s₀ base T y) {T' : α → State → Prop}
    (hT : ∀ a s', T a s' → T' a s') : x.Goes c s₀ base T' y := by
  cases x with
  | took a s' => exact ⟨hxy.1, hT a s' hxy.2⟩
  | refused s' => exact hxy
  | fault cause => exact hxy

/-- What is begun where reading has got to is part of the reading from further back. -/
lemma since {x y : Reply α} (hxy : x.Goes c s pos T y) (h : GotTo c s₀ base o s pos)
    {T' : α → State → Prop} (hT : ∀ a s', T a s' → T' a s') : x.Goes c s₀ base T' y := by
  cases x with
  | took a s' => exact ⟨hxy.1, hT a s' hxy.2⟩
  | refused s' => exact ⟨hxy.1, h.toSince.trans hxy.2 h.le⟩
  | fault cause => exact hxy

lemma closed {x y : Reply α} (hxy : x.Goes c s₀ base T y)
    (hT : ∀ a s d, T a s → T a { s with depth := d }) : x.closed.Goes c s₀ base T y.closed := by
  cases x with
  | took a s' =>
    obtain ⟨rfl, taken⟩ := hxy
    exact ⟨rfl, hT a s' _ taken⟩
  | refused s' =>
    obtain ⟨rfl, since⟩ := hxy
    exact ⟨rfl, since.reachable.withDepth _, since.places⟩
  | fault cause => exact hxy.elim

end Reply.Goes

/-! ### Steps -/

lemma lookAt_goes {f g : Kind → Production α} (h : Reachable c s)
    (hfg : ∀ kind s', Looked c s pos kind s' → (f kind c s').Goes c s₀ base T (g kind c s')) :
    ((lookAt pos >>= f) c s).Goes c s₀ base T ((lookAt pos >>= g) c s) := by
  obtain ⟨s', kind, hs, quiet, seen⟩ := lookAt_quiet c s pos
  rw [bind_of_took hs, bind_of_took hs]
  refine hfg kind s' ⟨h.look hs, quiet.tokens, seen.imp_right fun seen => ?_⟩
  rw [quiet.kindAt?]
  exact seen.2

lemma textAt_goes {f g : List Char → Production α} (h : Reachable c s)
    (hfg : ∀ text, (f text c s).Goes c s₀ base T (g text c s)) :
    ((textAt pos >>= f) c s).Goes c s₀ base T ((textAt pos >>= g) c s) := by
  obtain ⟨text, hs⟩ := h.paved.textAt pos
  rw [bind_of_took hs, bind_of_took hs]
  exact hfg text

lemma next_goes {f g : Nat → Production α}
    (hfg : (f (pos + 1) c s).Goes c s₀ base T (g (pos + 1) c s)) :
    ((Cursor.overTokens.next pos >>= f) c s).Goes c s₀ base T
      ((Cursor.overTokens.next pos >>= g) c s) := hfg

lemma refuseAt_goes {p : Nat} (h : GotTo c s₀ base o s pos) (expected : KindSet) :
    (refuseAt p expected c s).Goes c s₀ base T (refuseAt p expected c s) :=
  ⟨rfl, (h.record p expected).toSince⟩

lemma expect_goes {kind : Kind} (hk : kind ≠ .endOfInput) (h : GotTo c s₀ base o s pos) :
    (expect pos kind c s).Goes c s₀ base (fun p s' => GotTo c s₀ base (o + 1) s' p)
      (expect pos kind c s) := by
  unfold expect Cursor.expect
  refine lookAt_goes h.reachable ?_
  intro seen s' looked
  split_ifs with heq
  · obtain rfl := heq
    exact ⟨rfl, h.past looked hk⟩
  · exact refuseAt_goes (h.after looked) _

lemma skipBlank_goes (h : GotTo c s₀ base o s pos) :
    (skipBlank pos c s).Goes c s₀ base (fun p s' => GotTo c s₀ base o s' p)
      (skipBlank pos c s) := by
  unfold skipBlank Cursor.skipBlank
  refine lookAt_goes h.reachable ?_
  intro seen s' looked
  split_ifs with heq
  · exact ⟨rfl, (h.past looked (by simp [heq])).mono (Nat.le_succ o)⟩
  · exact ⟨rfl, h.after looked⟩

lemma nested_goes {p q : Production α} (h : GotTo c s₀ base o s pos)
    (hpq : ∀ {s'}, GotTo c s₀ base o s' pos → (p c s').Goes c s₀ base T (q c s'))
    (hT : ∀ a s d, T a s → T a { s with depth := d }) :
    (nested pos p c s).Goes c s₀ base T (nested pos q c s) := by
  rw [nested_apply, nested_apply]
  cases hfull : c.fullAt s.depth with
  | some limit =>
    rw [nestedAt_of_full hfull, nestedAt_of_full hfull]
    exact ⟨rfl, (h.of_tokens (h.reachable.reach _) (tokens_reach s _).1).toSince⟩
  | none =>
    rw [nestedAt_of_free hfull, nestedAt_of_free hfull]
    exact (hpq (h.withDepth _)).closed hT

end

/-! ## Values -/

section

variable {c : Setting} {s₀ s : State} {base pos o : Nat}

/-- A term whose word was seen. -/
lemma term_goes (h : GotTo c s₀ base o s (pos + 1)) :
    (term pos c s).GoesTo c s₀ base o (term pos c s) := by
  unfold term Cursor.term
  refine textAt_goes h.reachable fun text => next_goes (lookAt_goes h.reachable ?_)
  intro seen s' looked
  split_ifs with heq
  · have past := h.past looked (by simp [heq])
    exact textAt_goes past.reachable fun _ => ⟨rfl, past.mono (Nat.le_succ o)⟩
  · exact ⟨rfl, (h.after looked).record _ _⟩

/-- A phrase whose quoted text was seen. -/
lemma phrase_goes (h : GotTo c s₀ base o s (pos + 1)) :
    (phrase pos c s).GoesTo c s₀ base o (phrase pos c s) := by
  unfold phrase Cursor.phrase
  refine textAt_goes h.reachable fun text => next_goes (lookAt_goes h.reachable ?_)
  intro seen s' looked
  split_ifs with heq
  · have past := h.past looked (by simp [heq])
    refine textAt_goes past.reachable fun number => ?_
    split_ifs
    · exact ⟨rfl, past.mono (Nat.le_succ o)⟩
    · exact ⟨rfl, (h.after looked).record _ _⟩
  · exact ⟨rfl, (h.after looked).record _ _⟩

/-- A bound takes the place further on, whether or not tokens are cut anew. -/
lemma bound_goes (h : GotTo c s₀ base o s pos) :
    (bound pos c s).GoesTo c s₀ base (o + 1) (bound pos c s) := by
  rcases h.reachable.paved.bound pos with heq | ⟨text, x, i, s', heq, hx, hsize, -, sought⟩
  · rw [heq]
    exact refuseAt_goes h _
  · have reachable := h.reachable.bound heq
    obtain ⟨token, hget, hoffset⟩ := State.exists_getElem?_of_offsetAt_lt hx hsize
    have hi : pos < i := sought.front pos token hget (by rwa [← hoffset])
    have hle := h.le
    have place := h.place
    rw [heq]
    refine ⟨rfl, ⟨reachable, fun j hj => ?_⟩, by simp only; omega, ?_⟩
    · rw [sought.offsetAt_of_lt (by omega), h.places j hj]
    · rw [sought.offsetAt hsize]
      omega

lemma rangeTo_goes (h : GotTo c s₀ base o s pos) :
    (rangeTo pos c s).Goes c s₀ base (fun p s' => GotTo c s₀ base o s' p) (rangeTo pos c s) := by
  unfold rangeTo Cursor.rangeTo
  refine lookAt_goes h.reachable ?_
  intro seen s' looked
  have here := h.after looked
  split_ifs with heq
  · refine textAt_goes here.reachable fun text => ?_
    split_ifs
    · exact ⟨rfl, (h.past looked (by simp [heq])).mono (Nat.le_succ o)⟩
    · exact refuseAt_goes here _
  · exact refuseAt_goes here _

lemma rangeAfter_goes (inclusive : Bool) {closing : Kind} (hc : closing ≠ .endOfInput)
    (h : GotTo c s₀ base o s pos) :
    (rangeAfter pos inclusive closing c s).GoesTo c s₀ base o
      (rangeAfter pos inclusive closing c s) := by
  unfold rangeAfter Reader.rangeAfter
  refine Reply.Goes.bind (skipBlank_goes h) fun p s₁ h₁ => ?_
  refine Reply.Goes.bind (bound_goes h₁) fun low s₂ h₂ => ?_
  refine Reply.Goes.bind (expect_goes (by simp) h₂) fun p s₃ h₃ => ?_
  refine Reply.Goes.bind (rangeTo_goes h₃) fun p s₄ h₄ => ?_
  refine Reply.Goes.bind (expect_goes (by simp) h₄) fun p s₅ h₅ => ?_
  refine Reply.Goes.bind (bound_goes h₅) fun high s₆ h₆ => ?_
  refine Reply.Goes.bind (skipBlank_goes h₆) fun p s₇ h₇ => ?_
  refine Reply.Goes.bind (expect_goes hc h₇) fun p s₈ h₈ => ?_
  exact ⟨rfl, h₈.mono (by omega)⟩

lemma range_goes (h : GotTo c s₀ base o s pos) :
    (range pos c s).GoesTo c s₀ base (o + 1) (range pos c s) := by
  unfold range Reader.range
  refine lookAt_goes h.reachable ?_
  intro seen s' looked
  cases seen
  case openBracket => exact rangeAfter_goes true (by simp) (h.past looked (by simp))
  case openBrace => exact rangeAfter_goes false (by simp) (h.past looked (by simp))
  all_goals exact refuseAt_goes (h.after looked) _

/-! ## Groups and clauses -/

/-- What is asked of the sequences in groups, of two kinds: from every place from `o` on they reply
the same and do not go back. -/
def InnerGoes (c : Setting) (o : Nat) (inner inner' : Nat → Production (Taken Query)) : Prop :=
  ∀ {s : State} {pos : Nat}, Reachable c s → o ≤ s.offsetAt c.source pos →
    (inner pos c s).GoesTo c s pos (s.offsetAt c.source pos) (inner' pos c s)

lemma InnerGoes.mono {inner inner' : Nat → Production (Taken Query)}
    (hinner : InnerGoes c o inner inner') {x : Nat} (hx : o ≤ x) : InnerGoes c x inner inner' :=
  fun h place => hinner h (le_trans hx place)

variable {inner inner' : Nat → Production (Taken Query)}

lemma group_goes (hinner : InnerGoes c (o + 1) inner inner') (h : GotTo c s₀ base o s pos) :
    (group inner pos c s).GoesTo c s₀ base (o + 1) (group inner' pos c s) := by
  unfold group Reader.group
  refine nested_goes h (fun {s'} opened => ?_) fun a s d got => got.withDepth d
  refine Reply.Goes.bind (expect_goes (by simp) opened) fun p s₁ h₁ => ?_
  refine Reply.Goes.bind (skipBlank_goes h₁) fun p s₂ h₂ => ?_
  refine Reply.Goes.bind ((hinner h₂.reachable h₂.place).since h₂ fun a s' got =>
    (h₂.trans got).mono h₂.place) fun body s₃ h₃ => ?_
  refine Reply.Goes.bind (skipBlank_goes h₃) fun p s₄ h₄ => ?_
  refine Reply.Goes.bind (expect_goes (by simp) h₄) fun p s₅ h₅ => ?_
  exact ⟨rfl, h₅.mono (Nat.le_succ _)⟩

lemma marker_goes (h : GotTo c s₀ base o s pos) :
    (marker pos c s).GoesTo c s₀ base o (marker pos c s) := by
  unfold marker Cursor.marker
  refine lookAt_goes h.reachable ?_
  intro seen s' looked
  cases seen
  case plus => exact ⟨rfl, (h.past looked (by simp)).mono (Nat.le_succ o)⟩
  case minus => exact ⟨rfl, (h.past looked (by simp)).mono (Nat.le_succ o)⟩
  all_goals exact ⟨rfl, h.after looked⟩

lemma field_goes (h : GotTo c s₀ base o s pos) :
    (field pos c s).GoesTo c s₀ base o (field pos c s) := by
  unfold field Cursor.field
  refine lookAt_goes h.reachable ?_
  intro seen s₁ looked
  have here := h.after looked
  split_ifs with hword
  · have word := h.past looked (by simp [hword])
    refine next_goes (lookAt_goes here.reachable ?_)
    intro seen' s₂ looked'
    split_ifs with hcolon
    · have colon := word.past looked' (by simp [hcolon])
      refine textAt_goes colon.reachable fun name => ?_
      split_ifs
      · exact ⟨rfl, here.after looked'⟩
      · exact ⟨rfl, colon.mono (by omega)⟩
    · exact ⟨rfl, here.after looked'⟩
  · exact ⟨rfl, here⟩

lemma boost_goes (h : GotTo c s₀ base o s pos) :
    (boost pos c s).GoesTo c s₀ base o (boost pos c s) := by
  unfold boost Cursor.boost
  refine lookAt_goes h.reachable ?_
  intro seen s' looked
  split_ifs with heq
  · have past := h.past looked (by simp [heq])
    exact textAt_goes past.reachable fun _ => ⟨rfl, past.mono (Nat.le_succ o)⟩
  · exact ⟨rfl, (h.after looked).record _ _⟩

lemma value_goes (hinner : InnerGoes c (o + 1) inner inner') (field : Option String)
    (marker : Option Marker) (h : GotTo c s₀ base o s pos) :
    (value inner field marker pos c s).GoesTo c s₀ base (o + 1)
      (value inner' field marker pos c s) := by
  unfold value Reader.value
  refine lookAt_goes h.reachable ?_
  intro seen s' looked
  have here := h.after looked
  cases seen
  case word =>
    exact Reply.Goes.bind (term_goes (h.past looked (by simp))) fun _ _ got => ⟨rfl, got⟩
  case phrase =>
    exact Reply.Goes.bind (phrase_goes (h.past looked (by simp))) fun _ _ got => ⟨rfl, got⟩
  case openParen => exact Reply.Goes.bind (group_goes hinner here) fun _ _ got => ⟨rfl, got⟩
  -- only with a field does a bracket start a value
  case openBracket =>
    cases field with
    | none => exact refuseAt_goes here _
    | some name => exact Reply.Goes.bind (range_goes here) fun _ _ got => ⟨rfl, got⟩
  case openBrace =>
    cases field with
    | none => exact refuseAt_goes here _
    | some name => exact Reply.Goes.bind (range_goes here) fun _ _ got => ⟨rfl, got⟩
  all_goals exact refuseAt_goes here _

lemma clause_goes (hinner : InnerGoes c (o + 1) inner inner') (operator : Option Operator)
    (h : GotTo c s₀ base o s pos) :
    (clause inner operator pos c s).GoesTo c s₀ base (o + 1) (clause inner' operator pos c s) := by
  unfold clause Reader.clause
  refine Reply.Goes.bind (marker_goes h) fun marker s₁ h₁ => ?_
  refine Reply.Goes.bind (field_goes h₁) fun field s₂ h₂ => ?_
  refine Reply.Goes.bind (value_goes hinner field.1 marker.1 h₂) fun make s₃ h₃ => ?_
  refine Reply.Goes.bind (boost_goes h₃) fun boost s₄ h₄ => ?_
  exact ⟨rfl, h₄⟩

/-! ## Sequences -/

lemma joinedClause_goes (hinner : InnerGoes c (o + 1) inner inner')
    (h : GotTo c s₀ base o s pos) :
    (joinedClause inner pos c s).GoesTo c s₀ base (o + 1) (joinedClause inner' pos c s) := by
  unfold joinedClause Reader.joinedClause
  refine Reply.Goes.bind (expect_goes (by simp) h) fun p s₁ h₁ => lookAt_goes h₁.reachable ?_
  intro seen s₂ looked
  cases hop : operatorOf? seen with
  | some operator =>
    have keyword := h₁.past looked (OnDemand.ne_of_operatorOf? hop rfl)
    refine next_goes (Reply.Goes.bind (expect_goes (by simp) keyword) fun p s₃ h₃ => ?_)
    exact clause_goes hinner (some operator) (h₃.mono (by omega))
  | none =>
    have missed := (h₁.after looked).record p .keywords
    exact clause_goes hinner none (missed.mono (Nat.le_succ o))

/-- Further clauses are joined on until one is refused, each with fewer bytes remaining. -/
lemma moreClauses_goes {joined joined' : Nat → Production (Taken Clause)}
    (hjoined : ∀ {s : State} {pos : Nat}, Reachable c s → o ≤ s.offsetAt c.source pos →
      (joined pos c s).GoesTo c s pos (s.offsetAt c.source pos + 1) (joined' pos c s))
    {steps steps' : Nat} (found : List Clause) (h : GotTo c s₀ base o s pos)
    (room : Text.byteSize c.source < s.offsetAt c.source pos + steps)
    (room' : Text.byteSize c.source < s.offsetAt c.source pos + steps') :
    (moreClauses joined steps found pos c s).GoesTo c s₀ base o
      (moreClauses joined' steps' found pos c s) := by
  have inside := h.reachable.paved.offsetAt_le pos
  -- both numbers of steps stay above the bytes remaining, so neither can be zero
  induction steps generalizing steps' found s pos with
  | zero => omega
  | succ steps ih =>
    obtain ⟨steps', rfl⟩ : ∃ n, steps' = n + 1 := ⟨steps' - 1, by omega⟩
    have step := hjoined h.reachable h.place
    unfold moreClauses
    cases hp : joined pos c s with
    | took a s' =>
      rw [hp] at step
      obtain ⟨hq, got⟩ := step
      have further := got.place
      have place := h.place
      rw [hq]
      exact ih (a.1 :: found) ((h.trans got).mono (by omega)) (by omega) (by omega)
        (got.reachable.paved.offsetAt_le a.2)
    | refused s' =>
      rw [hp] at step
      obtain ⟨hq, since⟩ := step
      rw [hq]
      exact ⟨rfl, h.back since⟩
    | fault cause =>
      rw [hp] at step
      exact step.elim

/-- **Sequences go forward and give out**, and are the same with any two numbers of steps that are
more than the bytes remaining. -/
lemma sequence_goes {steps steps' : Nat} (h : Reachable c s)
    (room : Text.byteSize c.source < s.offsetAt c.source pos + steps)
    (room' : Text.byteSize c.source < s.offsetAt c.source pos + steps') :
    (Production.sequence steps pos c s).GoesTo c s pos (s.offsetAt c.source pos + 1)
      (Production.sequence steps' pos c s) := by
  have inside := h.paved.offsetAt_le pos
  induction steps generalizing steps' s pos with
  | zero => omega
  | succ steps ih =>
    obtain ⟨steps', rfl⟩ : ∃ n, steps' = n + 1 := ⟨steps' - 1, by omega⟩
    -- one step less is enough for the sequences in groups, which are begun further on
    have inner : InnerGoes c (s.offsetAt c.source pos + 1) (Production.sequence steps)
        (Production.sequence steps') := by
      intro s₁ p reachable place
      refine Reply.Goes.mono (ih reachable (by omega) (by omega)
        (reachable.paved.offsetAt_le p)) ?_
      exact fun a s' got => got.mono (Nat.le_succ _)
    unfold Production.sequence Reader.sequence
    refine Reply.Goes.bind (clause_goes inner none (GotTo.here h pos)) fun first s₁ h₁ => ?_
    have place := h₁.place
    refine Reply.Goes.bind (moreClauses_goes (fun {s₂ p} reachable onward => ?_) [] h₁ (by omega)
      (by omega)) fun more s₂ h₂ => ?_
    · exact joinedClause_goes (inner.mono (by omega)) (GotTo.here reachable p)
    · exact ⟨rfl, h₂⟩

/-- A whole query gives out as well. -/
lemma query_goes {steps steps' : Nat} (h : Reachable c s) (room : Text.byteSize c.source < steps)
    (room' : Text.byteSize c.source < steps') :
    (Production.query steps c s).Goes c s 0 (fun _ s' => Reachable c s')
      (Production.query steps' c s) := by
  unfold Production.query Reader.query
  refine Reply.Goes.bind (skipBlank_goes (GotTo.here h 0)) fun p s₁ h₁ => ?_
  refine Reply.Goes.bind ((sequence_goes h₁.reachable (by omega) (by omega)).since h₁
    fun a s' got => h₁.trans got) fun q s₂ h₂ => ?_
  refine Reply.Goes.bind (skipBlank_goes h₂) fun p s₃ h₃ => lookAt_goes h₃.reachable ?_
  intro seen s₄ looked
  split_ifs
  · exact ⟨rfl, looked.reachable⟩
  · exact refuseAt_goes (h₃.after looked) _

end

/-! ## Progress -/

/-- A reply that is no fault and leaves a reachable state.  What it takes ends at a place further
on, which is inside the source or its end. -/
def Reply.Progresses {α : Type} (c : Setting) (s : State) (pos : Nat) : Reply (Taken α) → Prop
  | .took a s' => Reachable c s' ∧ s.offsetAt c.source pos < s'.offsetAt c.source a.2 ∧
      s'.offsetAt c.source a.2 ≤ Text.byteSize c.source
  | .refused s' => Reachable c s'
  | .fault _ => False

section

variable {c : Setting} {s : State} {pos : Nat}

lemma Reply.GoesTo.progresses {α : Type} {x y : Reply (Taken α)}
    (h : x.GoesTo c s pos (s.offsetAt c.source pos + 1) y) : x.Progresses c s pos := by
  cases x with
  | took a s' =>
    obtain ⟨-, got⟩ := h
    exact ⟨got.reachable, got.place, got.reachable.paved.offsetAt_le a.2⟩
  | refused s' => exact h.2.reachable
  | fault cause => exact h

lemma Reply.Goes.eq {α : Type} {x y : Reply α} {T : α → State → Prop} {base : Nat}
    (h : x.Goes c s base T y) : y = x := by
  cases x with
  | took a s' => exact h.1
  | refused s' => exact h.1
  | fault cause => exact h.elim

/-- **Whatever is read makes progress**, from every reachable state and every index, whether or not
the tokens from there on are those cut from its place.  Given more steps than bytes remain, no
production meets a fault, and what it takes ends further on.  So every round of the sequence leaves
fewer bytes remaining, and of the sequences in groups only those are asked for that are begun with
fewer bytes remaining.  The number of such steps makes no difference: reading ends by itself,
whatever the limits are. -/
theorem reading_progresses (h : Reachable c s) (pos : Nat) {steps : Nat}
    (room : s.remaining c.source pos < steps) :
    (∀ operator, (clause (Production.sequence steps) operator pos c s).Progresses c s pos) ∧
      (joinedClause (Production.sequence steps) pos c s).Progresses c s pos ∧
      (Production.sequence steps pos c s).Progresses c s pos ∧
      (group (Production.sequence steps) pos c s).Progresses c s pos ∧
      (range pos c s).Progresses c s pos ∧
      (∀ a s', joinedClause (Production.sequence steps) pos c s = .took a s' →
        s'.remaining c.source a.2 < s.remaining c.source pos) ∧
      (∀ inner, (∀ p s', Reachable c s' → s'.remaining c.source p < s.remaining c.source pos →
          inner p c s' = Production.sequence steps p c s') →
        group inner pos c s = group (Production.sequence steps) pos c s ∧
          ∀ operator, clause inner operator pos c s =
            clause (Production.sequence steps) operator pos c s) ∧
      (∀ steps', s.remaining c.source pos < steps' →
        Production.sequence steps' pos c s = Production.sequence steps pos c s) ∧
      ∀ few many, Text.byteSize c.source < few → Text.byteSize c.source < many →
        Production.query few c s = Production.query many c s ∧
          ∀ cause, Production.query few c s ≠ .fault cause := by
  have inside := h.paved.offsetAt_le pos
  have here := GotTo.here h pos
  unfold State.remaining at *
  have inner : InnerGoes c (s.offsetAt c.source pos + 1) (Production.sequence steps)
      (Production.sequence steps) := by
    intro s₁ p reachable place
    refine Reply.Goes.mono (sequence_goes reachable (by omega) (by omega)) ?_
    exact fun a s' got => got.mono (Nat.le_succ _)
  have whole : (Production.sequence steps pos c s).GoesTo c s pos (s.offsetAt c.source pos + 1)
      (Production.sequence steps pos c s) := sequence_goes h (by omega) (by omega)
  have joined := joinedClause_goes inner here
  refine ⟨fun operator => (clause_goes inner operator here).progresses, joined.progresses,
    whole.progresses, (group_goes inner here).progresses, (range_goes here).progresses,
    ?_, ?_, ?_, ?_⟩
  · intro a s' heq
    have progress := joined.progresses
    rw [heq] at progress
    obtain ⟨-, further, inside'⟩ := progress
    omega
  · intro other agree
    have same : InnerGoes c (s.offsetAt c.source pos + 1) (Production.sequence steps) other := by
      intro s₁ p reachable place
      have inside' := reachable.paved.offsetAt_le p
      rw [agree p s₁ reachable (by omega)]
      exact inner reachable place
    exact ⟨(group_goes same here).eq, fun operator => (clause_goes same operator here).eq⟩
  · intro steps' room'
    exact (sequence_goes h (by omega) (by omega)).eq
  · intro few many hfew hmany
    have goes := query_goes h hfew hmany
    refine ⟨goes.eq.symm, ?_⟩
    intro cause heq
    rw [heq] at goes
    exact goes

/-- Behind a bound that began with a quote there are more tokens than there were, and yet fewer
bytes remain after each clause. -/
theorem reading_progresses_after_recut :
    let c : Setting := ⟨['[', '"', 'a', ' ', 'b', '"', ' ', 'd'], none⟩
    ∃ s, Reachable c s ∧ (Token.lex c.source).length < s.tokens.size ∧
      s.remaining c.source 2 < 6 ∧
      (joinedClause (Production.sequence 6) 2 c s).Progresses c s 2 ∧
      ∃ a s', joinedClause (Production.sequence 6) 2 c s = .took a s' ∧
        s'.remaining c.source a.2 < s.remaining c.source 2 := by
  intro c
  let lexed : State :=
    { tokens := #[⟨.openBracket, ⟨0, 1⟩⟩, ⟨.phrase, ⟨1, 5⟩⟩, ⟨.blank, ⟨6, 1⟩⟩, ⟨.word, ⟨7, 1⟩⟩] }
  let s : State :=
    { tokens := #[⟨.openBracket, ⟨0, 1⟩⟩, ⟨.phrase, ⟨1, 2⟩⟩, ⟨.blank, ⟨3, 1⟩⟩, ⟨.word, ⟨4, 1⟩⟩,
        ⟨.stray, ⟨5, 3⟩⟩]
      log := [.recut 3] }
  have tokens : (Token.lex c.source).toArray = lexed.tokens := by decide
  have start : Reachable c lexed := by
    have start : Reachable c { tokens := (Token.lex c.source).toArray } := .start none
    rwa [tokens] at start
  have read : bound 1 c lexed = .took ("\"a", 2) s := by
    dsimp only [c, lexed, s]
    rfl
  have reachable : Reachable c s := start.bound read
  have more : (Token.lex c.source).length < s.tokens.size := by decide
  have room : s.remaining c.source 2 < 6 := by decide
  obtain ⟨-, joined, -, -, -, fewer, -⟩ := reading_progresses reachable 2 room
  obtain ⟨a, s', taken⟩ : ∃ a s', joinedClause (Production.sequence 6) 2 c s = .took a s' :=
    ⟨_, _, rfl⟩
  exact ⟨s, reachable, more, room, joined, a, s', taken, fewer a s' taken⟩

end

end SearchQuery
