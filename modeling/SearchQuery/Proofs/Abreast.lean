import SearchQuery.Proofs.Coupling

/-!
# Reading two texts abreast

A text is rejected at a dead end `a`, and another text is the same up to the end of the token there.
The two are read abreast as long as the reader stays at places up to `a`, for what it sees there is
the same in both: a token that ends by `a`, or begins there, or a sign of one character.  What has
to be alike for this is `Setting.Alike`.

Now and then the reader of the first text does go on beyond `a`, or steps inside a token that lies
across `a`.  Then it is lost, in the sense that its furthest dead end will not be `a`.  So nothing
has to be known about the second text from there on.  `Reply.Strays` says this of what the first run
replies.  The last way for two runs to part is that a group of the second one is not opened, since
its limit on nesting is smaller.  The first run goes on behind the parenthesis then, which is
`Reply.Beyond`.

## The judgements

`Abreast c d a place o p` says that `p` replies in one of these ways when it is begun at the place
`o`, at most `a`, in states that match.  The value that it takes tells a place to go on from.
`Steady` adds what becomes of the first run when `o` lies inside a token across `a`.  Such a run
stays inside the token or gets lost.  Only a bound of a range comes out of a token again, because it
is read as characters; so the productions that begin with one are `Abreast` and not `Steady`.
-/

namespace SearchQuery

/-! ## Where a state has got to -/

namespace State

/-- Two states are the same, but for what was logged. -/
structure Matches (s t : State) : Prop where
  depth : s.depth = t.depth
  furthest : s.furthest = t.furthest
  lookaheads : s.lookaheads = t.lookaheads
  reached : s.reached = t.reached

/-- There is a dead end at a place or after it, unless a limit was reached. -/
def Ahead (s : State) (o : Nat) : Prop :=
  s.reached.isSome ∨ ∃ x, s.furthest.place = some x ∧ o ≤ x.2

/-- There is no dead end after a place. -/
def Behind (s : State) (o : Nat) : Prop := ∀ x, s.furthest.place = some x → x.2 ≤ o

/-- The furthest dead end is not at a place, unless a limit was reached. -/
def Misses (s : State) (a : Nat) : Prop :=
  s.reached.isSome ∨ ∀ x, s.furthest.place = some x → x.2 ≠ a

/-- Whatever place a state has got to, another state has got to as well. -/
def Precedes (s s' : State) : Prop := ∀ o, s.Ahead o → s'.Ahead o

/-- The state after a lookahead. -/
def look (s : State) (c : Setting) (o : Nat) : State :=
  { s.spendAt o with
    log := .lookedAt o (OnDemand.kindSeen c (s.spendAt o) o) :: (s.spendAt o).log }

variable {c d : Setting} {s s' t : State} {a o o' : Nat} {expected : KindSet}

lemma Ahead.mono (h : s.Ahead o') (ho : o ≤ o') : s.Ahead o := by
  rcases h with h | ⟨x, hx, hle⟩
  · exact Or.inl h
  · exact Or.inr ⟨x, hx, le_trans ho hle⟩

lemma Behind.mono (h : s.Behind o) (ho : o ≤ o') : s.Behind o' :=
  fun x hx => le_trans (h x hx) ho

lemma Ahead.misses (h : s.Ahead (a + 1)) : s.Misses a := by
  rcases h with h | ⟨x, hx, hle⟩
  · exact Or.inl h
  · right
    intro y hy
    rw [hx] at hy
    obtain rfl := Option.some.inj hy
    omega

lemma Behind.misses (h : s.Behind o) (ho : o < a) : s.Misses a := by
  right
  intro x hx
  have := h x hx
  omega

lemma Precedes.refl (s : State) : s.Precedes s := fun _ h => h

lemma Precedes.trans {s'' : State} (h : s.Precedes s') (h' : s'.Precedes s'') : s.Precedes s'' :=
  fun o ho => h' o (h o ho)

/-! ### Steps -/

@[simp] lemma furthest_reach (cause : LimitReached) : (s.reach cause).furthest = s.furthest := by
  unfold reach
  cases s.reached <;> rfl

@[simp] lemma furthest_spendAt : (s.spendAt o).furthest = s.furthest := by
  unfold spendAt
  cases s.lookaheads with
  | none => rfl
  | some left =>
    cases left with
    | zero => exact furthest_reach _
    | succ left => rfl

@[simp] lemma furthest_look : (s.look c o).furthest = s.furthest := furthest_spendAt

lemma Ahead.later (h : s.Ahead o) (later : s.Later s') (hf : s'.furthest = s.furthest) :
    s'.Ahead o := by
  rcases h with h | ⟨x, hx, hle⟩
  · obtain ⟨cause, hcause⟩ := Option.isSome_iff_exists.1 h
    left
    rw [later.reached cause hcause]
    rfl
  · exact Or.inr ⟨x, by rwa [hf], hle⟩

lemma precedes_look : s.Precedes (s.look c o) :=
  fun _ h => h.later (s.later_lookAt o _) furthest_look

lemma Behind.look (h : s.Behind o') : (s.look c o).Behind o' := by
  intro x hx
  rw [furthest_look] at hx
  exact h x hx

lemma Misses.look (h : s.Misses a) : (s.look c o).Misses a := by
  rcases h with h | h
  · obtain ⟨cause, hcause⟩ := Option.isSome_iff_exists.1 h
    have kept := (s.later_lookAt o (OnDemand.kindSeen c (s.spendAt o) o)).reached cause hcause
    exact Or.inl (Option.isSome_iff_exists.2 ⟨cause, kept⟩)
  · exact Or.inr (by rwa [furthest_look])

lemma Matches.reach (h : s.Matches t) (cause : LimitReached) :
    (s.reach cause).Matches (t.reach cause) := by
  unfold State.reach
  rw [h.reached]
  cases hr : t.reached with
  | none => exact ⟨h.depth, h.furthest, h.lookaheads, rfl⟩
  | some first => exact h

lemma Matches.spendAt (h : s.Matches t) (o : Nat) : (s.spendAt o).Matches (t.spendAt o) := by
  unfold State.spendAt
  rw [h.lookaheads]
  cases ht : t.lookaheads with
  | none => exact h
  | some left =>
    cases left with
    | zero => exact h.reach _
    | succ left => exact ⟨h.depth, h.furthest, rfl, h.reached⟩

/-- Looking at the same place leaves matching states, whatever is seen. -/
lemma Matches.look (h : s.Matches t) (o : Nat) : (s.look c o).Matches (t.look d o) :=
  ⟨(h.spendAt o).depth, (h.spendAt o).furthest, (h.spendAt o).lookaheads, (h.spendAt o).reached⟩

lemma Matches.withDepth (h : s.Matches t) (e : Nat) :
    Matches { s with depth := e } { t with depth := e } :=
  ⟨rfl, h.furthest, h.lookaheads, h.reached⟩

lemma Matches.recordAt (h : s.Matches t) (o : Nat) (expected : KindSet) :
    (s.recordAt o expected).Matches (t.recordAt o expected) :=
  ⟨h.depth, by simp only [State.recordAt, h.furthest], h.lookaheads, h.reached⟩

/-- A record leaves the furthest place where it was, or takes its place further on. -/
lemma exists_place_recordAt (s : State) (o : Nat) (expected : KindSet) :
    ∃ x, (s.recordAt o expected).furthest.place = some x ∧ o ≤ x.2 ∧
      (x.2 = o ∨ s.furthest.place = some x) ∧
      ∀ y, s.furthest.place = some y → y.2 ≤ x.2 := by
  unfold State.recordAt Furthest.record
  cases hf : s.furthest.place with
  | none => exact ⟨(o, o), rfl, le_rfl, Or.inl rfl, nofun⟩
  | some y =>
    dsimp only
    have only : ∀ x, y.2 ≤ x → ∀ z, some y = some z → z.2 ≤ x := by
      rintro x hx z ⟨⟩
      exact hx
    split_ifs with hlt heq
    · exact ⟨y, hf, le_of_lt hlt, Or.inr rfl, only _ le_rfl⟩
    · exact ⟨y, rfl, le_of_eq heq, Or.inr rfl, only _ le_rfl⟩
    · exact ⟨(o, o), rfl, le_rfl, Or.inl rfl, only o (by omega)⟩

lemma ahead_recordAt : (s.recordAt o expected).Ahead o := by
  obtain ⟨x, hx, hle, -, -⟩ := s.exists_place_recordAt o expected
  exact Or.inr ⟨x, hx, hle⟩

lemma precedes_recordAt : s.Precedes (s.recordAt o expected) := by
  intro o' h
  rcases h with h | ⟨y, hy, hle⟩
  · exact Or.inl h
  · obtain ⟨x, hx, -, -, further⟩ := s.exists_place_recordAt o expected
    exact Or.inr ⟨x, hx, le_trans hle (further y hy)⟩

lemma Behind.recordAt (h : s.Behind o) : (s.recordAt o expected).Behind o := by
  obtain ⟨x, hx, -, hplace, -⟩ := s.exists_place_recordAt o expected
  intro y hy
  rw [hx] at hy
  obtain rfl := Option.some.inj hy
  rcases hplace with rfl | hplace
  · exact le_rfl
  · exact h x hplace

/-- A record at a place that was got to before leaves the furthest dead end where it was. -/
lemma Misses.recordAt (h : s.Misses a) (ahead : s.Ahead o) : (s.recordAt o expected).Misses a := by
  rcases h with h | h
  · exact Or.inl h
  · rcases ahead with ahead | ⟨y, hy, hle⟩
    · exact Or.inl ahead
    · right
      obtain ⟨x, hx, -, hplace, further⟩ := s.exists_place_recordAt o expected
      intro z hz
      rw [hx] at hz
      obtain rfl := Option.some.inj hz
      rcases hplace with rfl | hplace
      · have same := further y hy
        have := h y hy
        omega
      · exact h x hplace

lemma precedes_reach (cause : LimitReached) : s.Precedes (s.reach cause) :=
  fun _ h => h.later (s.later_reach cause) (furthest_reach cause)

lemma isSome_reached_reach (cause : LimitReached) : (s.reach cause).reached.isSome := by
  unfold reach
  cases hr : s.reached <;> simp [hr]

end State

/-! ## Texts that are alike -/

namespace Setting

/-- The token at a place before `a` goes on beyond `a`. -/
def Straddles (c : Setting) (a o : Nat) : Prop := o < a ∧ a < c.next o

/-- What a bound of a range takes at a place. -/
def boundAt (c : Setting) (o : Nat) : List Char := (c.rest o).takeWhile (!endsBound ·)

/-- What a reader sees of two texts at places up to `a` is alike. -/
structure Alike (c d : Setting) (a : Nat) : Prop where
  kind : ∀ o ≤ a, ¬c.Straddles a o → d.kindAt o = c.kindAt o
  /-- A stray token is never gone past, so its end does not matter. -/
  token : ∀ o ≤ a, ¬c.Straddles a o → c.kindAt o ≠ .stray →
    d.textAt o = c.textAt o ∧ d.next o = c.next o
  /-- The first character alone tells of these whether they stand at a place. -/
  sign : ∀ o ≤ a, ∀ k ∈ [Kind.blank, .colon, .closeParen, .endOfInput],
    d.kindAt o = k ↔ c.kindAt o = k
  /-- A colon after a word at `a` might make it a field. -/
  colon : c.kindAt a = .word → c.kindAt (c.next a) ≠ .colon → d.kindAt (d.next a) ≠ .colon
  bound : ∀ o ≤ a, o + Text.byteSize (c.boundAt o) ≤ a → d.boundAt o = c.boundAt o
  full : ∀ e limit, c.fullAt e = some limit → d.fullAt e = some limit

lemma le_next (c : Setting) (o : Nat) : o ≤ c.next o := by
  rcases c.reads_at o with ⟨-, -, hn⟩ | ⟨-, -, hn⟩ <;> omega

lemma lt_next {c : Setting} {o : Nat} (h : c.kindAt o ≠ .endOfInput) : o < c.next o := by
  obtain ⟨form, -, hn⟩ := reads_of_kindAt rfl h
  have := Text.byteSize_pos form.ne_nil
  omega

end Setting

/-! ## Replies -/

section replies

variable {α : Type} (c d : Setting) (a : Nat) (place : α → Nat)

/-- A run never goes back behind the place where it begins, and gets to it if it refuses. -/
def Reply.Carries (o : Nat) (s : State) : Reply α → Prop
  | .took v s' => o ≤ place v ∧ s.Precedes s'
  | .refused s' => s'.Ahead o ∧ s.Precedes s'
  | .fault _ => True

/-- A run gets to a place. -/
def Reply.Beyond (o : Nat) : Reply α → Prop
  | .took v s => o ≤ place v ∨ s.Ahead o
  | .refused s => s.Ahead o
  | .fault _ => True

/-- A run misses `a` if it refuses, and takes only values from which that can be told. -/
def Reply.Strays (S : α → State → Prop) : Reply α → Prop
  | .took v s => S v s
  | .refused s => s.Misses a
  | .fault _ => True

/-- A place up to `a` to go on from, with no dead end after it. -/
def Kept (v : α) (s : State) : Prop := place v ≤ a ∧ s.Behind (place v)

/-- A place to go on from that does not lead back to `a`: beyond it, or inside a token across it. -/
def Lost (v : α) (s : State) : Prop :=
  s.Ahead (a + 1) ∨ a < place v ∨ c.Straddles a (place v) ∧ s.Behind (place v)

/-- Two runs take the same value in matching states, or both refuse in matching states, or the first
one is lost, or a limit on nesting keeps the second one from following the first one behind a
parenthesis. -/
inductive Reply.Abreast : Reply α → Reply α → Prop
  | took {v : α} {s t : State} (same : s.Matches t) (kept : Kept a place v s) :
      Abreast (.took v s) (.took v t)
  | refused {s t : State} (same : s.Matches t) : Abreast (.refused s) (.refused t)
  | strayed {x y : Reply α} (lost : x.Strays a (Lost c a place)) : Abreast x y
  | cut {x : Reply α} {t : State} {k e limit : Nat} (beyond : x.Beyond place (k + 1))
      (reached : t.reached = some (.nesting k limit)) (opens : c.fullAt e = none)
      (full : d.fullAt e = some limit) : Abreast x (.refused t)

/-- A production that is begun at `o` goes abreast. -/
structure Abreast (o : Nat) (p : Production α) : Prop where
  carries : ∀ s, (p c s).Carries place o s
  both : o ≤ a → ∀ s t, s.Matches t → s.Behind o → Reply.Abreast c d a place (p c s) (p d t)

/-- A production that goes abreast, and of which the first run is lost inside a token across `a`. -/
structure Steady (o : Nat) (p : Production α) : Prop extends Abreast c d a place o p where
  stalls : c.Straddles a o → ∀ s, s.Behind o → (p c s).Strays a (Lost c a place)

end replies

section rules

variable {α β : Type} {c d : Setting} {a k o : Nat} {place : α → Nat} {place' : β → Nat}
  {s t : State} {x : Reply α} {p : Production α} {f : α → Production β}

/-! ### Runs of the first text -/

lemma Reply.Carries.beyond (h : x.Carries place o s) (hk : k ≤ o ∨ s.Ahead k) :
    x.Beyond place k := by
  cases x with
  | fault cause => trivial
  | took v s' =>
    rcases hk with hk | hk
    · exact Or.inl (le_trans hk h.1)
    · exact Or.inr (h.2 k hk)
  | refused s' =>
    rcases hk with hk | hk
    · exact h.1.mono hk
    · exact h.2 k hk

/-- What is begun further on, in a later state, can be taken to begin before. -/
lemma Reply.Carries.after {o' : Nat} {s' : State} (h : x.Carries place o' s') (ho : o ≤ o')
    (hs : s.Precedes s') : x.Carries place o s := by
  cases x with
  | fault cause => trivial
  | took v s'' => exact ⟨le_trans ho h.1, hs.trans h.2⟩
  | refused s'' => exact ⟨h.1.mono ho, hs.trans h.2⟩

/-- A run that gets beyond `a` is lost. -/
lemma Reply.Beyond.strays (h : x.Beyond place (a + 1)) : x.Strays a (Lost c a place) := by
  cases x with
  | fault cause => trivial
  | refused s' => exact State.Ahead.misses h
  | took v s' =>
    rcases h with hv | ahead
    · exact Or.inr (Or.inl hv)
    · exact Or.inl ahead

lemma Reply.Carries.bind (hp : (p c s).Carries place o s)
    (hf : ∀ v s, (f v c s).Carries place' (place v) s) :
    ((p >>= f) c s).Carries place' o s := by
  rw [Production.bind_apply]
  generalize p c s = x at hp
  cases x with
  | fault cause => trivial
  | refused s₁ => exact hp
  | took v s₁ => exact (hf v s₁).after hp.1 hp.2

lemma Reply.Beyond.bind (hp : (p c s).Beyond place k)
    (hf : ∀ v s, (f v c s).Carries place' (place v) s) : ((p >>= f) c s).Beyond place' k := by
  rw [Production.bind_apply]
  generalize p c s = x at hp
  cases x with
  | fault cause => trivial
  | refused s₁ => exact hp
  | took v s₁ => exact (hf v s₁).beyond hp

lemma Reply.Strays.bind {S : α → State → Prop} {S' : β → State → Prop}
    (hp : (p c s).Strays a S) (hf : ∀ v s, S v s → (f v c s).Strays a S') :
    ((p >>= f) c s).Strays a S' := by
  rw [Production.bind_apply]
  generalize p c s = x at hp
  cases x with
  | fault cause => trivial
  | refused s₁ => exact hp
  | took v s₁ => exact hf v s₁ hp

/-- What goes on from a place to get lost from is lost. -/
lemma Steady.strays {v : α} (hf : Steady c d a place' (place v) (f v)) (h : Lost c a place v s) :
    (f v c s).Strays a (Lost c a place') := by
  rcases h with ahead | past | ⟨straddles, behind⟩
  · exact ((hf.carries s).beyond (Or.inr ahead)).strays
  · exact ((hf.carries s).beyond (Or.inl past)).strays
  · exact hf.stalls straddles s behind

/-! ### Putting productions together -/

lemma Abreast.bind (hp : Abreast c d a place o p)
    (hf : ∀ v, Steady c d a place' (place v) (f v)) : Abreast c d a place' o (p >>= f) := by
  refine ⟨fun s => (hp.carries s).bind fun v => (hf v).carries, ?_⟩
  intro ho s t matched behind
  have together := hp.both ho s t matched behind
  generalize hx : p c s = x at together
  generalize hy : p d t = y at together
  cases together with
  | took same kept =>
    rw [Production.bind_of_took hx, Production.bind_of_took hy]
    exact (hf _).both kept.1 _ _ same kept.2
  | refused same =>
    rw [Production.bind_apply, Production.bind_apply, hx, hy]
    exact .refused same
  | strayed lost => exact .strayed ((hx ▸ lost).bind fun v s => (hf v).strays)
  | cut beyond reached opens full =>
    rw [Production.bind_apply p f d t, hy]
    exact .cut ((hx ▸ beyond).bind fun v => (hf v).carries) reached opens full

lemma Steady.bind (hp : Steady c d a place o p) (hf : ∀ v, Steady c d a place' (place v) (f v)) :
    Steady c d a place' o (p >>= f) := by
  refine ⟨hp.toAbreast.bind hf, ?_⟩
  intro straddles s behind
  exact (hp.stalls straddles s behind).bind fun v s => (hf v).strays

/-- Where a token lies across `a`, it is enough to look at the first run. -/
lemma Steady.mk' (carries : ∀ s, (p c s).Carries place o s)
    (stalls : c.Straddles a o → ∀ s, s.Behind o → (p c s).Strays a (Lost c a place))
    (both : o ≤ a → ¬c.Straddles a o → ∀ s t, s.Matches t → s.Behind o →
      Reply.Abreast c d a place (p c s) (p d t)) : Steady c d a place o p := by
  refine ⟨⟨carries, ?_⟩, stalls⟩
  intro ho s t matched behind
  by_cases straddles : c.Straddles a o
  · exact .strayed (stalls straddles s behind)
  · exact both ho straddles s t matched behind

lemma steady_pure {v : α} (h : place v = o) : Steady c d a place o (pure v) := by
  refine ⟨⟨fun s => ⟨le_of_eq h.symm, .refl s⟩, ?_⟩, ?_⟩
  · intro ho s t matched behind
    exact .took matched ⟨h ▸ ho, h ▸ behind⟩
  · intro straddles s behind
    exact Or.inr (Or.inr ⟨h ▸ straddles, h ▸ behind⟩)

lemma abreast_pure {v : α} (h : place v = o) : Abreast c d a place o (pure v) :=
  (steady_pure h).toAbreast

/-! ### Steps -/

/-- What a lookahead sees stands there, unless it is the end. -/
lemma kindAt_of_kindSeen_ne {s : State} {k : Kind} (h : OnDemand.kindSeen c s o = k)
    (hk : k ≠ .endOfInput) : c.kindAt o = k := (kindAt_of_kindSeen h hk).2

lemma State.Matches.kindSeen (h : s.Matches t) (hk : d.kindAt o = c.kindAt o) :
    OnDemand.kindSeen d t o = OnDemand.kindSeen c s o := by
  unfold OnDemand.kindSeen
  rw [h.reached, hk]

lemma lookAt_apply (e : Setting) (s : State) (o : Nat) :
    OnDemand.lookAt o e s = .took (OnDemand.kindSeen e (s.spendAt o) o) (s.look e o) := rfl

lemma steady_lookAt_bind {f : Kind → Production β} (alike : c.Alike d a)
    (hf : ∀ k, (k ≠ .endOfInput → c.kindAt o = k) → Steady c d a place' o (f k)) :
    Steady c d a place' o (OnDemand.lookAt o >>= f) := by
  have next (s : State) := hf _ fun hk => kindAt_of_kindSeen_ne (s := s.spendAt o) rfl hk
  refine .mk' ?_ ?_ ?_
  · intro s
    exact ((next s).carries (s.look c o)).after le_rfl State.precedes_look
  · intro straddles s behind
    exact (next s).stalls straddles _ behind.look
  · intro ho straddles s t matched behind
    have seen := (matched.spendAt o).kindSeen (alike.kind o ho straddles)
    have together := (next s).both ho _ _ (matched.look (c := c) (d := d) o) behind.look
    show Reply.Abreast c d a place' (f _ c (s.look c o))
      (f (OnDemand.kindSeen d (t.spendAt o) o) d (t.look d o))
    rw [seen]
    exact together

/-- After the token at a place, a production need not go on inside a token: if this one does not end
by `a`, it leads beyond. -/
lemma steady_next_bind {f : Nat → Production β} (alike : c.Alike d a) (hk : c.kindAt o ≠ .stray)
    (hf : ∀ n, Abreast c d a place' n (f n)) :
    Steady c d a place' o (OnDemand.next o >>= f) := by
  have carries (s : State) : (f (c.next o) c s).Carries place' o s :=
    ((hf (c.next o)).carries s).after (c.le_next o) (.refl s)
  have past (s : State) (h : a < c.next o) : (f (c.next o) c s).Strays a (Lost c a place') :=
    (((hf (c.next o)).carries s).beyond (Or.inl h)).strays
  refine .mk' carries (fun straddles s _ => past s straddles.2) ?_
  intro ho straddles s t matched behind
  by_cases h : c.next o ≤ a
  · have same := (alike.token o ho straddles hk).2
    show Reply.Abreast c d a place' (f (c.next o) c s) (f (d.next o) d t)
    rw [same]
    exact (hf _).both h s t matched (behind.mono (c.le_next o))
  · exact .strayed (past s (not_le.1 h))

lemma steady_next (alike : c.Alike d a) (hk : c.kindAt o ≠ .stray) :
    Steady c d a id o (OnDemand.next o) := by
  rw [← bind_pure (OnDemand.next o)]
  exact steady_next_bind alike hk fun n => abreast_pure rfl

lemma steady_textAt_bind {f : List Char → Production β} (alike : c.Alike d a)
    (hk : c.kindAt o ≠ .stray) (hf : ∀ w, Steady c d a place' o (f w)) :
    Steady c d a place' o (OnDemand.textAt o >>= f) := by
  refine .mk' (hf (c.textAt o)).carries (hf (c.textAt o)).stalls ?_
  intro ho straddles s t matched behind
  show Reply.Abreast c d a place' (f (c.textAt o) c s) (f (d.textAt o) d t)
  rw [(alike.token o ho straddles hk).1]
  exact (hf _).both ho s t matched behind

lemma steady_miss {expected : KindSet} {p : Production β} (hp : Steady c d a place' o p) :
    Steady c d a place' o (OnDemand.miss o expected >>= fun _ => p) := by
  refine ⟨⟨?_, ?_⟩, ?_⟩
  · intro s
    exact (hp.carries (s.recordAt o expected)).after le_rfl State.precedes_recordAt
  · intro ho s t matched behind
    exact hp.both ho _ _ (matched.recordAt o expected) behind.recordAt
  · intro straddles s behind
    exact hp.stalls straddles _ behind.recordAt

lemma steady_refuseAt {expected : KindSet} :
    Steady c d a place o (OnDemand.refuseAt o expected) := by
  refine ⟨⟨?_, ?_⟩, ?_⟩
  · intro s
    exact ⟨State.ahead_recordAt, State.precedes_recordAt⟩
  · intro ho s t matched behind
    exact .refused (matched.recordAt o expected)
  · intro straddles s behind
    have recorded : (s.recordAt o expected).Behind o := behind.recordAt
    exact recorded.misses straddles.1

lemma steady_expect_bind {f : Nat → Production β} {kind : Kind} (alike : c.Alike d a)
    (hk : kind ≠ .endOfInput) (hstray : kind ≠ .stray) (hf : ∀ n, Abreast c d a place' n (f n)) :
    Steady c d a place' o (OnDemand.expect o kind >>= f) := by
  unfold OnDemand.expect Cursor.expect
  rw [bind_assoc]
  refine steady_lookAt_bind alike fun seen hseen => ?_
  split_ifs with h
  · have stands := hseen (by rwa [h])
    exact steady_next_bind alike (by rwa [stands, h]) hf
  · exact steady_refuseAt

lemma skipBlank_apply (e : Setting) (s : State) (o : Nat) :
    OnDemand.skipBlank o e s =
      .took (if OnDemand.kindSeen e (s.spendAt o) o = .blank then e.next o else o)
        (s.look e o) := by
  show (if OnDemand.kindSeen e (s.spendAt o) o = .blank then OnDemand.next o else pure o) e
    (s.look e o) = _
  split_ifs <;> rfl

lemma steady_skipBlank (alike : c.Alike d a) : Steady c d a id o (OnDemand.skipBlank o) := by
  unfold OnDemand.skipBlank Cursor.skipBlank
  refine steady_lookAt_bind alike fun seen hseen => ?_
  split_ifs with h
  · have stands := hseen (by simp [h])
    exact steady_next alike (by rw [stands, h]; decide)
  · exact steady_pure rfl

/-- Both runs see a blank or not, also inside a token across `a`, so a production that copes with
such a place may follow. -/
lemma abreast_skipBlank_bind {f : Nat → Production β} (alike : c.Alike d a)
    (hf : ∀ n, Abreast c d a place' n (f n)) :
    Abreast c d a place' o (OnDemand.skipBlank o >>= f) := by
  have skip (e : Setting) (s : State) := Production.bind_of_took (f := f) (skipBlank_apply e s o)
  refine ⟨?_, ?_⟩
  · intro s
    rw [skip]
    refine ((hf _).carries _).after ?_ State.precedes_look
    split_ifs
    · exact c.le_next o
    · exact le_rfl
  · intro ho s t matched behind
    have looked := matched.look (c := c) (d := d) o
    have blank : OnDemand.kindSeen d (t.spendAt o) o = .blank ↔
        OnDemand.kindSeen c (s.spendAt o) o = .blank := by
      unfold OnDemand.kindSeen
      rw [(matched.spendAt o).reached]
      cases (t.spendAt o).reached with
      | some cause => simp
      | none => exact alike.sign o ho .blank (by simp)
    rw [skip, skip]
    by_cases h : OnDemand.kindSeen c (s.spendAt o) o = .blank
    · rw [if_pos h, if_pos (blank.2 h)]
      have stands := kindAt_of_kindSeen_ne h (by simp)
      by_cases hnext : c.next o ≤ a
      · have within : ¬c.Straddles a o := fun straddles => by
          have := straddles.2
          omega
        rw [(alike.token o ho within (by simp [stands])).2]
        exact (hf _).both hnext _ _ looked (behind.look.mono (c.le_next o))
      · exact .strayed (((hf _).carries _).beyond (Or.inl (not_le.1 hnext))).strays
    · rw [if_neg h, if_neg (fun h' => h (blank.1 h'))]
      exact (hf o).both ho _ _ looked behind.look

/-- A bound of a range is read as characters, and so a place inside a token does not matter. -/
lemma abreast_bound_bind {f : Production.Taken String → Production β} (alike : c.Alike d a)
    (hf : ∀ v, Steady c d a place' v.2 (f v)) :
    Abreast c d a place' o (OnDemand.bound o >>= f) := by
  have bound : Abreast c d a (Prod.snd (α := String)) o (OnDemand.bound o) := by
    cases hw : c.boundAt o with
    | nil =>
      refine ⟨?_, ?_⟩
      · intro s
        rw [OnDemand.bound_of_nil hw]
        exact steady_refuseAt.carries (c := c) (d := d) (a := a) s
      · intro ho s t matched behind
        have hw' : d.boundAt o = [] := by
          rw [alike.bound o ho (by rw [hw]; exact ho), hw]
        rw [OnDemand.bound_of_nil hw, OnDemand.bound_of_nil hw']
        exact .refused (matched.recordAt o _)
    | cons first more =>
      refine ⟨?_, ?_⟩
      · intro s
        rw [OnDemand.bound_of_cons hw]
        exact ⟨Nat.le_add_right _ _, .refl s⟩
      · intro ho s t matched behind
        rw [OnDemand.bound_of_cons hw]
        by_cases hstop : o + Text.byteSize (first :: more) ≤ a
        · have hw' : d.boundAt o = first :: more := by
            rw [alike.bound o ho (by rwa [hw]), hw]
          rw [OnDemand.bound_of_cons hw']
          exact .took matched ⟨hstop, behind.mono (Nat.le_add_right _ _)⟩
        · exact .strayed (Or.inr (Or.inl (not_le.1 hstop)))
  exact bound.bind hf

/-! ### Groups -/

/-- Where the token of a kind stands, what goes on after it gets beyond the place. -/
lemma beyond_expect_bind {f : Nat → Production β} {kind : Kind} (stands : c.kindAt o = kind)
    (hk : kind ≠ .endOfInput) (hf : ∀ n s, (f n c s).Carries place' n s) (s : State) :
    ((OnDemand.expect o kind >>= f) c s).Beyond place' (o + 1) := by
  unfold OnDemand.expect Cursor.expect
  rw [bind_assoc]
  show ((ite (OnDemand.kindSeen c (s.spendAt o) o = kind) (OnDemand.next o)
    (OnDemand.refuseAt o (.only kind)) >>= f) c (s.look c o)).Beyond place' (o + 1)
  split_ifs with h
  · exact (hf (c.next o) _).beyond (Or.inl (Setting.lt_next (by rwa [stands])))
  · have reached : (s.spendAt o).reached.isSome := by
      unfold OnDemand.kindSeen at h
      cases hr : (s.spendAt o).reached with
      | some cause => rfl
      | none =>
        rw [hr] at h
        exact absurd stands h
    exact Or.inl reached

lemma Reply.Carries.closed {e : Nat} (h : x.Carries place o { s with depth := e }) :
    x.closed.Carries place o s := by
  cases x <;> exact h

lemma Reply.Strays.closed (h : x.Strays a (Lost c a place)) :
    x.closed.Strays a (Lost c a place) := by
  cases x <;> exact h

lemma Reply.Beyond.closed (h : x.Beyond place k) : x.closed.Beyond place k := by
  cases x <;> exact h

lemma Reply.Abreast.closed {x y : Reply α} (h : Reply.Abreast c d a place x y) :
    Reply.Abreast c d a place x.closed y.closed := by
  cases h with
  | @took v s t same kept =>
    refine .took ?_ kept
    rw [same.depth]
    exact same.withDepth _
  | @refused s t same =>
    refine .refused ?_
    rw [same.depth]
    exact same.withDepth _
  | strayed lost => exact .strayed lost.closed
  | cut beyond reached opens full => exact .cut beyond.closed reached opens full

lemma carries_nested (hp : Steady c d a place o p) (s : State) :
    (Production.nestedAt o p c s).Carries place o s := by
  cases h : c.fullAt s.depth with
  | some limit =>
    rw [Production.nestedAt_of_full h]
    exact ⟨Or.inl (State.isSome_reached_reach _), State.precedes_reach _⟩
  | none =>
    rw [Production.nestedAt_of_free h]
    exact (hp.carries _).closed

lemma strays_nested (hp : Steady c d a place o p) (straddles : c.Straddles a o) {s : State}
    (behind : s.Behind o) : (Production.nestedAt o p c s).Strays a (Lost c a place) := by
  cases h : c.fullAt s.depth with
  | some limit =>
    rw [Production.nestedAt_of_full h]
    exact Or.inl (State.isSome_reached_reach _)
  | none =>
    rw [Production.nestedAt_of_free h]
    exact (hp.stalls straddles { s with depth := s.depth + 1 } behind).closed

/-- The second run is cut short at a group that the first one opens, unless a limit was reached
before. -/
lemma abreast_cut (hp : Steady c d a place o p)
    (beyond : ∀ s, (p c s).Beyond place (o + 1)) {s t : State} (matched : s.Matches t)
    {limit : Nat} (opens : c.fullAt s.depth = none) (full : d.fullAt t.depth = some limit) :
    Reply.Abreast c d a place (p c { s with depth := s.depth + 1 }).closed
      (.refused (t.reach (.nesting o limit))) := by
  by_cases hr : s.reached = none
  · refine .cut (k := o) (beyond _).closed ?_ opens (matched.depth ▸ full)
    have hr' : t.reached = none := by rw [← matched.reached, hr]
    simp [State.reach, hr']
  · have ahead : s.Ahead (a + 1) := Or.inl (Option.isSome_iff_ne_none.2 hr)
    have carried := hp.carries { s with depth := s.depth + 1 }
    exact .strayed (carried.beyond (Or.inr ahead)).strays.closed

/-- A group that gets beyond its parenthesis can be cut off in the second run. -/
lemma steady_nested (alike : c.Alike d a) (hp : Steady c d a place o p)
    (beyond : ∀ s, (p c s).Beyond place (o + 1)) :
    Steady c d a place o (Production.nestedAt o p) := by
  refine .mk' (carries_nested hp) (fun straddles s behind => strays_nested hp straddles behind) ?_
  intro ho _ s t matched behind
  cases h : c.fullAt s.depth with
  | some limit =>
    have h' : d.fullAt t.depth = some limit := matched.depth ▸ alike.full _ _ h
    rw [Production.nestedAt_of_full h, Production.nestedAt_of_full h']
    exact .refused (matched.reach _)
  | none =>
    rw [Production.nestedAt_of_free h]
    cases h' : d.fullAt t.depth with
    | some limit =>
      rw [Production.nestedAt_of_full h']
      exact abreast_cut hp beyond matched h h'
    | none =>
      rw [Production.nestedAt_of_free h', ← matched.depth]
      exact (hp.both ho _ _ (matched.withDepth (s.depth + 1)) behind).closed

end rules

end SearchQuery
