import SearchQuery.Proofs.CutOrder
import SearchQuery.Proofs.Lines
import SearchQuery.Proofs.LongestMatch

/-!
# States that reading can be in

A state changes only by a few steps: a lookahead, a record of what was looked for, a limit that is
reached, a group that is opened or closed, and a bound that is gone past.  `Reachable` are the
states that these lead to from the tokens of the whole source.  The steps may be taken anywhere and
in any order, so that there are more such states than those of actual runs, and going back to an
earlier index is no step at all.

In all of them the tokens are pieces of the source, none of them empty, side by side from its start
to its end, which is `State.Paved`.  Only a bound changes tokens.  It ends one of them at a place
inside it, and those that it cuts anew are pieces again.

So an index stands for a place between characters (`Paved.isBoundary_offsetAt`), every token has a
text (`Paved.textAt`), and a token takes the place further on (`Paved.offsetAt_lt_succ`).
-/

namespace SearchQuery

open Production

/-! ## Pieces of the source -/

namespace Token

/-- The token covers a piece of the source that is not empty. -/
structure IsPiece (source : List Char) (token : Token) : Prop where
  nonempty : 0 < token.span.length
  start : Text.IsBoundary source token.span.start
  stop : Text.IsBoundary source token.span.stop

variable {source : List Char} {token : Token} {x : Nat}

@[simp] lemma start_endedAt (x : Nat) (token : Token) :
    (token.endedAt x).span.start = token.span.start := by
  unfold endedAt
  split_ifs <;> rfl

lemma Tiles.length_pos_of_mem {o stop : Nat} {tokens : List Token} (h : Tiles o tokens stop)
    (mem : token ∈ tokens) : 0 < token.span.length := by
  induction h with
  | nil => simp at mem
  | cons nonempty tail ih =>
    rcases List.mem_cons.1 mem with rfl | mem
    · exact nonempty
    · exact ih mem

lemma isPiece_of_mem_lexFrom {c : Setting} {o : Nat} (hb : Text.IsBoundary c.source o)
    (mem : token ∈ lexFrom c.source o) : token.IsPiece c.source := by
  obtain ⟨start, stop⟩ := (Setting.isExact_of_mem_lexFrom mem).boundaries
  exact ⟨(Setting.tiles_lexFrom hb).length_pos_of_mem mem, start, stop⟩

/-- A piece that is ended at a place between characters is still one. -/
lemma IsPiece.endedAt (h : token.IsPiece source) (hx : Text.IsBoundary source x) :
    (token.endedAt x).IsPiece source := by
  by_cases hs : token.Straddles x
  · rw [endedAt_of_straddles hs]
    refine ⟨Nat.sub_pos_of_lt hs.1, h.start, ?_⟩
    rwa [Span.stop_cutAt (le_of_lt hs.1)]
  · rwa [endedAt_of_not_straddles hs]

/-- A piece has a text. -/
lemma IsPiece.exists_slice? (h : token.IsPiece source) :
    ∃ text, token.span.slice? source = some text := by
  obtain ⟨front, rest, rfl, hstart⟩ := Text.isBoundary_iff.1 h.start
  obtain ⟨front', back, hsource, hstop⟩ := Text.isBoundary_iff.1 h.stop
  have ordered : Text.byteSize front ≤ Text.byteSize front' := by
    rw [hstart, hstop]
    exact Nat.le_add_right _ _
  obtain ⟨text, rfl⟩ := Text.prefix_of_byteSize_le hsource ordered
  refine ⟨text, Span.slice?_eq_some_iff.2 ⟨front, back, ?_, hstart, ?_⟩⟩
  · rw [hsource, List.append_assoc]
  · rw [Text.byteSize_append, hstart] at hstop
    exact Nat.add_left_cancel hstop

end Token

/-! ## States paved with pieces -/

/-- The tokens are pieces of the source, side by side from its start to its end. -/
structure State.Paved (c : Setting) (s : State) : Prop where
  adjoin : Token.Adjoin 0 s.tokens.toList (Text.byteSize c.source)
  pieces : ∀ token ∈ s.tokens, token.IsPiece c.source

namespace State.Paved

variable {c : Setting} {s s' : State} {pos : Nat}

lemma of_tokens (h : s.Paved c) (tokens : s'.tokens = s.tokens) : s'.Paved c := by
  refine ⟨?_, ?_⟩
  · rw [tokens]
    exact h.adjoin
  · rw [tokens]
    exact h.pieces

lemma isBoundary_offsetAt (h : s.Paved c) (pos : Nat) :
    Text.IsBoundary c.source (s.offsetAt c.source pos) := by
  unfold State.offsetAt
  cases hget : s.tokens[pos]? with
  | none => exact Text.isBoundary_byteSize c.source
  | some token => exact (h.pieces token (Array.mem_of_getElem? hget)).start

lemma offsetAt_le (h : s.Paved c) (pos : Nat) :
    s.offsetAt c.source pos ≤ Text.byteSize c.source :=
  Setting.le_byteSize (h.isBoundary_offsetAt pos)

/-- A token takes the place further on. -/
lemma offsetAt_lt_succ (h : s.Paved c) {kind : Kind} (hk : s.kindAt? pos = some kind) :
    s.offsetAt c.source pos < s.offsetAt c.source (pos + 1) := by
  obtain ⟨token, hget, -⟩ := Option.map_eq_some_iff.1 hk
  have nonempty := (h.pieces token (Array.mem_of_getElem? hget)).nonempty
  have start : s.offsetAt c.source pos = token.span.start := by
    unfold State.offsetAt
    rw [hget]
  calc s.offsetAt c.source pos
      < token.span.stop := by
        rw [start, Span.stop]
        exact Nat.lt_add_of_pos_right nonempty
    _ ≤ s.offsetAt c.source (pos + 1) := State.stop_le_offsetAt h.adjoin hget (Nat.lt_succ_self pos)

/-- Every index has a text: that of its token, or none. -/
lemma textAt (h : s.Paved c) (pos : Nat) : ∃ text, Production.textAt pos c s = .took text s := by
  unfold Production.textAt
  cases hget : s.tokens[pos]? with
  | none => exact ⟨[], rfl⟩
  | some token =>
    obtain ⟨text, hslice⟩ := (h.pieces token (Array.mem_of_getElem? hget)).exists_slice?
    exact ⟨text, by simp only [hslice]⟩

end State.Paved

/-! ## Going past a bound -/

section

variable {c : Setting} {s s' : State} {x i : Nat}

/-- Going to a place keeps the source paved. -/
lemma Sought.paved (h : s.Paved c) (hx : Text.IsBoundary c.source x)
    (sought : Sought c s 0 x (Text.byteSize c.source) i s') : s'.Paved c := by
  by_cases hcut : ∃ token ∈ s.tokens, token.Straddles x
  · obtain ⟨last, adjoin, heq⟩ := sought.adjoin
    rw [or_self] at heq
    obtain ⟨behind, -⟩ := sought.inside hcut
    refine ⟨heq ▸ adjoin, ?_⟩
    intro token mem
    obtain ⟨j, hget⟩ := Array.getElem?_of_mem mem
    rcases Nat.lt_or_ge j i with hj | hj
    · rw [sought.below j hj] at hget
      obtain ⟨before, hbefore, rfl⟩ := Option.map_eq_some_iff.1 hget
      exact (h.pieces before (Array.mem_of_getElem? hbefore)).endedAt hx
    · refine Token.isPiece_of_mem_lexFrom hx ?_
      rw [← behind]
      refine List.mem_of_getElem? (i := j - i) ?_
      rw [List.getElem?_drop, Nat.add_sub_cancel' hj, Array.getElem?_toList, hget]
  · rw [sought.between fun token mem straddles => hcut ⟨token, mem, straddles⟩]
    exact h

/-- Going to a place keeps the places of all indices in front of the one that is found. -/
lemma Sought.offsetAt_of_lt {start stop j : Nat} (sought : Sought c s start x stop i s')
    (hj : j < i) : s'.offsetAt c.source j = s.offsetAt c.source j := by
  unfold State.offsetAt
  rw [sought.below j hj]
  cases s.tokens[j]? with
  | none => rfl
  | some token => exact Token.start_endedAt x token

/-- In a paved state a bound is refused, or reading goes on at the place after it. -/
lemma State.Paved.bound (h : s.Paved c) (pos : Nat) :
    Production.bound pos c s = refuseAt pos (.only .rangeBound) c s ∨
      ∃ text x i s', Production.bound pos c s = .took (text, i) s' ∧
        s.offsetAt c.source pos < x ∧ x ≤ Text.byteSize c.source ∧
        Text.IsBoundary c.source x ∧ Sought c s 0 x (Text.byteSize c.source) i s' := by
  rcases bound_cases c s pos with ⟨outside, -⟩ | heq | ⟨text, x, hx, boundary, hsize, heq⟩
  · exact absurd (h.isBoundary_offsetAt pos) outside
  · exact Or.inl heq
  · obtain ⟨i, s', hseek, sought⟩ := seek_sought h.adjoin le_rfl boundary (Nat.zero_le x) hsize
    rw [heq, bind_of_took hseek]
    exact Or.inr ⟨text, x, i, s', rfl, hx, hsize, boundary, sought⟩

end

/-! ## Reachable states -/

/-- The states that the steps of reading lead to, wherever they are taken. -/
inductive Reachable (c : Setting) : State → Prop
  | start (lookaheads : Option Nat) :
      Reachable c { tokens := (Token.lex c.source).toArray, lookaheads }
  | look {s s' : State} {pos : Nat} {kind : Kind} (h : Reachable c s)
      (looked : lookAt pos c s = .took kind s') : Reachable c s'
  | record {s : State} (h : Reachable c s) (pos : Nat) (expected : KindSet) :
      Reachable c (s.record c.source pos expected)
  | reach {s : State} (h : Reachable c s) (cause : LimitReached) : Reachable c (s.reach cause)
  | withDepth {s : State} (h : Reachable c s) (d : Nat) : Reachable c { s with depth := d }
  | bound {s s' : State} {pos : Nat} {a : Taken String} (h : Reachable c s)
      (read : bound pos c s = .took a s') : Reachable c s'

/-- **The tokens of a reachable state are pieces of the source**, side by side from its start to its
end. -/
lemma Reachable.paved {c : Setting} {s : State} (h : Reachable c s) : s.Paved c := by
  induction h with
  | start lookaheads =>
    have zero := Text.isBoundary_zero c.source
    refine ⟨(Setting.tiles_lexFrom zero).adjoin, ?_⟩
    intro token mem
    exact Token.isPiece_of_mem_lexFrom zero (List.mem_toArray.1 mem)
  | @look s s' pos kind h looked ih =>
    obtain ⟨s'', kind', hs, quiet, -⟩ := lookAt_quiet c s pos
    rw [hs] at looked
    cases looked
    exact ih.of_tokens quiet.tokens
  | record h pos expected ih => exact ih.of_tokens rfl
  | @reach s h cause ih => exact ih.of_tokens (tokens_reach s cause).1
  | withDepth h d ih => exact ih.of_tokens rfl
  | @bound s s' pos a h read ih =>
    rcases ih.bound pos with heq | ⟨text, x, i, s'', heq, -, -, boundary, sought⟩
    · rw [heq] at read
      cases read
    · rw [heq] at read
      cases read
      exact sought.paved ih boundary

end SearchQuery
