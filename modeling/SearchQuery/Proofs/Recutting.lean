import SearchQuery.Proofs.Tiling

/-!
# Cutting anew at a place

Tokens depend on where cutting began.  A stretch of stray characters is one token from its first
character on and a shorter one from its second, and a quote that nothing closes takes all the rest
with it.  Cutting from two places comes to the same only where both have a token start:
`lexFrom_start` says that the tokens from the start of a token on are that token and those after it.

## Going to a place

`seek` keeps the tokens in front of a place.  Where the place lies between two tokens that is all,
and where it lies inside one, that token is ended there and the rest is cut anew.  Nothing is asked
of the tokens but that they lie side by side: `Token.Adjoin` is `Token.Tiles` with tokens of no
length let in, and it need not reach the end of the source.  Such tokens split at any place among
them (`Adjoin.split_at`), and the search by places finds where.

`Sought` collects what is then true of the index that `seek` answers and of the tokens it leaves.
-/

namespace SearchQuery

namespace Token

/-! ## From the start of a token on -/

/-- **Cutting can begin at the start of any token**: from there on the tokens are the same. -/
lemma lexFrom_start {source : List Char} {start i : Nat} {token : Token}
    (h : (lexFrom source start)[i]? = some token) :
    lexFrom source token.span.start = (lexFrom source start).drop i := by
  induction i generalizing start with
  | zero =>
    rw [← List.head?_eq_getElem?] at h
    obtain ⟨more, hl⟩ := List.head?_eq_some_iff.1 h
    obtain ⟨hstart, -⟩ := Setting.lexFrom_eq_cons (c := ⟨source, none⟩) hl
    rw [hstart, List.drop_zero]
  | succ i ih =>
    cases hl : lexFrom source start with
    | nil =>
      rw [hl] at h
      cases h
    | cons first more =>
      obtain ⟨-, -, -, hmore⟩ := Setting.lexFrom_eq_cons (c := ⟨source, none⟩) hl
      rw [hl, List.getElem?_cons_succ, hmore] at h
      rw [List.drop_succ_cons, hmore]
      exact ih h

/-! ## Tokens side by side -/

/-- Tokens side by side from one place to another. -/
inductive Adjoin : Nat → List Token → Nat → Prop
  | nil (o : Nat) : Adjoin o [] o
  | cons {token : Token} {more : List Token} {stop : Nat}
      (tail : Adjoin token.span.stop more stop) : Adjoin token.span.start (token :: more) stop

lemma Tiles.adjoin {start stop : Nat} {tokens : List Token} (h : Tiles start tokens stop) :
    Adjoin start tokens stop := by
  induction h with
  | nil o => exact Adjoin.nil o
  | cons nonempty tail ih => exact Adjoin.cons ih

namespace Adjoin

variable {start stop x : Nat} {tokens : List Token}

lemma le (h : Adjoin start tokens stop) : start ≤ stop := by
  induction h with
  | nil => exact le_rfl
  | cons tail ih => exact le_trans (Nat.le_add_right _ _) ih

lemma le_start_of_mem (h : Adjoin start tokens stop) {token : Token} (mem : token ∈ tokens) :
    start ≤ token.span.start := by
  induction h with
  | nil => simp at mem
  | @cons first more stop tail ih =>
    rcases List.mem_cons.1 mem with rfl | mem
    · exact le_rfl
    · exact le_trans (Nat.le_add_right _ _) (ih mem)

lemma stop_le_of_mem (h : Adjoin start tokens stop) {token : Token} (mem : token ∈ tokens) :
    token.span.stop ≤ stop := by
  induction h with
  | nil => simp at mem
  | cons tail ih =>
    rcases List.mem_cons.1 mem with rfl | mem
    · exact tail.le
    · exact ih mem

lemma append {middle : Nat} {back : List Token} (h : Adjoin start tokens middle)
    (h' : Adjoin middle back stop) : Adjoin start (tokens ++ back) stop := by
  induction h with
  | nil => exact h'
  | cons tail ih => exact cons (ih h')

/-- A place among tokens that lie side by side splits them: those in front all end at or before it,
and those behind start at or before it and all end after it. -/
lemma split_at (h : Adjoin start tokens stop) (hx : start ≤ x) :
    ∃ front middle back, tokens = front ++ back ∧ Adjoin start front middle ∧
      Adjoin middle back stop ∧ middle ≤ x ∧ ∀ token ∈ back, x < token.span.stop := by
  induction h with
  | nil o => exact ⟨[], o, [], rfl, nil o, nil o, hx, by simp⟩
  | @cons token more stop tail ih =>
    rcases Nat.lt_or_ge x token.span.stop with hlt | hge
    · refine ⟨[], _, token :: more, rfl, nil _, cons tail, hx, ?_⟩
      intro t mem
      rcases List.mem_cons.1 mem with rfl | mem
      · exact hlt
      · exact lt_of_lt_of_le hlt (le_trans (tail.le_start_of_mem mem) (Nat.le_add_right _ _))
    · obtain ⟨front, middle, back, rfl, before, after, hmiddle, hback⟩ := ih hge
      exact ⟨token :: front, middle, back, rfl, cons before, after, hmiddle, hback⟩

end Adjoin

/-! ## Places inside a token -/

/-- A place lies inside a token. -/
def Straddles (token : Token) (x : Nat) : Prop := token.span.start < x ∧ x < token.span.stop

instance (token : Token) (x : Nat) : Decidable (token.Straddles x) :=
  inferInstanceAs (Decidable (_ ∧ _))

/-- The token, ended at a place if that lies inside it. -/
def endedAt (x : Nat) (token : Token) : Token :=
  if token.Straddles x then { token with span := token.span.cutAt x } else token

lemma endedAt_of_straddles {token : Token} {x : Nat} (h : token.Straddles x) :
    token.endedAt x = { token with span := token.span.cutAt x } := if_pos h

lemma endedAt_of_not_straddles {token : Token} {x : Nat} (h : ¬token.Straddles x) :
    token.endedAt x = token := if_neg h

@[simp] lemma kind_endedAt (x : Nat) (token : Token) : (token.endedAt x).kind = token.kind := by
  unfold endedAt
  split_ifs <;> rfl

lemma not_straddles_of_stop_le {token : Token} {x : Nat} (h : token.span.stop ≤ x) :
    ¬token.Straddles x := fun straddles => absurd straddles.2 (not_lt.2 h)

lemma not_straddles_of_le_start {token : Token} {x : Nat} (h : x ≤ token.span.start) :
    ¬token.Straddles x := fun straddles => absurd straddles.1 (not_lt.2 h)

end Token

/-! ## Going to a place -/

/-- What going to a place `x` among tokens from `start` up to `stop` comes to: an index `i`, and the
state that is left. -/
structure Sought (c : Setting) (s : State) (start x stop i : Nat) (s' : State) : Prop where
  /-- A token starts at the place, and the index is its own. -/
  starts : x < stop → ∃ token, s'.tokens[i]? = some token ∧ token.span.start = x
  ends : x = stop → i = s'.tokens.size
  /-- In front of the index the tokens are those from before, ended at the place. -/
  below : ∀ j < i, s'.tokens[j]? = s.tokens[j]?.map (Token.endedAt x)
  /-- No token that started in front of the place is left behind. -/
  front : ∀ j token, s.tokens[j]? = some token → token.span.start < x → j < i
  between : (∀ token ∈ s.tokens, ¬token.Straddles x) → s' = s
  /-- Behind a token that is ended, all is cut anew from the place on. -/
  inside : (∃ token ∈ s.tokens, token.Straddles x) →
    s'.tokens.toList.drop i = Token.lexFrom c.source x ∧
      s' = { s with tokens := s'.tokens, log := .recut x :: s.log }
  /-- What is left lies side by side, as far as before or up to the end of the source. -/
  adjoin : ∃ last, Token.Adjoin start s'.tokens.toList last ∧
    (last = stop ∨ last = Text.byteSize c.source)

section Seek

variable {c : Setting} {s : State} {x start stop : Nat} {front back : List Token}

/-- A token behind others is among those that come after them. -/
lemma getElem?_behind {tokens : Array Token} (hlist : tokens.toList = front ++ back) {j : Nat}
    {token : Token} (h : tokens[j]? = some token) (hj : front.length ≤ j) : token ∈ back := by
  rw [← Array.getElem?_toList, hlist, List.getElem?_append_right hj] at h
  exact List.mem_of_getElem? h

/-- Between two tokens nothing is cut. -/
lemma sought_between (hlist : s.tokens.toList = front ++ back)
    (before : Token.Adjoin start front x) (after : Token.Adjoin x back stop)
    (hback : ∀ token ∈ back, x < token.span.stop) :
    Sought c s start x stop front.length s := by
  have apart : ∀ token ∈ s.tokens, ¬token.Straddles x := by
    intro token mem
    rw [← Array.mem_toList_iff, hlist, List.mem_append] at mem
    rcases mem with mem | mem
    · exact Token.not_straddles_of_stop_le (before.stop_le_of_mem mem)
    · exact Token.not_straddles_of_le_start (after.le_start_of_mem mem)
  refine ⟨?_, ?_, ?_, ?_, fun _ => rfl, ?_, stop, ?_, Or.inl rfl⟩
  · intro hx
    cases after with
    | nil => exact absurd hx (lt_irrefl _)
    | @cons token more stop tail =>
      refine ⟨token, ?_, rfl⟩
      rw [← Array.getElem?_toList, hlist, List.getElem?_append_right le_rfl, Nat.sub_self]
      rfl
  · intro hx
    have hnil : back = [] := by
      rw [List.eq_nil_iff_forall_not_mem]
      intro token mem
      have := hback token mem
      have := after.stop_le_of_mem mem
      omega
    rw [← Array.length_toList, hlist, hnil, List.append_nil]
  · intro j hj
    cases hget : s.tokens[j]? with
    | none => rfl
    | some token =>
      have mem := Array.mem_of_getElem? hget
      rw [Option.map_some, Token.endedAt_of_not_straddles (apart token mem)]
  · intro j token hget hstart
    by_contra hj
    have behind := getElem?_behind hlist hget (not_lt.1 hj)
    exact absurd (after.le_start_of_mem behind) (not_le.2 hstart)
  · rintro ⟨token, mem, straddles⟩
    exact absurd straddles (apart token mem)
  · rw [hlist]
    exact before.append after

/-- Up to the token that is ended, all tokens are those from before, ended at the place. -/
lemma getElem?_recutAt {token : Token} (hlist : s.tokens.toList = front ++ token :: back)
    (before : Token.Adjoin start front token.span.start) (straddles : token.Straddles x) {j : Nat}
    (hj : j < front.length + 1) :
    (Token.recutAt c.source s.tokens front.length token x)[j]? =
      s.tokens[j]?.map (Token.endedAt x) := by
  simp only [← Array.getElem?_toList, toList_recutAt hlist, hlist]
  rw [List.getElem?_append_left (by simpa using hj)]
  rcases Nat.lt_succ_iff_lt_or_eq.1 hj with hlt | rfl
  · have apart : ¬(front[j]).Straddles x := by
      apply Token.not_straddles_of_stop_le
      exact le_trans (before.stop_le_of_mem (List.getElem_mem hlt)) (le_of_lt straddles.1)
    rw [List.getElem?_append_left hlt, List.getElem?_append_left hlt,
      List.getElem?_eq_getElem hlt, Option.map_some, Token.endedAt_of_not_straddles apart]
  · simp [Token.endedAt_of_straddles straddles]

/-- Behind the token that is ended stands the first one that was cut anew. -/
lemma exists_start_recutAt {token : Token} (hlist : s.tokens.toList = front ++ token :: back)
    (hx : x < Text.byteSize c.source) (boundary : Text.IsBoundary c.source x) :
    ∃ first, (Token.recutAt c.source s.tokens front.length token x)[front.length + 1]? =
      some first ∧ first.span.start = x := by
  cases hl : Token.lexFrom c.source x with
  | nil =>
    have := Setting.lexFrom_eq_nil boundary hl
    omega
  | cons first more =>
    refine ⟨first, ?_, (Setting.lexFrom_eq_cons hl).1⟩
    rw [← Array.getElem?_toList, toList_recutAt hlist, hl, List.getElem?_append_right (by simp)]
    simp

/-- Inside a token, that token is ended and the rest cut anew. -/
lemma sought_inside {token : Token} (hlist : s.tokens.toList = front ++ token :: back)
    (before : Token.Adjoin start front token.span.start) (straddles : token.Straddles x)
    (after : Token.Adjoin token.span.stop back stop) (hsize : stop ≤ Text.byteSize c.source)
    (boundary : Text.IsBoundary c.source x) :
    Sought c s start x stop (front.length + 1)
      { s with
        tokens := Token.recutAt c.source s.tokens front.length token x
        log := .recut x :: s.log } := by
  have hxs : x < stop := lt_of_lt_of_le straddles.2 after.le
  have mem : token ∈ s.tokens := by
    rw [← Array.mem_toList_iff, hlist]
    exact List.mem_append_right _ List.mem_cons_self
  refine ⟨fun _ => exists_start_recutAt hlist (by omega) boundary, by omega,
    fun j hj => getElem?_recutAt hlist before straddles hj, ?_,
    fun apart => absurd straddles (apart token mem), fun _ => ⟨?_, rfl⟩,
    Text.byteSize c.source, ?_, Or.inr rfl⟩
  · intro j t hget hstart
    by_contra hj
    have hlist' : s.tokens.toList = (front ++ [token]) ++ back := by simp [hlist]
    have behind := getElem?_behind hlist' hget (by simpa using hj)
    have hle := after.le_start_of_mem behind
    have := straddles.2
    omega
  · show (Token.recutAt c.source s.tokens front.length token x).toList.drop _ = _
    rw [toList_recutAt hlist, List.drop_left' (by simp)]
  · show Token.Adjoin start (Token.recutAt c.source s.tokens front.length token x).toList _
    rw [toList_recutAt hlist]
    have shortened := (tiles_cutAt straddles.1).adjoin
    exact (before.append shortened).append (Setting.tiles_lexFrom boundary).adjoin

/-- **Going to a place finds the token that starts there**, among any tokens side by side. -/
lemma seek_sought (tokens : Token.Adjoin start s.tokens.toList stop)
    (hsize : stop ≤ Text.byteSize c.source) (boundary : Text.IsBoundary c.source x)
    (hx : start ≤ x) (hx' : x ≤ stop) :
    ∃ i s', Production.seek x c s = .took i s' ∧ Sought c s start x stop i s' := by
  obtain ⟨front, middle, back, hlist, before, after, hmiddle, hback⟩ := tokens.split_at hx
  have hcount : Token.countEndingBy s.tokens x = front.length :=
    Token.countEndingBy_eq hlist
      (fun token mem => le_trans (before.stop_le_of_mem mem) hmiddle) hback
  have hget : s.tokens[front.length]? = back.head? := by
    rw [← Array.getElem?_toList, hlist, List.getElem?_append_right le_rfl, Nat.sub_self,
      List.head?_eq_getElem?]
  unfold Production.seek
  rw [hcount]
  cases after with
  | nil =>
    obtain rfl : stop = x := le_antisymm hmiddle hx'
    simp only [hget, List.head?_nil]
    exact ⟨_, s, rfl, sought_between hlist before (Token.Adjoin.nil _) hback⟩
  | @cons token more stop tail =>
    simp only [hget, List.head?_cons]
    by_cases hle : x ≤ token.span.start
    · rw [if_pos hle]
      obtain rfl : token.span.start = x := le_antisymm hmiddle hle
      exact ⟨_, s, rfl, sought_between hlist before (Token.Adjoin.cons tail) hback⟩
    · rw [if_neg hle]
      exact ⟨_, _, rfl, sought_inside hlist before
        ⟨not_le.1 hle, hback token List.mem_cons_self⟩ tail hsize boundary⟩

/-- A bound is read if the place of the index is one between characters.  It is refused where it
would be empty, and else reading goes on at the place after it. -/
lemma bound_cases (c : Setting) (s : State) (pos : Nat) :
    (¬Text.IsBoundary c.source (s.offsetAt c.source pos) ∧
        Production.bound pos c s = .fault .notInSource) ∨
      Production.bound pos c s = Production.refuseAt pos (.only .rangeBound) c s ∨
      ∃ text x, s.offsetAt c.source pos < x ∧ Text.IsBoundary c.source x ∧
        x ≤ Text.byteSize c.source ∧
        Production.bound pos c s =
          (Production.seek x >>= fun next => pure (text, next)) c s := by
  set o := s.offsetAt c.source pos with ho
  cases hdrop : Text.dropBytes? o c.source with
  | none =>
    refine Or.inl ⟨by simp [Text.IsBoundary, hdrop], ?_⟩
    unfold Production.bound
    simp only [Production.bind_apply, Production.view, ← ho, hdrop, Production.abort]
  | some rest =>
    right
    cases hw : rest.takeWhile (!endsBound ·) with
    | nil => exact Or.inl (Production.bound_of_nil ho.symm hdrop hw)
    | cons d text =>
      obtain ⟨front, hsource, hfront⟩ := Text.dropBytes?_eq_some_iff.1 hdrop
      have hrest : rest = (d :: text) ++ rest.dropWhile (!endsBound ·) := by
        rw [← hw, List.takeWhile_append_dropWhile]
      have hpos := Text.byteSize_pos (List.cons_ne_nil d text)
      have boundary : Text.IsBoundary c.source (o + Text.byteSize (d :: text)) := by
        refine Text.isBoundary_iff.2 ⟨front ++ (d :: text), rest.dropWhile (!endsBound ·), ?_, ?_⟩
        · rw [hsource, List.append_assoc, ← hrest]
        · rw [Text.byteSize_append, hfront]
      have hsize := Setting.add_byteSize_rest boundary
      exact Or.inr ⟨_, _, by omega, boundary, by omega,
        Production.bound_of_cons ho.symm hdrop hw⟩

end Seek

/-- **Cutting anew agrees with what was cut before.**  From the start of any token on, the tokens
are that one and those after it; and going to a place among tokens side by side finds the token that
starts there, with those in front of it kept and, where the place lay inside a token, those from it
on cut anew. -/
theorem lexFrom_restarts (c : Setting) :
    (∀ start i token, Text.IsBoundary c.source start →
      (Token.lexFrom c.source start)[i]? = some token →
      Token.lexFrom c.source token.span.start = (Token.lexFrom c.source start).drop i) ∧
    ∀ (s : State) (start stop x : Nat), Token.Adjoin start s.tokens.toList stop →
      stop ≤ Text.byteSize c.source → Text.IsBoundary c.source x → start ≤ x → x ≤ stop →
      ∃ i s', Production.seek x c s = .took i s' ∧ Sought c s start x stop i s' := by
  constructor
  · intro start i token _ h
    exact Token.lexFrom_start h
  · intro s start stop x tokens hsize boundary hx hx'
    exact seek_sought tokens hsize boundary hx hx'

/-- A blank inside a phrase: the phrase ends there, and what follows is cut as if there were no
quote before it. -/
theorem lexFrom_restarts_inside_phrase :
    let c : Setting := ⟨['"', 'b', ' ', 'é', '"', ' ', 'c'], none⟩
    let s : State := { tokens := (Token.lex c.source).toArray }
    (Text.IsBoundary c.source 0 ∧ (Token.lexFrom c.source 0)[1]? = some ⟨.blank, ⟨6, 1⟩⟩ ∧
      Token.lexFrom c.source 6 = (Token.lexFrom c.source 0).drop 1) ∧
    Token.Adjoin 0 s.tokens.toList 8 ∧ 8 ≤ Text.byteSize c.source ∧ Text.IsBoundary c.source 2 ∧
      ∃ i s', Production.seek 2 c s = .took i s' ∧ Sought c s 0 2 8 i s' := by
  intro c s
  obtain ⟨restarts, sought⟩ := lexFrom_restarts c
  have first : (Token.lexFrom c.source 0)[1]? = some ⟨.blank, ⟨6, 1⟩⟩ := by decide +kernel
  have size : 8 = Text.byteSize c.source := by decide +kernel
  have zero : Text.IsBoundary c.source 0 := Text.isBoundary_zero _
  have two : Text.IsBoundary c.source 2 := by decide +kernel
  have tokens : Token.Adjoin 0 s.tokens.toList 8 := by
    rw [size]
    exact (Setting.tiles_lexFrom zero).adjoin
  exact ⟨⟨zero, first, restarts 0 1 _ zero first⟩, tokens, size.le, two,
    sought s 0 8 2 tokens size.le two (by decide) (by decide)⟩

end SearchQuery
