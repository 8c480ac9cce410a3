import SearchQuery.Proofs.OnDemand

/-!
# Tokens that tile the source

However often the source was cut anew, the tokens lie side by side and reach its end.  `Token.Tiles`
is that invariant.  It is what makes a search by places meaningful: `Token.countEndingBy_eq` reads
off the count of tokens in front of a place from any split of the tokens there.

## Going to a place

`Aligned` says that the tokens from an index on are those cut from a place on, which is all that
reading needs to know about them.  `seek_aligned` is the lemma the rest stands on: after a text that
is not empty, `seek` answers an index that is aligned with the place after it.  A token that the
place lies inside is shortened, and its kind is then that of a longer text.  No harm comes of that,
since it stands in front of the index that is answered, and no index up to the starting one changes.
-/

namespace SearchQuery

namespace Token

/-! ## Tiling -/

/-- Tokens side by side from one place to another, none of them empty. -/
inductive Tiles : Nat → List Token → Nat → Prop
  | nil (o : Nat) : Tiles o [] o
  | cons {token : Token} {more : List Token} {stop : Nat} (nonempty : 0 < token.span.length)
      (tail : Tiles token.span.stop more stop) : Tiles token.span.start (token :: more) stop

lemma Tiles.start_eq {o stop : Nat} {token : Token} {more : List Token}
    (h : Tiles o (token :: more) stop) : token.span.start = o := by
  cases h
  rfl

lemma Tiles.le {o stop : Nat} {tokens : List Token} (h : Tiles o tokens stop) : o ≤ stop := by
  induction h with
  | nil => exact le_rfl
  | cons nonempty tail ih =>
    unfold Span.stop at ih
    omega

lemma tiles_append {o stop : Nat} {front back : List Token} :
    Tiles o (front ++ back) stop ↔ ∃ middle, Tiles o front middle ∧ Tiles middle back stop := by
  constructor
  · intro h
    induction front generalizing o with
    | nil => exact ⟨o, Tiles.nil o, h⟩
    | cons token front ih =>
      cases h with
      | cons nonempty tail =>
        obtain ⟨middle, hfront, hback⟩ := ih tail
        exact ⟨middle, Tiles.cons nonempty hfront, hback⟩
  · rintro ⟨middle, hfront, hback⟩
    induction hfront with
    | nil => exact hback
    | cons nonempty tail ih => exact Tiles.cons nonempty (ih hback)

/-- Tokens that all end at or before a place reach no further than the place. -/
lemma Tiles.stop_le {o stop x : Nat} {tokens : List Token} (h : Tiles o tokens stop) (ho : o ≤ x)
    (hx : ∀ token ∈ tokens, token.span.stop ≤ x) : stop ≤ x := by
  induction h with
  | nil => exact ho
  | cons nonempty tail ih =>
    refine ih (hx _ List.mem_cons_self) ?_
    intro token mem
    exact hx token (List.mem_cons_of_mem _ mem)

/-- Of tokens that reach up to a place, each ends at or before it. -/
lemma Tiles.stop_le_of_mem {o stop : Nat} {tokens : List Token} (h : Tiles o tokens stop)
    {token : Token} (mem : token ∈ tokens) : token.span.stop ≤ stop := by
  induction h with
  | nil => simp at mem
  | cons nonempty tail ih =>
    rcases List.mem_cons.1 mem with rfl | mem
    · exact tail.le
    · exact ih mem

/-- Any place splits tiling tokens into those that end at or before it and those that end after. -/
lemma Tiles.split {o stop : Nat} {tokens : List Token} (h : Tiles o tokens stop) (x : Nat) :
    ∃ front back, tokens = front ++ back ∧ (∀ token ∈ front, token.span.stop ≤ x) ∧
      ∀ token ∈ back, x < token.span.stop := by
  induction h with
  | nil => exact ⟨[], [], rfl, by simp, by simp⟩
  | @cons token more stop nonempty tail ih =>
    by_cases hx : token.span.stop ≤ x
    · obtain ⟨front, back, rfl, hfront, hback⟩ := ih
      refine ⟨token :: front, back, rfl, ?_, hback⟩
      intro t mem
      rcases List.mem_cons.1 mem with rfl | mem
      · exact hx
      · exact hfront t mem
    · refine ⟨[], token :: more, rfl, by simp, ?_⟩
      -- every later token ends after this one
      have later : ∀ {o stop tokens}, Tiles o tokens stop → ∀ t ∈ tokens, o < t.span.stop := by
        intro o stop tokens h
        induction h with
        | nil => simp
        | cons nonempty tail ih =>
          intro t mem
          rcases List.mem_cons.1 mem with rfl | mem
          · unfold Span.stop
            omega
          · have := ih t mem
            unfold Span.stop at this ⊢
            omega
      intro t mem
      rcases List.mem_cons.1 mem with rfl | mem
      · omega
      · have := later tail t mem
        omega

/-! ## Searching by places -/

/-- Halving finds where a test stops to hold, if it holds of a front part of the indices. -/
lemma bisect_eq {test : Nat → Bool} {k : Nat} : ∀ {halvings base size : Nat}, size ≤ halvings →
    0 < size → base ≤ k → k ≤ base + size →
    (∀ i, base ≤ i → i < base + size → (test i = true ↔ i < k)) →
    bisect test halvings base size = if k = base then base else k - 1 := by
  intro halvings
  induction halvings with
  | zero =>
    intro base size hle hpos
    omega
  | succ halvings ih =>
    intro base size hle hpos hbase hk htest
    unfold bisect
    by_cases hone : size ≤ 1
    · rw [if_pos hone]
      split <;> omega
    · rw [if_neg hone]
      have half := htest (base + size / 2) (by omega) (by omega)
      by_cases hhalf : base + size / 2 < k
      · simp only [half.2 hhalf, if_true]
        rw [ih (by omega) (by omega) (by omega) (by omega)
          (fun i hi hi' => htest i (by omega) (by omega))]
        rw [if_neg (by omega), if_neg (by omega)]
      · have hfalse : test (base + size / 2) = false := by
          simpa using fun h => hhalf (half.1 h)
        simp only [hfalse, Bool.false_eq_true, if_false]
        exact ih (by omega) (by omega) (by omega) (by omega)
          (fun i hi hi' => htest i (by omega) (by omega))

/-- The count of tokens that end at or before a place is where the tokens split there. -/
lemma countEndingBy_eq {tokens : Array Token} {front back : List Token} {x : Nat}
    (h : tokens.toList = front ++ back) (hfront : ∀ token ∈ front, token.span.stop ≤ x)
    (hback : ∀ token ∈ back, x < token.span.stop) :
    countEndingBy tokens x = front.length := by
  have hsize : tokens.size = front.length + back.length := by
    rw [← Array.length_toList, h, List.length_append]
  have hget : ∀ i : Nat, tokens[i]? = (front ++ back)[i]? := by
    intro i
    rw [← h, Array.getElem?_toList]
  unfold countEndingBy
  extract_lets ends last
  have htest : ∀ i, ends i = true ↔ i < front.length := by
    intro i
    simp only [ends, hget]
    by_cases hi : i < front.length
    · have := hfront _ (List.getElem_mem hi)
      simp [List.getElem?_append_left hi, hi, this]
    · rw [List.getElem?_append_right (by omega)]
      cases hb : back[i - front.length]? with
      | none => simp [hi]
      | some token =>
        have := hback token (List.mem_of_getElem? hb)
        simp only [hi, iff_false, decide_eq_true_eq]
        omega
  have hlast : last = if front.length = 0 then 0 else front.length - 1 := by
    by_cases hzero : tokens.size = 0
    · simp only [last]
      rw [hzero, if_pos (by omega)]
      rfl
    · exact bisect_eq le_rfl (by omega) (by omega) (by omega) (fun i _ _ => htest i)
  clear_value ends last
  rw [hlast]
  by_cases hk : front.length = 0
  · rw [if_pos hk, if_neg (fun h0 => by have := (htest 0).1 h0; omega), hk]
  · rw [if_neg hk, if_pos ((htest _).2 (by omega))]
    omega

end Token

/-! ## The tokens from a place on -/

namespace Setting

variable {c : Setting} {o : Nat}

lemma isBoundary_add {front back : List Char} (hb : Text.IsBoundary c.source o)
    (h : c.rest o = front ++ back) : Text.IsBoundary c.source (o + Text.byteSize front) := by
  have hd := dropBytes?_eq_rest hb
  obtain ⟨before, hsource, hsize⟩ := Text.dropBytes?_eq_some_iff.1 hd
  refine Text.isBoundary_iff.2 ⟨before ++ front, back, ?_, ?_⟩
  · rw [hsource, h, List.append_assoc]
  · rw [Text.byteSize_append, hsize]

lemma add_byteSize_rest (hb : Text.IsBoundary c.source o) :
    o + Text.byteSize (c.rest o) = Text.byteSize c.source := by
  obtain ⟨before, hsource, hsize⟩ := Text.dropBytes?_eq_some_iff.1 (dropBytes?_eq_rest hb)
  calc o + Text.byteSize (c.rest o)
      = Text.byteSize (before ++ c.rest o) := by rw [Text.byteSize_append, hsize]
    _ = Text.byteSize c.source := by rw [← hsource]

lemma isBoundary_next (hb : Text.IsBoundary c.source o) :
    Text.IsBoundary c.source (c.next o) := by
  rcases reads_at c o with ⟨-, -, hn⟩ | ⟨-, hrest, hn⟩
  · rw [hn]
    exact hb
  · rw [hn]
    exact isBoundary_add hb hrest

/-- The tokens from a place on are the one that stands there and those from the place after it. -/
lemma lexFrom_eq_cons {token : Token} {more : List Token}
    (h : Token.lexFrom c.source o = token :: more) :
    token.span.start = o ∧ token.span.stop = c.next o ∧ 0 < token.span.length ∧
      more = Token.lexFrom c.source (c.next o) := by
  have hn : c.next o = token.span.stop := by
    rw [next, tokenAt?, h]
    rfl
  rw [lexFrom_eq] at h
  cases hs : Lexeme.scan (c.rest o) with
  | nil =>
    rw [hs] at h
    cases h
  | cons l lexemes =>
    obtain ⟨form, back, hrest, rfl⟩ := Lexeme.scan_eq_cons hs
    rw [hs] at h
    obtain ⟨rfl, rfl⟩ := List.cons.inj h
    have hback : c.rest (o + Text.byteSize l.text) = back := rest_add hrest
    refine ⟨rfl, hn.symm, ?_, ?_⟩
    · exact Text.byteSize_pos form.ne_nil
    · rw [hn, lexFrom_eq]
      show _ = Token.place (o + Text.byteSize l.text) (Lexeme.scan (c.rest (o + _)))
      rw [hback]

lemma lexFrom_eq_nil (hb : Text.IsBoundary c.source o) (h : Token.lexFrom c.source o = []) :
    o = Text.byteSize c.source := by
  have hnil : c.rest o = [] := by
    rcases reads_at c o with ⟨-, hnil, -⟩ | ⟨form, -, -⟩
    · exact hnil
    · have : c.kindAt o = .endOfInput := by rw [kindAt, tokenAt?, h]; rfl
      rw [this] at form
      exact form.elim
  simpa [hnil] using add_byteSize_rest hb

/-- **The tokens from a place on tile the rest of the source.** -/
lemma tiles_lexFrom (hb : Text.IsBoundary c.source o) :
    Token.Tiles o (Token.lexFrom c.source o) (Text.byteSize c.source) := by
  induction hl : Token.lexFrom c.source o generalizing o with
  | nil =>
    rw [← lexFrom_eq_nil hb hl]
    exact Token.Tiles.nil o
  | cons token more ih =>
    obtain ⟨hstart, hstop, hpos, rfl⟩ := lexFrom_eq_cons hl
    have tail := ih (isBoundary_next hb) rfl
    rw [← hstop] at tail ⊢
    rw [← hstart]
    exact Token.Tiles.cons hpos tail

/-- The tokens after some of those from a place on are the tokens from the place after these. -/
lemma lexFrom_of_append {front back : List Token} {stop : Nat} (hb : Text.IsBoundary c.source o)
    (h : Token.lexFrom c.source o = front ++ back) (ht : Token.Tiles o front stop) :
    back = Token.lexFrom c.source stop ∧ Text.IsBoundary c.source stop := by
  induction front generalizing o with
  | nil =>
    cases ht
    exact ⟨h.symm, hb⟩
  | cons token front ih =>
    obtain ⟨-, hstop, -, hmore⟩ := lexFrom_eq_cons h
    cases ht with
    | cons nonempty tail =>
      rw [hstop] at tail
      exact ih (isBoundary_next hb) hmore.symm tail

end Setting

/-! ## Indices and places -/

/-- The tokens from an index on are those of the source from a place on. -/
structure Aligned (c : Setting) (tokens : Array Token) (pos o : Nat) : Prop where
  boundary : Text.IsBoundary c.source o
  drop : tokens.toList.drop pos = Token.lexFrom c.source o

/-- An index shows what stands at a place. -/
structure Faces (c : Setting) (tokens : Array Token) (pos o : Nat) : Prop where
  boundary : Text.IsBoundary c.source o
  token : tokens[pos]? = c.tokenAt? o

/-- The tokens lie side by side and reach the end of the source. -/
def Tiled (c : Setting) (tokens : Array Token) : Prop :=
  ∃ start, Token.Tiles start tokens.toList (Text.byteSize c.source)

namespace Aligned

variable {c : Setting} {tokens : Array Token} {pos o : Nat}

lemma faces (h : Aligned c tokens pos o) : Faces c tokens pos o := by
  refine ⟨h.boundary, ?_⟩
  rw [Setting.tokenAt?, ← h.drop, List.head?_drop, Array.getElem?_toList]

lemma next (h : Aligned c tokens pos o) (hk : c.kindAt o ≠ .endOfInput) :
    Aligned c tokens (pos + 1) (c.next o) := by
  refine ⟨Setting.isBoundary_next h.boundary, ?_⟩
  rw [← List.tail_drop, h.drop]
  cases hl : Token.lexFrom c.source o with
  | nil => exact absurd (by rw [Setting.kindAt, Setting.tokenAt?, hl]; rfl) hk
  | cons token more =>
    obtain ⟨-, -, -, hmore⟩ := Setting.lexFrom_eq_cons hl
    exact hmore

end Aligned

namespace Faces

variable {c : Setting} {s : State} {pos o : Nat}

lemma offsetAt (h : Faces c s.tokens pos o) : s.offsetAt c.source pos = o := by
  unfold State.offsetAt
  rw [h.token]
  unfold Setting.tokenAt?
  cases hl : Token.lexFrom c.source o with
  | nil => exact (Setting.lexFrom_eq_nil h.boundary hl).symm
  | cons token more => exact (Setting.lexFrom_eq_cons hl).1

lemma textAt (h : Faces c s.tokens pos o) :
    Production.textAt pos c s = .took (c.textAt o) s := by
  unfold Production.textAt Setting.textAt
  rw [h.token]
  cases ht : c.tokenAt? o with
  | none => rfl
  | some token =>
    obtain ⟨more, hl⟩ : ∃ more, Token.lexFrom c.source o = token :: more := by
      unfold Setting.tokenAt? at ht
      exact List.head?_eq_some_iff.1 ht
    -- the token is a lexeme of what is left, so its span is a piece of the source
    have hk : c.kindAt o ≠ .endOfInput := by
      intro hk
      have := Setting.rest_eq_nil_of_kindAt hk
      rw [Setting.lexFrom_eq, this] at hl
      cases hl
    obtain ⟨form, hrest, hn⟩ := Setting.reads_of_kindAt rfl hk
    cases hs : token.span.slice? c.source with
    | some text => simp [hs]
    | none =>
      refine absurd form.ne_nil ?_
      simp [Setting.textAt, ht, hs]

end Faces

/-! ## Going to a place -/

section Seek

variable {c : Setting} {s : State} {pos o start x : Nat}

/-- The tokens before an index end where the place of the index is. -/
lemma Aligned.tiles_take {tokens : Array Token} (h : Aligned c tokens pos o)
    (tiles : Token.Tiles start tokens.toList (Text.byteSize c.source))
    (hne : tokens.toList.drop pos ≠ []) : Token.Tiles start (tokens.toList.take pos) o := by
  obtain ⟨m, hbefore, hafter⟩ :=
    Token.tiles_append.1 (List.take_append_drop pos tokens.toList ▸ tiles)
  obtain ⟨token, more, hcons⟩ := List.exists_cons_of_ne_nil hne
  rw [hcons] at hafter
  have hlex := h.drop
  rw [hcons] at hlex
  rwa [← hafter.start_eq, (Setting.lexFrom_eq_cons hlex.symm).1] at hbefore

/-- The tokens at a place `x` inside what is left: those before the index and the `front` after it
end at or before `x`, and the `later` ones, which are cut from some place `m` on, end after it. -/
lemma Aligned.split_at {tokens : Array Token} (h : Aligned c tokens pos o)
    (tiles : Token.Tiles start tokens.toList (Text.byteSize c.source)) (hox : o < x)
    (hx : x ≤ Text.byteSize c.source) :
    ∃ front later m, tokens.toList = front ++ later ∧ pos ≤ front.length ∧
      (pos = front.length → m = o) ∧ Token.Tiles start front m ∧
      later = Token.lexFrom c.source m ∧ Text.IsBoundary c.source m ∧ m ≤ x ∧
      Token.countEndingBy tokens x = front.length := by
  obtain ⟨front, later, hsplit, hfront, hlater⟩ := (Setting.tiles_lexFrom h.boundary).split x
  obtain ⟨m, htiles, -⟩ := Token.tiles_append.1 (hsplit ▸ Setting.tiles_lexFrom h.boundary)
  obtain ⟨hlaterLex, hbm⟩ := Setting.lexFrom_of_append h.boundary hsplit htiles
  have hlist : tokens.toList = (tokens.toList.take pos ++ front) ++ later := by
    rw [List.append_assoc, ← hsplit, ← h.drop, List.take_append_drop]
  have hne : tokens.toList.drop pos ≠ [] := by
    rw [h.drop]
    intro hnil
    have := Setting.lexFrom_eq_nil h.boundary hnil
    omega
  have hlength : (tokens.toList.take pos ++ front).length = pos + front.length := by
    have : pos < tokens.toList.length := by
      by_contra hge
      exact hne (List.drop_eq_nil_of_le (by omega))
    rw [List.length_append, List.length_take]
    omega
  have hbefore := h.tiles_take tiles hne
  have hstop : ∀ token ∈ tokens.toList.take pos ++ front, token.span.stop ≤ x := by
    intro token mem
    rcases List.mem_append.1 mem with mem | mem
    · exact le_trans (hbefore.stop_le_of_mem mem) (le_of_lt hox)
    · exact hfront token mem
  refine ⟨tokens.toList.take pos ++ front, later, m, hlist, by omega, ?_,
    Token.tiles_append.2 ⟨o, hbefore, htiles⟩, hlaterLex, hbm,
    htiles.stop_le (le_of_lt hox) hfront, Token.countEndingBy_eq hlist hstop hlater⟩
  intro heq
  obtain rfl : front = [] := List.eq_nil_of_length_eq_zero (by omega)
  cases htiles
  rfl

/-- The tokens with the one at an index ended at a place, and the rest cut anew from there. -/
def Token.recutAt (source : List Char) (tokens : Array Token) (i : Nat) (token : Token) (x : Nat) :
    Array Token :=
  (tokens.extract 0 i).push { token with span := token.span.cutAt x } ++
    (Token.lexFrom source x).toArray

lemma toList_recutAt {source : List Char} {tokens : Array Token} {front more : List Token}
    {token : Token} (hlist : tokens.toList = front ++ token :: more) :
    (Token.recutAt source tokens front.length token x).toList =
      (front ++ [{ token with span := token.span.cutAt x }]) ++ Token.lexFrom source x := by
  have : tokens.toList.take front.length = front := by rw [hlist, List.take_left]
  simp [Token.recutAt, this]

/-- A token that is ended at a place tiles what is in front of it. -/
lemma tiles_cutAt {token : Token} (hx : token.span.start < x) :
    Token.Tiles token.span.start [{ token with span := token.span.cutAt x }] x := by
  set cut : Token := { token with span := token.span.cutAt x } with hcut
  have hstop : cut.span.stop = x := Span.stop_cutAt (le_of_lt hx)
  exact @Token.Tiles.cons cut [] x (by simp only [hcut, Span.cutAt]; omega)
    (by rw [hstop]; exact Token.Tiles.nil x)

/-- Cutting at a place inside a token leaves tokens that tile the source, with those cut from the
place on behind the shortened one and the earlier ones as they were. -/
lemma aligned_recutAt {tokens : Array Token} {front more : List Token} {token : Token}
    (hlist : tokens.toList = front ++ token :: more)
    (tiles : Token.Tiles start front token.span.start) (hx : token.span.start < x)
    (hbx : Text.IsBoundary c.source x) :
    Aligned c (Token.recutAt c.source tokens front.length token x) (front.length + 1) x ∧
      Tiled c (Token.recutAt c.source tokens front.length token x) ∧
      ∀ j < front.length,
        (Token.recutAt c.source tokens front.length token x)[j]? = tokens[j]? := by
  refine ⟨⟨hbx, ?_⟩, ⟨start, ?_⟩, ?_⟩
  · rw [toList_recutAt hlist, List.drop_left' (by simp)]
  · rw [toList_recutAt hlist]
    exact Token.tiles_append.2 ⟨x, Token.tiles_append.2 ⟨_, tiles, tiles_cutAt hx⟩,
      Setting.tiles_lexFrom hbx⟩
  · intro j hj
    rw [← Array.getElem?_toList, toList_recutAt hlist, ← Array.getElem?_toList, hlist,
      List.append_assoc, List.getElem?_append_left hj, List.getElem?_append_left hj]

/-- **Going to a place keeps what is read there.**  After a text that is not empty, the index that
`seek` answers is aligned with the place after it. -/
lemma seek_aligned {w back : List Char} (tiled : Tiled c s.tokens) (h : Aligned c s.tokens pos o)
    (hrest : c.rest o = w ++ back) (hw : w ≠ []) :
    ∃ i s', Production.seek (o + Text.byteSize w) c s = .took i s' ∧ pos < i ∧
      Aligned c s'.tokens i (o + Text.byteSize w) ∧ Tiled c s'.tokens ∧
      (∀ j < pos, s'.tokens[j]? = s.tokens[j]?) ∧
      (s' = s ∨ s' = { s with
        tokens := s'.tokens
        log := .recut (o + Text.byteSize w) :: s.log }) := by
  obtain ⟨start, tiles⟩ := tiled
  set x := o + Text.byteSize w with hx
  have hox : o < x := by
    have := Text.byteSize_pos hw
    omega
  have hbx : Text.IsBoundary c.source x := Setting.isBoundary_add h.boundary hrest
  have hxB : x ≤ Text.byteSize c.source := by
    rw [← Setting.add_byteSize_rest hbx]
    omega
  obtain ⟨front, later, m, hlist, hpos, hmo, htiles, hlater, hbm, hmx, hcount⟩ :=
    h.split_at tiles hox hxB
  have hdrop : s.tokens.toList.drop front.length = later := by rw [hlist, List.drop_left]
  have hget : s.tokens[front.length]? = later.head? := by
    rw [← Array.getElem?_toList, ← hdrop, List.head?_drop]
  -- where the place is between two tokens, nothing changes
  have stay : m = x → pos < front.length ∧ Aligned c s.tokens front.length x := by
    intro hmx
    refine ⟨?_, hbx, by rw [hdrop, hlater, hmx]⟩
    by_contra hge
    have := hmo (by omega)
    omega
  unfold Production.seek
  rw [hcount]
  cases hl : later with
  | nil =>
    have hm : m = Text.byteSize c.source := Setting.lexFrom_eq_nil hbm (hlater ▸ hl)
    obtain ⟨hlt, aligned⟩ := stay (by omega)
    simp only [hget, hl, List.head?_nil]
    exact ⟨_, s, rfl, hlt, aligned, ⟨start, tiles⟩, fun _ _ => rfl, Or.inl rfl⟩
  | cons token more =>
    have hstart : token.span.start = m := (Setting.lexFrom_eq_cons (hlater ▸ hl)).1
    simp only [hget, hl, List.head?_cons]
    by_cases hle : x ≤ token.span.start
    · obtain ⟨hlt, aligned⟩ := stay (by omega)
      rw [if_pos hle]
      exact ⟨_, s, rfl, hlt, aligned, ⟨start, tiles⟩, fun _ _ => rfl, Or.inl rfl⟩
    · rw [if_neg hle]
      rw [← hstart] at htiles
      obtain ⟨aligned, tiled, keeps⟩ :=
        aligned_recutAt (hl ▸ hlist) htiles (by omega : token.span.start < x) hbx
      exact ⟨_, _, rfl, by omega, aligned, tiled, fun j hj => keeps j (by omega), Or.inr rfl⟩

end Seek

end SearchQuery
