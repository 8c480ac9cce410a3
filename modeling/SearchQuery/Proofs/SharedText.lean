import SearchQuery.Proofs.DeadEnds
import SearchQuery.Proofs.Following
import SearchQuery.Proofs.Reporting

/-!
# What comes after a dead end

A text that is rejected for its grammar is rejected in the same words when everything after the
token in the way is cut off, or replaced by something that begins with a blank.  This is
`parse_of_sharedText`.

Two tokens are excepted, because it is not they who say where they end.  A blank goes on into the
blank after it.  What begins at a quote that is never closed goes on to the end of the text, and if
another quote comes, it is a phrase.

## Lexemes in front of different texts

All other lexemes stay the same in front of a blank or of nothing.  `Lexeme.atHead_congr` says this
of lexemes at the head of a text, together with the case that they are followed by something that
both texts have in common, where it holds without exception.  It has one lemma for each way in
which a lexeme begins.  A stretch of stray characters is not one of these lexemes but is joined from
several, so it has its own `Lexeme.scan_stray_congr`.

From here on places are counted in two texts at once.  `Setting.SharesThrough` says of two sources
that they have a front in common that ends with the token at `a`, and `SharesThrough.alike` that
they are alike up to `a` in the sense needed to read them abreast.
-/

namespace SearchQuery

/-! ## Runs of characters -/

section runs

variable {taken v y t : List Char}

/-- A run that is over in front of `v ++ y` is over in front of `v ++ t`. -/
lemma takeWhile_congr {p : Char → Bool} (h : (taken ++ (v ++ y)).takeWhile p = taken)
    (ht : v = [] → ∀ d more, t = d :: more → p d = false) :
    (taken ++ (v ++ t)).takeWhile p = taken ∧ (taken ++ (v ++ t)).dropWhile p = v ++ t := by
  have passes : ∀ d ∈ taken, p d = true := by
    intro d hd
    rw [← h] at hd
    exact List.mem_takeWhile_imp hd
  refine takeWhile_append_of_stop passes fun d more hcons => ?_
  cases v with
  | nil => exact ht rfl d more hcons
  | cons first v =>
    obtain ⟨rfl, -⟩ := List.cons.inj hcons
    by_contra hp
    rw [List.takeWhile_append_of_pos passes, List.cons_append,
      List.takeWhile_cons_of_pos (by simpa using hp)] at h
    have := congrArg List.length h
    simp at this

lemma fractionAtHead_of_ne {d : Char} (h : d ≠ '.') (more : List Char) :
    fractionAtHead (d :: more) = [] := by
  unfold fractionAtHead
  split
  · rename_i heq
    exact absurd (List.cons.inj heq).1 h
  · rfl

lemma fractionAtHead_congr (h : fractionAtHead (taken ++ (v ++ y)) = taken) (ht : Stops [] t) :
    fractionAtHead (taken ++ (v ++ t)) = taken := by
  have digits : ∀ d more, t = d :: more → d.isDigit = false := fun d more e =>
    (ht.stopsNumber rfl d more e).1
  cases taken with
  | cons point taken =>
    obtain rfl : point = '.' := by
      by_contra hne
      rw [List.cons_append, fractionAtHead_of_ne hne] at h
      cases h
    rw [List.cons_append, fractionAtHead_point] at h ⊢
    split_ifs at h with none
    have same := takeWhile_congr (List.cons.inj h).2 fun _ => digits
    rw [same.1, if_neg]
    rwa [(List.cons.inj h).2] at none
  | nil =>
    rw [List.nil_append] at h ⊢
    cases v with
    | nil =>
      cases t with
      | nil => rfl
      | cons d more => exact fractionAtHead_of_ne (ht.stopsNumber rfl d more rfl).2 more
    | cons first v =>
      by_cases hpoint : first = '.'
      · obtain rfl := hpoint
        rw [List.cons_append, fractionAtHead_point] at h ⊢
        split_ifs at h with none
        exact if_pos (@takeWhile_congr [] v y t _ none fun _ => digits).1
      · exact fractionAtHead_of_ne hpoint _

/-- A number that is over in front of `v ++ y` is over in front of `v ++ t`, if `t` stops.  In
particular a point in `v` that has no digits after it does not get any. -/
lemma numberAtHead_congr (h : numberAtHead (taken ++ (v ++ y)) = taken) (ht : Stops [] t) :
    numberAtHead (taken ++ (v ++ t)) = taken := by
  have digits : ∀ d more, t = d :: more → d.isDigit = false := fun d more e =>
    (ht.stopsNumber rfl d more e).1
  rw [numberAtHead_eq] at h
  split_ifs at h with none
  · obtain rfl := h
    rw [numberAtHead_eq]
    exact if_pos (@takeWhile_congr [] v y t _ none fun _ => digits).1
  · generalize hwhole : (taken ++ (v ++ y)).takeWhile Char.isDigit = whole at h none
    generalize hfraction : fractionAtHead ((taken ++ (v ++ y)).dropWhile Char.isDigit) = fraction
      at h
    subst h
    have parts := List.takeWhile_append_dropWhile (p := Char.isDigit)
      (l := whole ++ fraction ++ (v ++ y))
    rw [hwhole] at parts
    rw [List.append_cancel_left (parts.trans (List.append_assoc _ _ _))] at hfraction
    rw [List.append_assoc, ← List.append_assoc fraction] at hwhole
    have same := takeWhile_congr hwhole fun _ => digits
    rw [numberAtHead_eq, List.append_assoc, ← List.append_assoc fraction, same.1, same.2,
      if_neg none, List.append_assoc, fractionAtHead_congr hfraction ht]

end runs

/-! ## Lexemes -/

namespace Lexeme

variable {ch : Char} {k : Kind} {taken v w y t : List Char}

/-! ### One case for each beginning -/

lemma tilde_congr (h : atHead '~' (taken ++ (v ++ y)) = ⟨k, '~' :: taken⟩) (ht : Stops [] t) :
    atHead '~' (taken ++ (v ++ t)) = ⟨k, '~' :: taken⟩ := by
  rw [atHead_tilde] at h ⊢
  obtain ⟨rfl, htext⟩ := Lexeme.mk.inj h
  rw [numberAtHead_congr (List.cons.inj htext).2 ht]

lemma caret_congr (h : atHead '^' (taken ++ (v ++ y)) = ⟨k, '^' :: taken⟩) (ht : Stops [] t) :
    atHead '^' (taken ++ (v ++ t)) = ⟨k, '^' :: taken⟩ := by
  rw [atHead_caret] at h ⊢
  -- a caret without a number is alone, and then none is read after it either
  have number : numberAtHead (taken ++ (v ++ y)) = taken := by
    split_ifs at h with none
    · rw [none]
      exact (List.cons.inj (Lexeme.mk.inj h).2).2
    · exact (List.cons.inj (Lexeme.mk.inj h).2).2
  rw [number] at h
  rwa [numberAtHead_congr number ht]

/-- A phrase ends at its second quote, whatever comes after it.  A quote that is never closed goes
on to the end of the text. -/
lemma quote_congr (h : atHead '"' (taken ++ (v ++ y)) = ⟨k, '"' :: taken⟩)
    (hv : v = [] → k ≠ .stray) :
    atHead '"' (taken ++ (v ++ t)) = ⟨k, '"' :: taken⟩ := by
  rcases closed_or_unclosed (taken ++ (v ++ y)) with ⟨text, more, whole, plain⟩ | plain
  · rw [whole, atHead_closed plain] at h
    obtain ⟨rfl, htext⟩ := Lexeme.mk.inj h
    obtain rfl := (List.cons.inj htext).2
    rw [List.append_assoc, List.singleton_append, atHead_closed plain]
  · rw [atHead_unclosed plain] at h
    obtain ⟨rfl, htext⟩ := Lexeme.mk.inj h
    have nothing := List.append_right_eq_self.1 (List.cons.inj htext).2
    exact absurd rfl (hv (List.append_eq_nil_iff.1 nothing).1)

lemma word_congr (hword : startsWord ch = true)
    (h : atHead ch (taken ++ (v ++ y)) = ⟨k, ch :: taken⟩) (ht : Stops [] t) :
    atHead ch (taken ++ (v ++ t)) = ⟨k, ch :: taken⟩ := by
  rw [atHead_of_startsWord hword] at h ⊢
  obtain ⟨hk, htext⟩ := Lexeme.mk.inj h
  rw [htext] at hk
  rw [(takeWhile_congr (List.cons.inj htext).2 fun _ => ht.not_continues rfl).1, hk]

lemma blank_congr (hblank : isBlank ch = true)
    (h : atHead ch (taken ++ (v ++ y)) = ⟨k, ch :: taken⟩) (hv : v ≠ []) :
    atHead ch (taken ++ (v ++ t)) = ⟨k, ch :: taken⟩ := by
  rw [atHead_of_isBlank hblank] at h ⊢
  obtain ⟨rfl, htext⟩ := Lexeme.mk.inj h
  rw [(takeWhile_congr (List.cons.inj htext).2 fun none => absurd none hv).1]

lemma kind_atHead_of_isBlank (h : isBlank ch = true) (w : List Char) :
    (atHead ch w).kind = .blank := by
  rw [atHead_of_isBlank h]

/-- **A lexeme that is over in front of `v ++ y` is over in front of `v ++ t`**, if `t` stops.  With
nothing in `v`, blanks and a quote that is never closed might go on in `t`. -/
lemma atHead_congr (h : atHead ch (taken ++ (v ++ y)) = ⟨k, ch :: taken⟩) (ht : Stops [] t)
    (hv : v = [] → k ≠ .blank ∧ (k = .stray → ch ≠ '"')) :
    atHead ch (taken ++ (v ++ t)) = ⟨k, ch :: taken⟩ := by
  cases begins ch with
  | punctuation kind hc =>
    rw [atHead_punctuation hc] at h ⊢
    exact h
  | tilde hc =>
    subst hc
    exact tilde_congr h ht
  | caret hc =>
    subst hc
    exact caret_congr h ht
  | quote hc =>
    subst hc
    exact quote_congr h fun none stray => (hv none).2 stray rfl
  | word hc => exact word_congr hc h ht
  | blank hc =>
    have hk : k = .blank := by rw [← kind_atHead_of_isBlank hc (taken ++ (v ++ y)), h]
    exact blank_congr hc h fun none => (hv none).1 hk
  | nothing hc =>
    rw [hc] at h ⊢
    exact h

/-- The first character alone tells of a lexeme of one of these kinds. -/
lemma kind_atHead_of_sign (hk : k ∈ [Kind.blank, .colon, .closeParen, .endOfInput])
    (h : (atHead ch w).kind = k) : (atHead ch y).kind = k := by
  obtain ⟨taken, left, htext, -⟩ := exists_append_atHead ch w
  have form := form_atHead ch w
  rw [h, htext] at form
  simp only [List.mem_cons, List.not_mem_nil, or_false] at hk
  rcases hk with rfl | rfl | rfl | rfl
  · exact kind_atHead_of_isBlank (isBlank_of_form form) y
  · obtain rfl := (List.cons.inj form).1
    rfl
  · obtain rfl := (List.cons.inj form).1
    rfl
  · exact form.elim

/-- No stray lexeme stands where a text stops. -/
lemma joinStray_of_stops (l : Lexeme) (ht : Stops [] t) : joinStray l (scan t) = l :: scan t := by
  cases t with
  | nil => rfl
  | cons d more =>
    have hd : isBlank d = true := (ht d more rfl).resolve_right List.not_mem_nil
    obtain ⟨taken, left, htext, rfl⟩ := exists_append_atHead d more
    have head : atHead d (taken ++ left) = ⟨.blank, d :: taken⟩ := by
      rw [← kind_atHead_of_isBlank hd (taken ++ left), ← htext]
    rw [scan_of_atHead head (by simp), joinStray, if_neg]
    rintro ⟨-, stray⟩
    cases stray

/-- A stretch of stray characters is over in front of a text that stops. -/
lemma scan_stray_congr (h : scan (w ++ y) = ⟨.stray, w⟩ :: scan y) (hw : w ≠ [])
    (quote : '"' ∉ w) (ht : Stops [] t) : scan (w ++ t) = ⟨.stray, w⟩ :: scan t := by
  induction w with
  | nil => exact absurd rfl hw
  | cons ch w ih =>
    have hquote : ch ≠ '"' := by
      rintro rfl
      exact quote List.mem_cons_self
    obtain ⟨taken, left, htext, hleft⟩ := exists_append_atHead ch (w ++ y)
    rw [List.cons_append, scan_cons htext hleft] at h
    have cut := joinStray_cases h
    have stray : (atHead ch (w ++ y)).kind = .stray := by
      rcases cut with ⟨alone, -⟩ | ⟨-, -, stray, -⟩
      · rw [← alone]
      · exact stray
    have one := text_atHead_of_stray stray hquote
    obtain rfl : taken = [] := (List.cons.inj (htext.symm.trans one)).2
    rw [List.nil_append] at hleft
    subst hleft
    have head : atHead ch (w ++ y) = ⟨.stray, [ch]⟩ := by rw [← stray, ← one]
    have head' : atHead ch (w ++ t) = ⟨.stray, [ch]⟩ :=
      @atHead_congr ch .stray [] w y t head ht fun _ => ⟨by simp, fun _ => hquote⟩
    rw [List.cons_append, @scan_cons ch (w ++ t) [] (w ++ t) (by rw [head']) rfl, head']
    rcases cut with ⟨alone, -⟩ | ⟨next, hnext, -, stray', joined⟩
    · rw [head] at alone
      obtain rfl := (List.cons.inj (Lexeme.mk.inj alone).2).2
      exact joinStray_of_stops _ ht
    · rw [one] at joined
      obtain rfl : w = next.text := (List.cons.inj (Lexeme.mk.inj joined).2).2
      have plain : '"' ∉ next.text := fun mem => quote (List.mem_cons_of_mem ch mem)
      have nonempty := (scan_eq_cons hnext).1.ne_nil
      rw [ih (by rw [hnext, ← stray']) nonempty plain]
      rfl

end Lexeme

/-! ## Places in two texts -/

namespace Setting

variable {c d : Setting} {a o : Nat}

/-- What stands at a place begins with the lexeme at the head of the text there, and is this lexeme
unless it is stray. -/
lemma at_head {ch : Char} {text : List Char} (h : c.rest o = ch :: text) :
    c.kindAt o = (Lexeme.atHead ch text).kind ∧
      ∃ more, c.textAt o = (Lexeme.atHead ch text).text ++ more ∧
        (c.kindAt o ≠ .stray → more = []) := by
  obtain ⟨taken, left, htext, hleft⟩ := Lexeme.exists_append_atHead ch text
  cases hs : Lexeme.scan (ch :: text) with
  | nil => cases Lexeme.scan_eq_nil hs
  | cons l lexemes =>
    obtain ⟨form, back, hback, rfl⟩ := Lexeme.scan_eq_cons hs
    obtain ⟨hk, ht, -⟩ := at_lexeme (h.trans hback) form.ne_nil (hback ▸ hs)
    rw [Lexeme.scan_cons htext hleft] at hs
    rcases Lexeme.joinStray_cases hs with ⟨rfl, -⟩ | ⟨next, -, stray, -, rfl⟩
    · exact ⟨hk, [], by rw [ht, List.append_nil], fun _ => rfl⟩
    · exact ⟨hk.trans stray.symm, next.text, ht, fun hne => absurd hk hne⟩

/-- Two sources have a front in common that ends with the token at `a`.  This token says by itself
where it ends, and the second source stops there. -/
structure SharesThrough (c d : Setting) (a : Nat) (front back tail : List Char) : Prop where
  source : c.source = front ++ back
  source' : d.source = front ++ tail
  limit : d.nestingLimit = c.nestingLimit
  stop : c.next a = Text.byteSize front
  stands : c.kindAt a ≠ .endOfInput
  notBlank : c.kindAt a ≠ .blank
  unquoted : c.kindAt a = .stray → '"' ∉ c.textAt a
  stops : Stops [] tail

namespace SharesThrough

variable {front back tail : List Char} (h : c.SharesThrough d a front back tail)

include h

/-- Up to `a` something of the front is left, or the place is not one between characters. -/
lemma rests (ho : o ≤ a) :
    (∃ ch u, o + Text.byteSize (ch :: u) = Text.byteSize front ∧
        c.rest o = ch :: (u ++ back) ∧ d.rest o = ch :: (u ++ tail)) ∨
      c.rest o = [] ∧ d.rest o = [] := by
  have before : a < Text.byteSize front := h.stop ▸ lt_next h.stands
  by_cases hb : Text.IsBoundary front o
  · left
    obtain ⟨f, u, hfront, hsize⟩ := Text.isBoundary_iff.1 hb
    have sizes := congrArg Text.byteSize hfront
    rw [Text.byteSize_append, hsize] at sizes
    cases u with
    | nil =>
      rw [Text.byteSize_nil] at sizes
      omega
    | cons ch u =>
      have whole : c.rest 0 = f ++ (ch :: (u ++ back)) := by
        rw [rest_zero, h.source, hfront, List.append_assoc, List.cons_append]
      have whole' : d.rest 0 = f ++ (ch :: (u ++ tail)) := by
        rw [rest_zero, h.source', hfront, List.append_assoc, List.cons_append]
      have left := rest_add whole
      have left' := rest_add whole'
      rw [Nat.zero_add, hsize] at left left'
      exact ⟨ch, u, sizes.symm, left, left'⟩
  · right
    have inside : o ≤ Text.byteSize front := by omega
    constructor
    · by_contra hne
      have := isBoundary_of_rest_ne_nil hne
      rw [h.source, Text.isBoundary_append_of_le inside] at this
      exact hb this
    · by_contra hne
      have := isBoundary_of_rest_ne_nil hne
      rw [h.source', Text.isBoundary_append_of_le inside] at this
      exact hb this

/-- A token that does not lie across `a` lies in the front, and it is the last one there only at
`a`. -/
lemma token_in_front (ho : o ≤ a) (within : ¬c.Straddles a o) {ch : Char} {u : List Char}
    (hsize : o + Text.byteSize (ch :: u) = Text.byteSize front)
    (hc : c.rest o = ch :: (u ++ back)) :
    ∃ v, ch :: u = c.textAt o ++ v ∧ (v = [] → o = a) := by
  obtain ⟨-, hrest, hnext⟩ := reads_of_kindAt rfl (kindAt_ne_of_rest hc)
  have inside : c.next o ≤ Text.byteSize front ∧ (c.next o = Text.byteSize front → o = a) := by
    have before := h.stop ▸ lt_next h.stands
    by_cases heq : o = a
    · subst heq
      exact ⟨le_of_eq h.stop, fun _ => rfl⟩
    · have : c.next o ≤ a := by
        by_contra across
        exact within ⟨lt_of_le_of_ne ho heq, not_le.1 across⟩
      exact ⟨by omega, fun hend => by omega⟩
  have part : c.textAt o ++ c.rest (c.next o) = ch :: u ++ back := by rw [← hrest, hc]; rfl
  obtain ⟨v, hv⟩ := Text.prefix_of_byteSize_le part (by omega)
  refine ⟨v, hv, ?_⟩
  rintro rfl
  rw [hv, List.append_nil] at hsize
  exact inside.2 (by omega)

/-- A token that does not lie across `a` is the same in both texts, apart from how far stray
characters go on after it. -/
lemma token (ho : o ≤ a) (within : ¬c.Straddles a o) :
    d.kindAt o = c.kindAt o ∧
      (c.kindAt o ≠ .stray → d.textAt o = c.textAt o ∧ d.next o = c.next o) := by
  rcases h.rests ho with ⟨ch, u, hsize, hc, hd⟩ | ⟨hc, hd⟩
  · obtain ⟨hk, more, htext, alone⟩ := at_head hc
    obtain ⟨taken, left, hhead, hleft⟩ := Lexeme.exists_append_atHead ch (u ++ back)
    obtain ⟨v, hv, hends⟩ := h.token_in_front ho within hsize hc
    have head : Lexeme.atHead ch (u ++ back) = ⟨c.kindAt o, ch :: taken⟩ := by rw [hk, ← hhead]
    rw [htext, hhead, List.append_assoc] at hv
    obtain rfl : u = taken ++ (more ++ v) := (List.cons.inj hv).2
    have head' : Lexeme.atHead ch (taken ++ (more ++ v) ++ tail) = ⟨c.kindAt o, ch :: taken⟩ := by
      rw [List.append_assoc] at head ⊢
      refine Lexeme.atHead_congr head h.stops fun last => ?_
      obtain rfl := hends (List.append_eq_nil_iff.1 last).2
      refine ⟨h.notBlank, fun stray => ?_⟩
      rintro rfl
      refine h.unquoted stray ?_
      rw [htext, hhead]
      exact List.mem_cons_self
    obtain ⟨hk', more', htext', alone'⟩ := at_head hd
    rw [head'] at hk' htext'
    refine ⟨hk', fun hne => ?_⟩
    have same : d.textAt o = c.textAt o := by
      rw [htext, htext', hhead, alone hne, alone' (by rwa [hk'])]
    have stands := kindAt_ne_of_rest hc
    refine ⟨same, ?_⟩
    rw [(reads_of_kindAt rfl stands).2.2, ← same]
    exact (reads_of_kindAt hk' stands).2.2
  · obtain ⟨hk, ht, hn⟩ := kindAt_of_rest_eq_nil hc
    obtain ⟨hk', ht', hn'⟩ := kindAt_of_rest_eq_nil hd
    exact ⟨hk'.trans hk.symm, fun _ => ⟨ht'.trans ht.symm, hn'.trans hn.symm⟩⟩

lemma sign (ho : o ≤ a) {k : Kind} (hk : k ∈ [Kind.blank, .colon, .closeParen, .endOfInput]) :
    d.kindAt o = k ↔ c.kindAt o = k := by
  rcases h.rests ho with ⟨ch, u, -, hc, hd⟩ | ⟨hc, hd⟩
  · rw [(at_head hc).1, (at_head hd).1]
    exact ⟨Lexeme.kind_atHead_of_sign hk, Lexeme.kind_atHead_of_sign hk⟩
  · rw [(kindAt_of_rest_eq_nil hc).1, (kindAt_of_rest_eq_nil hd).1]

lemma bound (ho : o ≤ a) (inside : o + Text.byteSize (c.boundAt o) ≤ a) :
    d.boundAt o = c.boundAt o := by
  have before : a < Text.byteSize front := h.stop ▸ lt_next h.stands
  unfold boundAt at inside ⊢
  rcases h.rests ho with ⟨ch, u, hsize, hc, hd⟩ | ⟨hc, hd⟩
  · rw [hc, ← List.cons_append] at inside ⊢
    rw [hd, ← List.cons_append]
    generalize hw : ((ch :: u) ++ back).takeWhile (!endsBound ·) = w at inside ⊢
    have part : w ++ ((ch :: u) ++ back).dropWhile (!endsBound ·) = (ch :: u) ++ back := by
      rw [← hw, List.takeWhile_append_dropWhile]
    obtain ⟨v, hv⟩ := Text.prefix_of_byteSize_le part (by omega)
    rw [hv, List.append_assoc] at hw ⊢
    refine (takeWhile_congr hw ?_).1
    rintro rfl
    rw [hv, List.append_nil] at hsize
    omega
  · rw [hc, hd]

lemma alike : c.Alike d a where
  kind o ho within := (h.token ho within).1
  token o ho within := (h.token ho within).2
  sign o ho k hk := h.sign ho hk
  colon word _ := by
    have within : ¬c.Straddles a a := fun straddles => lt_irrefl a straddles.1
    obtain ⟨-, hnext⟩ := (h.token le_rfl within).2 (by simp [word])
    have whole : d.rest 0 = front ++ tail := by rw [rest_zero, h.source']
    have rest := rest_add whole
    rw [Nat.zero_add, ← h.stop, ← hnext] at rest
    exact kindAt_ne_colon (rest ▸ h.stops) List.not_mem_nil
  bound o ho inside := h.bound ho inside
  full e limit hfull := by
    unfold fullAt at hfull ⊢
    rwa [h.limit]

lemma rest_next : c.rest (c.next a) = back := by
  have whole : c.rest 0 = front ++ back := by rw [rest_zero, h.source]
  have rest := rest_add whole
  rwa [Nat.zero_add, ← h.stop] at rest

/-- The token at `a` is the same in both texts, also if it is stray. -/
lemma token_last : d.kindAt a = c.kindAt a ∧ d.textAt a = c.textAt a := by
  have within : ¬c.Straddles a a := fun straddles => lt_irrefl a straddles.1
  obtain ⟨hk, same⟩ := h.token le_rfl within
  refine ⟨hk, ?_⟩
  by_cases stray : c.kindAt a = .stray
  case neg => exact (same stray).1
  obtain ⟨form, hrest, -⟩ := reads_of_kindAt rfl h.stands
  rw [h.rest_next] at hrest
  have hrest' : d.rest a = c.textAt a ++ tail := by
    rcases h.rests le_rfl with ⟨ch, u, -, hc, hd⟩ | ⟨hc, -⟩
    · rw [hd, ← List.cons_append]
      congr 1
      exact List.append_cancel_right (hc.symm.trans hrest)
    · exact absurd (kindAt_of_rest_eq_nil hc).1 h.stands
  have scanned : Lexeme.scan (c.textAt a ++ back) = ⟨.stray, c.textAt a⟩ :: Lexeme.scan back := by
    cases hs : Lexeme.scan (c.rest a) with
    | nil => exact absurd (kindAt_of_rest_eq_nil (Lexeme.scan_eq_nil hs)).1 h.stands
    | cons l lexemes =>
      obtain ⟨form', back', hback, rfl⟩ := Lexeme.scan_eq_cons hs
      obtain ⟨hk', ht', -⟩ := at_lexeme hback form'.ne_nil (hback ▸ hs)
      rw [hrest, ht'] at hback
      rw [← hrest, hs, List.append_cancel_left hback, ← stray, hk', ht']
  have scanned' := Lexeme.scan_stray_congr scanned form.ne_nil (h.unquoted stray) h.stops
  exact (at_lexeme hrest' form.ne_nil scanned').2.1

/-- A dead end at `a` is reported the same in both texts. -/
lemma report_eq {f : Furthest} (hf : OnDemand.deadEnd c f = a) (recorded : f.place.isSome)
    (boundary : Text.IsBoundary c.source a) : OnDemand.report d f = OnDemand.report c f := by
  obtain ⟨place, hplace⟩ := Option.isSome_iff_exists.1 recorded
  have hf' : OnDemand.deadEnd d f = a := by
    rw [← hf]
    simp only [OnDemand.deadEnd, hplace, Option.map_some, Option.getD_some]
  obtain ⟨hk, htext⟩ := h.token_last
  have position : Position.ofOffset d.source a = Position.ofOffset c.source a := by
    have inside : a ≤ Text.byteSize front := h.stop ▸ le_next c a
    rw [h.source, Text.isBoundary_append_of_le inside] at boundary
    obtain ⟨f, u, rfl, rfl⟩ := Text.isBoundary_iff.1 boundary
    rw [h.source, h.source', List.append_assoc, List.append_assoc, Position.ofOffset_append,
      Position.ofOffset_append]
  have found : OnDemand.found d a = OnDemand.found c a := by
    unfold OnDemand.found
    rw [hk, htext]
  unfold OnDemand.report
  rw [hf, hf', htext, position, found]

end SharesThrough

/-- What stands up to the end of a token is shared with every text that goes on differently after
it. -/
lemma exists_sharesThrough (boundary : Text.IsBoundary c.source a)
    (stands : c.kindAt a ≠ .endOfInput) (notBlank : c.kindAt a ≠ .blank)
    (unquoted : c.kindAt a = .stray → '"' ∉ c.textAt a) :
    ∃ front back, c.source = front ++ back ∧
      Text.byteSize front = a + Text.byteSize (c.textAt a) ∧
      ∀ (d : Setting) (tail : List Char), d.source = front ++ tail →
        d.nestingLimit = c.nestingLimit → Stops [] tail → c.SharesThrough d a front back tail := by
  obtain ⟨before, after, hsource, hsize⟩ := Text.isBoundary_iff.1 boundary
  obtain ⟨-, hrest, hnext⟩ := reads_of_kindAt rfl stands
  have whole : c.rest 0 = before ++ after := by rw [rest_zero, hsource]
  have left := rest_add whole
  rw [Nat.zero_add, hsize] at left
  have source : c.source = (before ++ c.textAt a) ++ c.rest (c.next a) := by
    rw [List.append_assoc, ← hrest, left, hsource]
  have stop : c.next a = Text.byteSize (before ++ c.textAt a) := by
    rw [hnext, Text.byteSize_append, hsize]
  refine ⟨before ++ c.textAt a, c.rest (c.next a), source, stop.symm.trans hnext, ?_⟩
  exact fun d tail source' limit stops =>
    ⟨source, source', limit, stop, stands, notBlank, unquoted, stops⟩

end Setting

/-! ## Texts that are rejected -/

/-- A text is read in the same way with more steps than it needs. -/
lemma query_eq_reply {limits : Limits} {text : String} {steps : Nat}
    (h : Text.byteSize text.toList < steps) :
    OnDemand.query steps 0 (limits.setting text) (OnDemand.start limits) =
      OnDemand.reply limits text := by
  have boundary := Text.isBoundary_zero (limits.setting text).source
  refine (query_eq_of_le (placed_start _ limits) boundary ?_ h).symm
  rw [Nat.zero_add]
  exact Nat.lt_succ_self _

/-- A text with the same front as one that has its furthest dead end at `a` is refused as well. -/
lemma Setting.SharesThrough.refused {limits : Limits} {text text' : String} {a : Nat}
    {front back tail : List Char}
    (h : (limits.setting text).SharesThrough (limits.setting text') a front back tail) {s : State}
    (hs : OnDemand.reply limits text = .refused s) (hits : ¬s.Misses a) :
    ∃ t, OnDemand.reply limits text' = .refused t ∧ s.Matches t := by
  set steps := max (Text.byteSize text.toList) (Text.byteSize text'.toList) + 1 with hsteps
  have enough : Text.byteSize text.toList < steps := by omega
  have enough' : Text.byteSize text'.toList < steps := by omega
  rw [← query_eq_reply enough] at hs
  have matched : (OnDemand.start limits).Matches (OnDemand.start limits) := ⟨rfl, rfl, rfl, rfl⟩
  rcases query_abreast h.alike (Nat.zero_le a) matched nofun hs hits with
    ⟨t, ht, same⟩ | ⟨k, e, limit, -, opens, full, -⟩
  · exact ⟨t, by rw [← query_eq_reply enough', ht], same⟩
  · -- both texts are read within the same limit
    unfold Setting.fullAt at opens full
    rw [h.limit, opens] at full
    cases full

/-- The token that a report shows says by itself where it ends: it is no blank, and no quote stands
in it unless it is a phrase. -/
def Unexpected.EndsItself (source : List Char) (e : Unexpected) : Prop :=
  ∀ token, (Token.lexFrom source e.span.start).head? = some token →
    token.kind ≠ .blank ∧
      (token.kind = .stray → ∀ w, token.span.slice? source = some w → '"' ∉ w)

/-- **A rejection for the grammar does not depend on what follows the token in the way.**  If that
token says by itself where it ends, then whatever begins with a blank may come after it instead of
the rest of the text, or nothing, and the same is reported. -/
theorem parse_of_sharedText {limits : Limits} {text : String} {e : Unexpected}
    (h : limits.parse text = .rejected (.unexpected e)) (hlength : e.span.length ≠ 0)
    (hends : e.EndsItself text.toList) :
    ∃ front, Text.takeBytes? e.span.stop text.toList = some front ∧
      ∀ tail, (∀ d more, tail = d :: more → isBlank d = true) →
        Text.byteSize (front ++ tail) ≤ maxOffset →
        limits.parse (String.ofList (front ++ tail)) = .rejected (.unexpected e) := by
  obtain ⟨-, s, hs, placed, reached, recorded, rfl⟩ := reply_of_unexpected h
  have boundary := isBoundary_deadEnd placed
  generalize ha : OnDemand.deadEnd (limits.setting text) s.furthest = a at boundary
  have hspan : (OnDemand.report (limits.setting text) s.furthest).span =
      ⟨a, Text.byteSize ((limits.setting text).textAt a)⟩ := by rw [← ha]; rfl
  unfold Unexpected.EndsItself at hends
  rw [hspan] at hlength hends ⊢
  have stands : (limits.setting text).kindAt a ≠ .endOfInput := by
    intro hend
    refine hlength ?_
    rw [(Setting.kindAt_of_rest_eq_nil (Setting.rest_eq_nil_of_kindAt hend)).2.1, Text.byteSize_nil]
  obtain ⟨token, ht⟩ : ∃ token, (limits.setting text).tokenAt? a = some token := by
    cases ht : (limits.setting text).tokenAt? a with
    | some token => exact ⟨token, rfl⟩
    | none => exact absurd (Setting.at_of_tokenAt?_eq_none ht).1 stands
  obtain ⟨hk, -, hslice⟩ := Setting.of_tokenAt? ht
  obtain ⟨notBlank, unquoted⟩ := hends token ht
  rw [hk] at notBlank unquoted
  obtain ⟨front, back, source, hsize, shares⟩ := Setting.exists_sharesThrough boundary stands
    notBlank fun stray => unquoted stray _ hslice
  refine ⟨front, ?_, fun tail stops small => ?_⟩
  · exact Text.takeBytes?_eq_some_iff.2 ⟨hsize, back, source⟩
  have shared := shares (limits.setting (String.ofList (front ++ tail))) tail
    String.toList_ofList rfl fun d more htail => Or.inl (stops d more htail)
  obtain ⟨place, hplace⟩ := Option.isSome_iff_exists.1 recorded
  have hits : ¬s.Misses a := by
    rintro (cut | elsewhere)
    · rw [reached] at cut
      cases cut
    · refine elsewhere place hplace ?_
      simpa [OnDemand.deadEnd, hplace] using ha
  obtain ⟨t, hs', same⟩ := shared.refused hs hits
  rw [parse_of_refused (by rwa [String.toList_ofList]) hs' (same.reached ▸ reached),
    ← same.furthest, shared.report_eq ha recorded boundary]

/-- The quote in the bound of a range would pair with one that comes later. -/
theorem parse_of_sharedText_quoted_bound :
    let e : Unexpected := ⟨⟨7, 1⟩, ⟨1, 8⟩, "`y`", .only .rangeTo⟩
    Limits.parse {} "f:[\"x  y" = .rejected (.unexpected e) ∧
      Limits.parse {} "f:[\"x  y \"" = .rejected (.unexpected e) := by
  intro e
  have h : Limits.parse {} "f:[\"x  y" = .rejected (.unexpected e) := by decide +kernel
  have stands : (Token.lexFrom "f:[\"x  y".toList 7).head? = some ⟨.word, ⟨7, 1⟩⟩ := by decide
  have ends : e.EndsItself "f:[\"x  y".toList := by
    intro token htoken
    obtain rfl := Option.some.inj (stands.symm.trans htoken)
    exact ⟨by decide, nofun⟩
  obtain ⟨front, hfront, same⟩ := parse_of_sharedText h (by decide) ends
  have whole : Text.takeBytes? 8 "f:[\"x  y".toList = some "f:[\"x  y".toList := by decide
  obtain rfl := Option.some.inj (whole.symm.trans hfront)
  refine ⟨h, same [' ', '"'] ?_ (by decide)⟩
  rintro d more ⟨⟩
  rfl

end SearchQuery
