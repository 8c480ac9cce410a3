import Mathlib.Data.List.Chain
import SearchQuery.Proofs.Tiling

/-!
# Tokens are longest matches

What `Token.lexFrom` cuts a text into is described here by the forms of tokens alone.  A token that
is not stray is the longest text that any kind of token allows at its place.  A stray token covers a
stretch of characters at which no token can start, and as long a one as there is: after it, a token
can start.  Only a quote that is never closed makes an exception.  Once such a quote is in a
stretch, the stretch goes on to the end of the text, whatever comes after the quote.

## How this is shown

`Lexeme.length_le_atHead` is the one place where the forms are compared with the reader, form by
form: whatever has the form of a token at the head of a text is no longer than the lexeme that is
read there.  From it follows when a stray lexeme is read, and `isExact_of_scan` then puts
stretches together by going through the text from its end: a lexeme that stays alone is exact by
`isExact_atHead`, and one that is joined to a stretch makes it longer.  Neighbours of one kind need
no case of their own.  Two words side by side would be a longer word, and two stretches one stretch.
-/

namespace SearchQuery

/-! ## Longest matches and stray stretches -/

/-- A text that has the form of some token.  A keyword is a word as well, but has a kind of its own,
so words of either sort are among these (`IsWord.isTokenText`). -/
def IsTokenText (w : List Char) : Prop := ∃ k : Kind, k ≠ .stray ∧ k.Form w

/-- A token can start at the front of a text. -/
def StartsToken (text : List Char) : Prop := ∃ w back, text = w ++ back ∧ IsTokenText w

/-- In front of `back`, no longer text than `w` has the form of a token. -/
def IsLongest (w back : List Char) : Prop :=
  ∀ v rest, w ++ back = v ++ rest → IsTokenText v → v.length ≤ w.length

/-- In front of `back`, the characters of `w` are a stretch at which no token can start.  What comes
after a quote in it is not looked at, because no quote in it is ever closed. -/
structure IsStrayStretch (w back : List Char) : Prop where
  nonempty : w ≠ []
  inside : ∀ u d v, w = u ++ d :: v → '"' ∉ u → ¬StartsToken (d :: (v ++ back))
  /-- The stretch ends where a token can start, unless there is a quote in it. -/
  maximal : back ≠ [] → '"' ∉ w ∧ StartsToken back

/-- In front of `back`, a lexeme is what its kind says and reaches as far as it can. -/
structure Lexeme.IsExact (l : Lexeme) (back : List Char) : Prop where
  stretch : l.kind = .stray → IsStrayStretch l.text back
  longest : l.kind ≠ .stray → l.kind.Form l.text ∧ IsLongest l.text back

/-- A token is an exact lexeme of what the source has from its place on. -/
def Token.IsExact (source : List Char) (token : Token) : Prop :=
  ∃ text back, Text.dropBytes? token.span.start source = some (text ++ back) ∧
    Text.byteSize text = token.span.length ∧ Lexeme.IsExact ⟨token.kind, text⟩ back

lemma IsWord.isTokenText {w : List Char} (h : IsWord w) : IsTokenText w :=
  ⟨Kind.ofWord w, Kind.ofWord_ne_stray w, form_ofWord h⟩

/-! ## The lexeme at the head of a text -/

lemma length_le_takeWhile {p : Char → Bool} {w : List Char} (hw : ∀ c ∈ w, p c = true)
    (back : List Char) : w.length ≤ ((w ++ back).takeWhile p).length := by
  rw [List.takeWhile_append_of_pos hw, List.length_append]
  exact Nat.le_add_right _ _

/-- No number at the head of a text is longer than the one that is read there. -/
lemma length_le_numberAtHead {w : List Char} (hw : IsNumber w) (back : List Char) :
    w.length ≤ (numberAtHead (w ++ back)).length := by
  rcases hw with digits | ⟨whole, fraction, hwhole, hfraction, rfl⟩
  · have read := length_le_takeWhile digits.2 back
    have some : (w ++ back).takeWhile Char.isDigit ≠ [] := by
      intro none
      rw [none] at read
      exact digits.1 (List.eq_nil_of_length_eq_zero (Nat.le_zero.1 read))
    rw [numberAtHead_eq, if_neg some, List.length_append]
    omega
  · have read := length_le_takeWhile hfraction.2 back
    have some : (fraction ++ back).takeWhile Char.isDigit ≠ [] := by
      intro none
      rw [none] at read
      exact hfraction.1 (List.eq_nil_of_length_eq_zero (Nat.le_zero.1 read))
    rw [List.append_assoc, List.cons_append,
      numberAtHead_of_digits hwhole (by rintro c more ⟨⟩; decide), fractionAtHead_point,
      if_neg some]
    simp only [List.length_append, List.length_cons]
    omega

namespace Lexeme

variable {c : Char} {rest taken left w back : List Char} {k : Kind}

lemma length_le_atHead_of_isWord (hw : IsWord w) (h : c :: rest = w ++ back) :
    (atHead c rest).kind ≠ .stray ∧ w.length ≤ (atHead c rest).text.length := by
  obtain ⟨first, more, rfl, hfirst, hmore⟩ := hw
  obtain ⟨rfl, rfl⟩ := List.cons.inj h
  have read := length_le_takeWhile hmore back
  rw [atHead_of_startsWord hfirst]
  exact ⟨Kind.ofWord_ne_stray _, Nat.succ_le_succ read⟩

lemma length_le_atHead_of_isBlanks (hw : IsBlanks w) (h : c :: rest = w ++ back) :
    (atHead c rest).kind ≠ .stray ∧ w.length ≤ (atHead c rest).text.length := by
  obtain ⟨first, more, rfl⟩ := List.exists_cons_of_ne_nil hw.ne_nil
  obtain ⟨rfl, rfl⟩ := List.cons.inj h
  have read := length_le_takeWhile (fun d hd => hw.2 d (List.mem_cons_of_mem c hd)) back
  rw [atHead_of_isBlank (isBlank_of_form hw)]
  exact ⟨by simp, Nat.succ_le_succ read⟩

lemma length_le_atHead_of_punctuation {p : Char} (hp : Kind.ofPunctuation? p = some k)
    (hk : k ≠ .stray) (h : c :: rest = [p] ++ back) :
    (atHead c rest).kind ≠ .stray ∧ [p].length ≤ (atHead c rest).text.length := by
  obtain ⟨rfl, rfl⟩ := List.cons.inj h
  rw [atHead_punctuation hp]
  exact ⟨hk, le_rfl⟩

lemma length_le_atHead_of_fuzzy (form : Kind.fuzzy.Form w) (h : c :: rest = w ++ back) :
    (atHead c rest).kind ≠ .stray ∧ w.length ≤ (atHead c rest).text.length := by
  obtain ⟨number, rfl, hnumber⟩ := form
  obtain ⟨rfl, rfl⟩ := List.cons.inj h
  have read : number.length ≤ (numberAtHead (number ++ back)).length := by
    rcases hnumber with rfl | hnumber
    · exact Nat.zero_le _
    · exact length_le_numberAtHead hnumber back
  rw [atHead_tilde]
  exact ⟨by simp, Nat.succ_le_succ read⟩

lemma length_le_atHead_of_boost (form : Kind.boost.Form w) (h : c :: rest = w ++ back) :
    (atHead c rest).kind ≠ .stray ∧ w.length ≤ (atHead c rest).text.length := by
  obtain ⟨number, rfl, hnumber⟩ := form
  obtain ⟨rfl, rfl⟩ := List.cons.inj h
  have read := length_le_numberAtHead hnumber back
  have some : numberAtHead (number ++ back) ≠ [] := by
    have := List.length_pos_iff.2 hnumber.ne_nil
    exact List.length_pos_iff.1 (by omega)
  rw [atHead_caret]
  exact ⟨by simp [some], by simpa [some] using read⟩

lemma length_le_atHead_of_phrase (form : Kind.phrase.Form w) (h : c :: rest = w ++ back) :
    (atHead c rest).kind ≠ .stray ∧ w.length ≤ (atHead c rest).text.length := by
  obtain ⟨text, rfl, plain⟩ := form
  rw [List.cons_append, List.append_assoc, List.singleton_append] at h
  obtain ⟨rfl, rfl⟩ := List.cons.inj h
  rw [atHead_closed plain]
  exact ⟨by simp, le_rfl⟩

/-- **Nothing at the head of a text that has the form of a token is longer than the lexeme that is
read there**, and where there is any such thing, that lexeme is not stray. -/
lemma length_le_atHead (hw : IsTokenText w) (h : c :: rest = w ++ back) :
    (atHead c rest).kind ≠ .stray ∧ w.length ≤ (atHead c rest).text.length := by
  obtain ⟨k, hk, form⟩ := hw
  cases k
  case fuzzy => exact length_le_atHead_of_fuzzy form h
  case boost => exact length_le_atHead_of_boost form h
  case phrase => exact length_le_atHead_of_phrase form h
  case keywordAnd =>
    obtain rfl : w = ['A', 'N', 'D'] := form
    exact length_le_atHead_of_isWord (isWord_of_all (by decide) (by decide)) h
  case keywordOr =>
    obtain rfl : w = ['O', 'R'] := form
    exact length_le_atHead_of_isWord (isWord_of_all (by decide) (by decide)) h
  case keywordNot =>
    obtain rfl : w = ['N', 'O', 'T'] := form
    exact length_le_atHead_of_isWord (isWord_of_all (by decide) (by decide)) h
  case word => exact length_le_atHead_of_isWord form.1 h
  case blank => exact length_le_atHead_of_isBlanks form h
  case stray => exact absurd rfl hk
  case rangeTo | distance | rangeBound | endOfInput => exact form.elim
  all_goals
    obtain rfl := form
    exact length_le_atHead_of_punctuation rfl (by simp) h

/-- A token can start at the head of a text exactly when the lexeme there is not stray. -/
lemma startsToken_iff : StartsToken (c :: rest) ↔ (atHead c rest).kind ≠ .stray := by
  constructor
  · rintro ⟨w, back, h, hw⟩
    exact (length_le_atHead hw h).1
  · intro hk
    obtain ⟨taken, left, htext, hrest⟩ := exists_append_atHead c rest
    have form := form_atHead c rest
    exact ⟨_, left, by rw [htext, hrest, List.cons_append], _, hk, form⟩

lemma isLongest_atHead (htext : (atHead c rest).text = c :: taken) (hrest : rest = taken ++ left) :
    IsLongest (c :: taken) left := by
  intro v more h hv
  rw [List.cons_append, ← hrest] at h
  rw [← htext]
  exact (length_le_atHead hv h).2

/-- A stray lexeme at the head of a text is a stretch by itself, if a token can start after it. -/
lemma isStrayStretch_atHead (stray : (atHead c rest).kind = .stray)
    (htext : (atHead c rest).text = c :: taken) (hrest : rest = taken ++ left)
    (hleft : left ≠ [] → StartsToken left) : IsStrayStretch (c :: taken) left := by
  have here : ¬StartsToken (c :: (taken ++ left)) := by
    rw [← hrest, startsToken_iff]
    exact not_not.2 stray
  by_cases hquote : c = '"'
  · subst hquote
    have whole := text_atHead_quote stray
    rw [htext, hrest] at whole
    have nothing : left = [] := by
      have := (List.cons.inj whole).2
      exact List.append_right_eq_self.1 this.symm
    refine ⟨by simp, ?_, fun h => absurd nothing h⟩
    intro u d v h hu
    cases u with
    | nil =>
      obtain ⟨rfl, rfl⟩ := List.cons.inj h
      exact here
    | cons first u =>
      obtain ⟨rfl, -⟩ := List.cons.inj h
      exact absurd List.mem_cons_self hu
  · have one := text_atHead_of_stray stray hquote
    obtain rfl : taken = [] := (List.cons.inj (htext.symm.trans one)).2
    refine ⟨by simp, ?_, fun h => ⟨by simpa using Ne.symm hquote, hleft h⟩⟩
    intro u d v h hu
    cases u with
    | nil =>
      obtain ⟨rfl, rfl⟩ := List.cons.inj h
      exact here
    | cons first u =>
      have := (List.cons.inj h).2
      simp at this

/-- A character at which no token can start makes a stretch longer, unless it is a quote. -/
lemma isStrayStretch_cons (hquote : c ≠ '"') (here : ¬StartsToken (c :: (w ++ back)))
    (h : IsStrayStretch w back) : IsStrayStretch (c :: w) back := by
  refine ⟨by simp, ?_, ?_⟩
  · intro u d v hw hu
    cases u with
    | nil =>
      obtain ⟨rfl, rfl⟩ := List.cons.inj hw
      exact here
    | cons first u =>
      exact h.inside u d v (List.cons.inj hw).2 fun mem => hu (List.mem_cons_of_mem _ mem)
  · intro hback
    obtain ⟨plain, starts⟩ := h.maximal hback
    refine ⟨?_, starts⟩
    intro mem
    rcases List.mem_cons.1 mem with hc | mem
    · exact hquote hc.symm
    · exact plain mem

/-- A stray lexeme with something left after it is one character, and not a quote. -/
lemma one_of_left (stray : (atHead c rest).kind = .stray)
    (whole : c :: rest = (atHead c rest).text ++ left) (hleft : left ≠ []) :
    c ≠ '"' ∧ (atHead c rest).text = [c] ∧ rest = left := by
  have hquote : c ≠ '"' := by
    rintro rfl
    rw [text_atHead_quote stray] at whole
    exact hleft (List.append_right_eq_self.1 whole.symm)
  have one := text_atHead_of_stray stray hquote
  rw [one] at whole
  exact ⟨hquote, one, (List.cons.inj whole).2⟩

/-- The lexeme at the head of a text is exact, unless it is stray and so is what comes after it. -/
lemma isExact_atHead (whole : c :: rest = (atHead c rest).text ++ left)
    (hleft : (atHead c rest).kind = .stray → left ≠ [] → StartsToken left) :
    (atHead c rest).IsExact left := by
  obtain ⟨taken, left', hhead, hrest⟩ := exists_append_atHead c rest
  obtain rfl : left' = left := by
    rw [hhead, hrest, List.cons_append] at whole
    exact List.append_cancel_left (List.cons.inj whole).2
  refine ⟨fun stray => ?_, fun _ => ⟨form_atHead c rest, ?_⟩⟩
  · rw [hhead]
    exact isStrayStretch_atHead stray hhead hrest (hleft stray)
  · rw [hhead]
    exact isLongest_atHead hhead hrest

/-! ## The lexemes of a text -/

lemma startsToken_of_scan {text : List Char} {l : Lexeme} {more : List Lexeme}
    (h : scan text = l :: more) (hk : l.kind ≠ .stray) : StartsToken text := by
  obtain ⟨form, back, htext, -⟩ := scan_eq_cons h
  exact ⟨l.text, back, htext, l.kind, hk, form⟩

/-- **The first lexeme of a scan is exact.** -/
theorem isExact_of_scan {text : List Char} {l : Lexeme} {more : List Lexeme}
    (h : scan text = l :: more) (htext : text = l.text ++ back) : l.IsExact back := by
  induction hn : text.length using Nat.strongRecOn generalizing text l more back with
  | ind n ih =>
    cases text with
    | nil => simp at h
    | cons c rest =>
      obtain ⟨taken, left, hhead, hrest⟩ := exists_append_atHead c rest
      have whole : c :: rest = (atHead c rest).text ++ left := by rw [hhead, hrest]; rfl
      rw [scan_cons hhead hrest] at h
      rcases joinStray_cases h with ⟨rfl, -, apart⟩ | ⟨next, hscan, stray, hnext, rfl⟩
      · obtain rfl := List.append_cancel_left (whole.symm.trans htext)
        refine isExact_atHead whole fun stray hleft => ?_
        cases hscan : scan left with
        | nil => exact absurd (scan_eq_nil hscan) hleft
        | cons next others => exact startsToken_of_scan hscan (apart next others hscan stray)
      · have hleft : left ≠ [] := by
          rintro rfl
          cases hscan
        obtain ⟨hquote, one, rfl⟩ := one_of_left stray whole hleft
        rw [one] at htext ⊢
        have hback : rest = next.text ++ back := (List.cons.inj htext).2
        have here : ¬StartsToken (c :: (next.text ++ back)) := by
          rw [← hback, startsToken_iff]
          exact not_not.2 stray
        have shorter : rest.length < n := by
          rw [← hn, List.length_cons]
          omega
        have after := (ih _ shorter hscan hback rfl).stretch hnext
        exact ⟨fun _ => isStrayStretch_cons hquote here after, fun hk => absurd rfl hk⟩

/-- Neighbours of one kind are neither stray nor blanks nor words, as these would be longer. -/
lemma kind_not_mem_of_scan {text : List Char} {l m : Lexeme} {more : List Lexeme}
    (h : scan text = l :: m :: more) (hkind : l.kind = m.kind) :
    l.kind ∉ [Kind.stray, .blank, .word] := by
  obtain ⟨form, back, htext, hmore⟩ := scan_eq_cons h
  obtain ⟨form', beyond, hback, -⟩ := scan_eq_cons hmore.symm
  have exact := isExact_of_scan h htext
  have exact' := isExact_of_scan hmore.symm hback
  -- both together would have the form of a token, but the first alone is as long as one can be
  have joined (hk : l.kind ≠ .stray) : ¬IsTokenText (l.text ++ m.text) := by
    intro hw
    have longest := (exact.longest hk).2 _ beyond (by rw [hback, List.append_assoc]) hw
    have hlength := List.length_pos_iff.2 form'.ne_nil
    rw [List.length_append] at longest
    omega
  intro mem
  rw [← hkind] at form'
  simp only [List.mem_cons, List.not_mem_nil, or_false] at mem
  rcases mem with hk | hk | hk
  · obtain ⟨d, tail, hm⟩ := List.exists_cons_of_ne_nil form'.ne_nil
    have starts := ((exact.stretch hk).maximal (by simp [hback, hm])).2
    refine (exact'.stretch (hkind ▸ hk)).inside [] d tail hm List.not_mem_nil ?_
    rwa [hback, hm] at starts
  · rw [hk] at form form'
    refine joined (by simp [hk]) ⟨.blank, by simp, ?_, ?_⟩
    · simp [form.ne_nil]
    · intro d hd
      rcases List.mem_append.1 hd with hd | hd
      · exact form.2 d hd
      · exact form'.2 d hd
  · rw [hk] at form form'
    obtain ⟨c, tail, hl, hc, htail⟩ := form.1
    obtain ⟨d, tail', hm, hd, htail'⟩ := form'.1
    refine joined (by simp [hk]) (IsWord.isTokenText ⟨c, tail ++ m.text, by rw [hl]; rfl, hc, ?_⟩)
    intro e he
    rcases List.mem_append.1 he with he | he
    · exact htail e he
    · rw [hm] at he
      rcases List.mem_cons.1 he with rfl | he
      · simp [continuesWord, hd]
      · exact htail' e he

lemma isChain_scan (text : List Char) :
    (scan text).IsChain fun l m => l.kind = m.kind → l.kind ∉ [Kind.stray, .blank, .word] := by
  induction hs : scan text generalizing text with
  | nil => exact List.isChain_nil
  | cons l more ih =>
    obtain ⟨-, back, -, hmore⟩ := scan_eq_cons hs
    cases more with
    | nil => exact List.isChain_singleton l
    | cons m others =>
      rw [List.isChain_cons_cons]
      exact ⟨kind_not_mem_of_scan hs, ih back hmore.symm⟩

end Lexeme

/-! ## The tokens of a source -/

namespace Token

lemma map_kind_place (o : Nat) (lexemes : List Lexeme) :
    (place o lexemes).map Token.kind = lexemes.map Lexeme.kind := by
  induction lexemes generalizing o with
  | nil => rfl
  | cons l more ih => rw [place, List.map_cons, List.map_cons, ih]

/-- The spans of lexemes that are laid side by side read their texts. -/
lemma map_slice?_place {source back : List Char} {o : Nat} {lexemes : List Lexeme}
    (h : Text.dropBytes? o source = some (lexemes.flatMap Lexeme.text ++ back)) :
    (place o lexemes).map (·.span.slice? source) = (lexemes.map Lexeme.text).map some := by
  induction lexemes generalizing o with
  | nil => rfl
  | cons l more ih =>
    obtain ⟨front, hsource, rfl⟩ := Text.dropBytes?_eq_some_iff.1 h
    rw [List.flatMap_cons, List.append_assoc] at hsource
    have slice := Span.slice?_append front l.text (more.flatMap Lexeme.text ++ back)
    have after : Text.dropBytes? (Text.byteSize front + Text.byteSize l.text) source =
        some (more.flatMap Lexeme.text ++ back) := by
      refine Text.dropBytes?_eq_some_iff.2 ⟨front ++ l.text, ?_, Text.byteSize_append _ _⟩
      rw [hsource, List.append_assoc]
    rw [place, List.map_cons, List.map_cons, List.map_cons, ih after, hsource, slice]

end Token

namespace Setting

variable {c : Setting} {o : Nat}

/-- **The token at a place is exact.** -/
lemma isExact_tokenAt? {token : Token} (h : c.tokenAt? o = some token) :
    token.IsExact c.source := by
  rw [tokenAt?, lexFrom_eq] at h
  cases hs : Lexeme.scan (c.rest o) with
  | nil =>
    rw [hs] at h
    cases h
  | cons l more =>
    obtain ⟨form, back, hrest, -⟩ := Lexeme.scan_eq_cons hs
    rw [hs] at h
    obtain rfl := Option.some.inj h
    have boundary : Text.IsBoundary c.source o :=
      isBoundary_of_rest_ne_nil (by simp [hrest, form.ne_nil])
    refine ⟨l.text, back, ?_, rfl, Lexeme.isExact_of_scan hs hrest⟩
    rw [← hrest]
    exact dropBytes?_eq_rest boundary

lemma isExact_of_mem_lexFrom {token : Token} (h : token ∈ Token.lexFrom c.source o) :
    token.IsExact c.source := by
  induction hl : Token.lexFrom c.source o generalizing o with
  | nil =>
    rw [hl] at h
    cases h
  | cons first more ih =>
    rw [hl] at h
    rcases List.mem_cons.1 h with rfl | h
    · exact isExact_tokenAt? (by rw [tokenAt?, hl]; rfl)
    · obtain ⟨-, -, -, hmore⟩ := lexFrom_eq_cons hl
      rw [hmore] at h
      exact ih h hmore.symm

end Setting

/-- The ends of an exact token lie between characters. -/
lemma Token.IsExact.boundaries {source : List Char} {token : Token} (h : token.IsExact source) :
    Text.IsBoundary source token.span.start ∧ Text.IsBoundary source token.span.stop := by
  obtain ⟨text, back, hdrop, hsize, -⟩ := h
  obtain ⟨front, hsource, hstart⟩ := Text.dropBytes?_eq_some_iff.1 hdrop
  refine ⟨Text.isBoundary_iff.2 ⟨front, text ++ back, hsource, hstart⟩, ?_⟩
  refine Text.isBoundary_iff.2 ⟨front ++ text, back, by rw [hsource, List.append_assoc], ?_⟩
  rw [Text.byteSize_append, hstart, hsize, Span.stop]

/-- **Tokens tile a source by longest match.**  From any place between characters on, the tokens lie
side by side up to the end of the source, and their texts make up what is left of it.  No two
neighbours are both stray, both blanks or both words.  Each token ends between characters and is
exact: the longest match at its place, or a stray stretch that is as long as it can be. -/
theorem lexFrom_longest_match {source : List Char} {start : Nat}
    (h : Text.IsBoundary source start) :
    let tokens := Token.lexFrom source start
    Token.Tiles start tokens (Text.byteSize source) ∧
      (∃ texts : List (List Char), tokens.map (·.span.slice? source) = texts.map some ∧
        Text.dropBytes? start source = some texts.flatten) ∧
      tokens.IsChain (fun t u => t.kind = u.kind → t.kind ∉ [Kind.stray, .blank, .word]) ∧
      ∀ token ∈ tokens, Text.IsBoundary source token.span.start ∧
        Text.IsBoundary source token.span.stop ∧ token.IsExact source := by
  intro tokens
  let c : Setting := ⟨source, none⟩
  have hdrop : Text.dropBytes? start source = some (c.rest start) :=
    Setting.dropBytes?_eq_rest (c := c) h
  have hplace : tokens = Token.place start (Lexeme.scan (c.rest start)) :=
    Setting.lexFrom_eq c start
  have lossless := Lexeme.flatMap_text_scan (c.rest start)
  refine ⟨Setting.tiles_lexFrom (c := c) h, ?_, ?_, ?_⟩
  · refine ⟨(Lexeme.scan (c.rest start)).map Lexeme.text, ?_, ?_⟩
    · rw [hplace]
      apply Token.map_slice?_place
      rw [lossless, List.append_nil, hdrop]
    · rw [hdrop, ← List.flatMap_def, lossless]
  · have chain := Lexeme.isChain_scan (c.rest start)
    have kinds := Token.map_kind_place start (Lexeme.scan (c.rest start))
    rw [← hplace] at kinds
    have onKinds : ((Lexeme.scan (c.rest start)).map Lexeme.kind).IsChain
        fun j k => j = k → j ∉ [Kind.stray, .blank, .word] := (List.isChain_map _).2 chain
    rw [← kinds] at onKinds
    exact (List.isChain_map _).1 onKinds
  · intro token mem
    have exact : token.IsExact source := Setting.isExact_of_mem_lexFrom (c := c) mem
    exact ⟨exact.boundaries.1, exact.boundaries.2, exact⟩

/-- Numbers stop in front of a point that no digit follows, and the point is then stray.  The quote
that is never closed takes what looks like a keyword with it. -/
theorem lexFrom_longest_match_openQuote :
    let source := "é~1.^2.\"AND".toList
    Text.IsBoundary source 2 ∧
      Token.lexFrom source 2 =
        [⟨.fuzzy, ⟨2, 2⟩⟩, ⟨.stray, ⟨4, 1⟩⟩, ⟨.boost, ⟨5, 2⟩⟩, ⟨.stray, ⟨7, 5⟩⟩] ∧
      ∀ token ∈ Token.lexFrom source 2, token.IsExact source := by
  intro source
  have boundary : Text.IsBoundary source 2 := by decide
  obtain ⟨-, -, -, exact⟩ := lexFrom_longest_match boundary
  refine ⟨boundary, by decide, ?_⟩
  intro token mem
  exact (exact token mem).2.2

end SearchQuery
