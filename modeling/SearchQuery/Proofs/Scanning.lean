import SearchQuery.Proofs.Forms
import SearchQuery.Parse.State

/-!
# Scanning afresh

A scan joins neighbouring stray characters, so the lexemes of a text depend on where the scan began.
`Lexeme.scan_eq_cons` says how little: what a scan finds after one of its lexemes is what a scan
finds that begins there.  With it a place in a text stands for all that will be read from it, and
`Setting.rest` names that: the text from a place on.

## The token at a place

`Setting.tokenAt?` is the first token of the source cut from a place on.  Its kind, its text and the
place after it are `kindAt`, `textAt` and `next`.  Two lemmas tie them to characters, one for each
direction: `Setting.reads_at` says what stands at a place whatever it is, and `Setting.at_lexeme`
computes all three from a text that is known to be scanned as a certain lexeme.
-/

namespace SearchQuery

namespace Lexeme

/-! ## The first lexeme and the others -/

@[simp] lemma scan_nil : scan [] = [] := rfl

lemma scan_cons {c : Char} {rest taken left : List Char}
    (htext : (atHead c rest).text = c :: taken) (hrest : rest = taken ++ left) :
    scan (c :: rest) = joinStray (atHead c rest) (scan left) := by
  rw [scan, scanAfter_zero_cons htext hrest, List.foldr_cons, scan]

/-- What becomes of a lexeme in front of others: it stays as it is, and then not both it and the
first of them are stray, or these two become one. -/
lemma joinStray_cases {l m : Lexeme} {lexemes more : List Lexeme}
    (h : joinStray l lexemes = m :: more) :
    (m = l ∧ more = lexemes ∧
      ∀ next others, lexemes = next :: others → l.kind = .stray → next.kind ≠ .stray) ∨
    (∃ next, lexemes = next :: more ∧ l.kind = .stray ∧ next.kind = .stray ∧
      m = ⟨.stray, l.text ++ next.text⟩) := by
  cases lexemes with
  | nil =>
    obtain ⟨rfl, rfl⟩ := List.cons.inj h
    exact Or.inl ⟨rfl, rfl, fun _ _ none => by cases none⟩
  | cons next others =>
    rw [joinStray] at h
    split_ifs at h with both
    · obtain ⟨rfl, rfl⟩ := List.cons.inj h
      exact Or.inr ⟨next, rfl, both.1, both.2, rfl⟩
    · obtain ⟨rfl, rfl⟩ := List.cons.inj h
      refine Or.inl ⟨rfl, rfl, ?_⟩
      rintro _ _ ⟨⟩ stray stray'
      exact both ⟨stray, stray'⟩

/-- **A scan begins afresh after each of its lexemes.**  A stretch of stray characters ends where
something else starts, so no stray lexeme follows another. -/
lemma scan_eq_cons {text : List Char} {l : Lexeme} {more : List Lexeme}
    (h : scan text = l :: more) :
    l.kind.Form l.text ∧ ∃ rest, text = l.text ++ rest ∧ more = scan rest := by
  induction hn : text.length using Nat.strongRecOn generalizing text l more with
  | ind n ih =>
    cases text with
    | nil => simp at h
    | cons c rest =>
      obtain ⟨taken, left, htext, hrest⟩ := exists_append_atHead c rest
      have whole : c :: rest = (atHead c rest).text ++ left := by rw [htext, hrest]; rfl
      rw [scan_cons htext hrest] at h
      rcases joinStray_cases h with ⟨rfl, rfl, -⟩ | ⟨second, hleft, -, -, rfl⟩
      · exact ⟨form_atHead c rest, left, whole, rfl⟩
      · -- the two are one lexeme, and the scan goes on after the second of them
        have shorter : left.length < n := by
          rw [← hn, hrest]
          simp only [List.length_cons, List.length_append]
          omega
        obtain ⟨-, back, hback, hmore⟩ := ih _ shorter hleft rfl
        refine ⟨by simp [Kind.Form, htext], back, ?_, hmore⟩
        rw [whole, hback, List.append_assoc]

lemma scan_eq_nil {text : List Char} (h : scan text = []) : text = [] := by
  rw [← flatMap_text_scan text, h]
  rfl

/-- A lexeme that is not stray stands alone at the front of its text. -/
lemma scan_of_atHead {c : Char} {taken left : List Char} {k : Kind}
    (h : atHead c (taken ++ left) = ⟨k, c :: taken⟩) (hk : k ≠ .stray) :
    scan (c :: (taken ++ left)) = ⟨k, c :: taken⟩ :: scan left := by
  have htext : (atHead c (taken ++ left)).text = c :: taken := by rw [h]
  rw [scan_cons htext rfl, h]
  cases scan left with
  | nil => rfl
  | cons second others => simp [joinStray, hk]

/-! ## Texts and the lexemes they are scanned as -/

lemma scan_punctuation {c : Char} {k : Kind} (h : Kind.ofPunctuation? c = some k)
    (rest : List Char) : scan (c :: rest) = ⟨k, [c]⟩ :: scan rest := by
  have hk : k ≠ .stray := by
    rintro rfl
    unfold Kind.ofPunctuation? at h
    split at h <;> cases h
  exact @scan_of_atHead c [] rest k (atHead_punctuation h rest) hk

lemma scan_fuzzy {number rest : List Char} (h : number = [] ∨ IsNumber number)
    (hrest : StopsNumber rest) :
    scan ('~' :: (number ++ rest)) = ⟨.fuzzy, '~' :: number⟩ :: scan rest :=
  scan_of_atHead (atHead_fuzzy h hrest) (by simp)

lemma scan_boost {number rest : List Char} (h : IsNumber number) (hrest : StopsNumber rest) :
    scan ('^' :: (number ++ rest)) = ⟨.boost, '^' :: number⟩ :: scan rest :=
  scan_of_atHead (atHead_boost h hrest) (by simp)

lemma scan_phrase {text : List Char} (h : IsPhraseText text) (rest : List Char) :
    scan ('"' :: (text ++ '"' :: rest)) = ⟨.phrase, '"' :: (text ++ ['"'])⟩ :: scan rest := by
  have e : text ++ '"' :: rest = (text ++ ['"']) ++ rest := by simp
  rw [e]
  exact scan_of_atHead (by rw [← e, atHead_closed h]) (by simp)

lemma scan_word {w rest : List Char} (h : IsWord w)
    (hrest : ∀ d tail, rest = d :: tail → continuesWord d = false) :
    scan (w ++ rest) = ⟨Kind.ofWord w, w⟩ :: scan rest := by
  obtain ⟨c, more, rfl, hc, hmore⟩ := h
  exact scan_of_atHead (atHead_word hc hmore hrest) (Kind.ofWord_ne_stray _)

lemma scan_blanks {w rest : List Char} (h : IsBlanks w)
    (hrest : ∀ d tail, rest = d :: tail → isBlank d = false) :
    scan (w ++ rest) = ⟨.blank, w⟩ :: scan rest := by
  obtain ⟨c, more, rfl⟩ := List.exists_cons_of_ne_nil h.ne_nil
  exact scan_of_atHead (atHead_blanks h hrest) (by simp)

end Lexeme

/-! ## Places in the source -/

namespace Setting

/-- The text of the source from a place on. -/
def rest (c : Setting) (o : Nat) : List Char := (Text.dropBytes? o c.source).getD []

/-- The first token of the source from a place on; `none` at the end. -/
def tokenAt? (c : Setting) (o : Nat) : Option Token := (Token.lexFrom c.source o).head?

/-- The kind of what stands at a place. -/
def kindAt (c : Setting) (o : Nat) : Kind :=
  match c.tokenAt? o with
  | some token => token.kind
  | none => .endOfInput

/-- The text of the token at a place; empty at the end. -/
def textAt (c : Setting) (o : Nat) : List Char :=
  ((c.tokenAt? o).bind (·.span.slice? c.source)).getD []

/-- The place after the token at a place. -/
def next (c : Setting) (o : Nat) : Nat :=
  match c.tokenAt? o with
  | some token => token.span.stop
  | none => o

variable {c : Setting} {o : Nat}

@[simp] lemma rest_zero : c.rest 0 = c.source := by simp [rest]

lemma dropBytes?_eq_rest (h : Text.IsBoundary c.source o) :
    Text.dropBytes? o c.source = some (c.rest o) := by
  obtain ⟨text, htext⟩ := Option.isSome_iff_exists.1 h
  rw [rest, htext, Option.getD_some]

lemma isBoundary_of_rest_ne_nil (h : c.rest o ≠ []) : Text.IsBoundary c.source o := by
  unfold rest at h
  unfold Text.IsBoundary
  cases hd : Text.dropBytes? o c.source with
  | none => simp [hd] at h
  | some text => rfl

/-- The place after a front part of what is left has the other part left. -/
lemma rest_add {front back : List Char} (h : c.rest o = front ++ back) :
    c.rest (o + Text.byteSize front) = back := by
  cases hd : Text.dropBytes? o c.source with
  | none =>
    have hnil : c.rest o = [] := by rw [rest, hd, Option.getD_none]
    obtain ⟨rfl, rfl⟩ := List.append_eq_nil_iff.1 (h.symm.trans hnil)
    simpa using hnil
  | some text =>
    have htext : text = front ++ back := by rw [← h, rest, hd, Option.getD_some]
    obtain ⟨before, hsource, hsize⟩ := Text.dropBytes?_eq_some_iff.1 hd
    have hcut : Text.dropBytes? (o + Text.byteSize front) c.source = some back := by
      refine Text.dropBytes?_eq_some_iff.2 ⟨before ++ front, ?_, ?_⟩
      · rw [hsource, htext, List.append_assoc]
      · rw [Text.byteSize_append, hsize]
    rw [rest, hcut, Option.getD_some]

lemma lexFrom_eq (c : Setting) (o : Nat) :
    Token.lexFrom c.source o = Token.place o (Lexeme.scan (c.rest o)) := by
  unfold Token.lexFrom rest
  cases Text.dropBytes? o c.source <;> rfl

/-- Where the text is known to be scanned as a certain lexeme, that lexeme is what stands there. -/
lemma at_lexeme {k : Kind} {w back : List Char} (h : c.rest o = w ++ back) (hw : w ≠ [])
    (hs : Lexeme.scan (w ++ back) = ⟨k, w⟩ :: Lexeme.scan back) :
    c.kindAt o = k ∧ c.textAt o = w ∧ c.next o = o + Text.byteSize w := by
  have token : c.tokenAt? o = some ⟨k, ⟨o, Text.byteSize w⟩⟩ := by
    rw [tokenAt?, lexFrom_eq, h, hs]
    rfl
  have boundary : Text.IsBoundary c.source o := isBoundary_of_rest_ne_nil (by simp [h, hw])
  have slice : Span.slice? ⟨o, Text.byteSize w⟩ c.source = some w := by
    simp [Span.slice?, dropBytes?_eq_rest boundary, h, Text.takeBytes?_append]
  refine ⟨?_, ?_, ?_⟩
  · rw [kindAt, token]
  · rw [textAt, token, Option.bind_some, slice, Option.getD_some]
  · rw [next, token]
    rfl

lemma kindAt_of_rest_eq_nil (h : c.rest o = []) :
    c.kindAt o = .endOfInput ∧ c.textAt o = [] ∧ c.next o = o := by
  have token : c.tokenAt? o = none := by
    rw [tokenAt?, lexFrom_eq, h]
    rfl
  simp [kindAt, textAt, next, token]

/-- What stands at a place: the end of the source, or a token whose text has the form of its
kind and is followed by what is left after it. -/
lemma reads_at (c : Setting) (o : Nat) :
    c.kindAt o = .endOfInput ∧ c.rest o = [] ∧ c.next o = o ∨
      (c.kindAt o).Form (c.textAt o) ∧ c.rest o = c.textAt o ++ c.rest (c.next o) ∧
        c.next o = o + Text.byteSize (c.textAt o) := by
  cases hs : Lexeme.scan (c.rest o) with
  | nil =>
    have hnil := Lexeme.scan_eq_nil hs
    obtain ⟨hk, -, hn⟩ := kindAt_of_rest_eq_nil hnil
    exact Or.inl ⟨hk, hnil, hn⟩
  | cons l more =>
    obtain ⟨form, back, hrest, rfl⟩ := Lexeme.scan_eq_cons hs
    obtain ⟨hk, ht, hn⟩ := at_lexeme hrest form.ne_nil (hrest ▸ hs)
    refine Or.inr ⟨?_, ?_, ?_⟩
    · rw [hk, ht]
      exact form
    · rw [ht, hn, rest_add hrest, hrest]
    · rw [hn, ht]

/-- A token that was seen is there. -/
lemma reads_of_kindAt {k : Kind} (h : c.kindAt o = k) (hk : k ≠ .endOfInput) :
    k.Form (c.textAt o) ∧ c.rest o = c.textAt o ++ c.rest (c.next o) ∧
      c.next o = o + Text.byteSize (c.textAt o) := by
  rcases reads_at c o with ⟨he, -⟩ | ⟨form, hrest, hn⟩
  · exact absurd (h ▸ he) hk
  · exact ⟨h ▸ form, hrest, hn⟩

lemma rest_eq_nil_of_kindAt (h : c.kindAt o = .endOfInput) : c.rest o = [] := by
  rcases reads_at c o with ⟨-, hnil, -⟩ | ⟨form, -⟩
  · exact hnil
  · rw [h] at form
    exact form.elim

lemma kindAt_ne_of_rest {ch : Char} {text : List Char} (h : c.rest o = ch :: text) :
    c.kindAt o ≠ .endOfInput := by
  intro hend
  rw [rest_eq_nil_of_kindAt hend] at h
  cases h

/-! ### What is computed at a known text -/

variable {w back number : List Char}

lemma at_punctuation {p : Char} {k : Kind} (h : c.rest o = p :: back)
    (hp : Kind.ofPunctuation? p = some k) : c.kindAt o = k ∧ c.next o = o + p.utf8Size := by
  obtain ⟨hk, -, hn⟩ := at_lexeme (w := [p]) h (by simp) (Lexeme.scan_punctuation hp back)
  exact ⟨hk, by simpa using hn⟩

lemma at_word (h : c.rest o = w ++ back) (hw : IsWord w)
    (hback : ∀ d tail, back = d :: tail → continuesWord d = false) :
    c.kindAt o = Kind.ofWord w ∧ c.textAt o = w ∧ c.next o = o + Text.byteSize w :=
  at_lexeme h hw.ne_nil (Lexeme.scan_word hw hback)

lemma at_blanks (h : c.rest o = w ++ back) (hw : IsBlanks w)
    (hback : ∀ d tail, back = d :: tail → isBlank d = false) :
    c.kindAt o = .blank ∧ c.next o = o + Text.byteSize w := by
  obtain ⟨hk, -, hn⟩ := at_lexeme h hw.ne_nil (Lexeme.scan_blanks hw hback)
  exact ⟨hk, hn⟩

lemma at_fuzzy (h : c.rest o = '~' :: number ++ back) (hw : number = [] ∨ IsNumber number)
    (hback : StopsNumber back) :
    c.kindAt o = .fuzzy ∧ c.textAt o = '~' :: number ∧
      c.next o = o + Text.byteSize ('~' :: number) :=
  at_lexeme h (by simp) (Lexeme.scan_fuzzy hw hback)

lemma at_boost (h : c.rest o = '^' :: number ++ back) (hw : IsNumber number)
    (hback : StopsNumber back) :
    c.kindAt o = .boost ∧ c.textAt o = '^' :: number ∧
      c.next o = o + Text.byteSize ('^' :: number) :=
  at_lexeme h (by simp) (Lexeme.scan_boost hw hback)

lemma at_phrase (h : c.rest o = '"' :: (w ++ ['"']) ++ back) (hw : IsPhraseText w) :
    c.kindAt o = .phrase ∧ c.textAt o = '"' :: (w ++ ['"']) ∧
      c.next o = o + Text.byteSize ('"' :: (w ++ ['"'])) := by
  have scanned := Lexeme.scan_phrase hw back
  exact at_lexeme h (by simp) (by simpa using scanned)

end Setting

end SearchQuery
