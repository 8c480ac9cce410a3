import Mathlib.Data.List.TakeWhile
import Mathlib.Tactic.Lemma
import SearchQuery.Token.Lexeme

/-!
# The forms of lexemes

What each kind of lexeme looks like, said on characters and without any reader: digits and numbers,
blanks, words and the texts made of them.  `Kind.Form` gathers these as one pattern for each kind,
and `Lexeme.form_atHead` says that the lexeme at the head of a text always has the form of its kind,
by the cases of its first character (`Lexeme.begins`).

## The converse

The converse needs what comes after.  A text that has the form of a kind is the lexeme at the head
of a longer text only if the character after it does not carry it further, so each of the lemmas
`atHead_word`, `atHead_blanks`, `atHead_fuzzy` and `atHead_boost` asks that of the rest.  A phrase
and a character of punctuation end by themselves.
-/

namespace SearchQuery

/-! ## Texts of the grammar -/

/-- A run of decimal digits, not empty. -/
def IsDigits (w : List Char) : Prop := w ≠ [] ∧ ∀ c ∈ w, c.isDigit = true

/-- Digits, or digits, a point and digits. -/
def IsNumber (w : List Char) : Prop :=
  IsDigits w ∨ ∃ whole fraction, IsDigits whole ∧ IsDigits fraction ∧ w = whole ++ '.' :: fraction

/-- A run of blank characters, perhaps empty: what may stand where blanks are free. -/
def IsGap (w : List Char) : Prop := ∀ c ∈ w, isBlank c = true

/-- A run of blank characters, not empty. -/
def IsBlanks (w : List Char) : Prop := w ≠ [] ∧ IsGap w

/-- A word character, star or apostrophe, and any number of these and of hyphens after it. -/
def IsWord (w : List Char) : Prop :=
  ∃ c more, w = c :: more ∧ startsWord c = true ∧ ∀ d ∈ more, continuesWord d = true

/-- A word that is no keyword. -/
def IsTermText (w : List Char) : Prop :=
  IsWord w ∧ w ≠ ['A', 'N', 'D'] ∧ w ≠ ['O', 'R'] ∧ w ≠ ['N', 'O', 'T']

/-- A word that may name a field: no keyword, and without stars. -/
def IsFieldName (w : List Char) : Prop := IsTermText w ∧ '*' ∉ w

/-- What may stand between the quotes of a phrase. -/
def IsPhraseText (w : List Char) : Prop := '"' ∉ w

/-- A bound of a range: no blank and no closing bracket in it, and not empty. -/
def IsBound (w : List Char) : Prop := w ≠ [] ∧ ∀ c ∈ w, endsBound c = false

/-- The form of the texts of a kind.  The kinds that are no tokens have none. -/
def Kind.Form : Kind → List Char → Prop
  | openParen, w => w = ['(']
  | closeParen, w => w = [')']
  | openBracket, w => w = ['[']
  | closeBracket, w => w = [']']
  | openBrace, w => w = ['\x7b']
  | closeBrace, w => w = ['\x7d']
  | colon, w => w = [':']
  | plus, w => w = ['+']
  | minus, w => w = ['-']
  | fuzzy, w => ∃ number, w = '~' :: number ∧ (number = [] ∨ IsNumber number)
  | boost, w => ∃ number, w = '^' :: number ∧ IsNumber number
  | phrase, w => ∃ text, w = '"' :: (text ++ ['"']) ∧ IsPhraseText text
  | keywordAnd, w => w = ['A', 'N', 'D']
  | keywordOr, w => w = ['O', 'R']
  | keywordNot, w => w = ['N', 'O', 'T']
  | word, w => IsTermText w
  | blank, w => IsBlanks w
  | stray, w => w ≠ []
  | rangeTo, _ | distance, _ | rangeBound, _ | endOfInput, _ => False

/-! ## Small facts -/

lemma IsDigits.isNumber {w : List Char} (h : IsDigits w) : IsNumber w := Or.inl h

lemma IsNumber.ne_nil {w : List Char} (h : IsNumber w) : w ≠ [] := by
  rcases h with h | ⟨whole, fraction, -, -, rfl⟩
  · exact h.1
  · simp

lemma isGap_nil : IsGap [] := by simp [IsGap]

lemma IsBlanks.ne_nil {w : List Char} (h : IsBlanks w) : w ≠ [] := h.1

lemma IsWord.ne_nil {w : List Char} (h : IsWord w) : w ≠ [] := by
  obtain ⟨c, more, rfl, -⟩ := h
  simp

/-! ### Texts that are known -/

lemma isDigits_of_all {w : List Char} (hne : w ≠ []) (h : w.all Char.isDigit = true) :
    IsDigits w := ⟨hne, List.all_eq_true.1 h⟩

lemma isWord_of_all {c : Char} {more : List Char} (hc : startsWord c = true)
    (hmore : more.all continuesWord = true) : IsWord (c :: more) :=
  ⟨c, more, rfl, hc, List.all_eq_true.1 hmore⟩

lemma isBound_of_all {w : List Char} (hne : w ≠ []) (h : w.all (!endsBound ·) = true) :
    IsBound w := by
  refine ⟨hne, ?_⟩
  intro c hc
  simpa using List.all_eq_true.1 h c hc

lemma kindOfWord_eq_word {w : List Char} (h : IsTermText w) : Kind.ofWord w = .word := by
  obtain ⟨-, hAnd, hOr, hNot⟩ := h
  simp [Kind.ofWord, hAnd, hOr, hNot]

lemma Kind.ofWord_ne_stray (w : List Char) : Kind.ofWord w ≠ .stray := by
  unfold Kind.ofWord
  split_ifs <;> simp

/-- A word is a keyword or the text of a term, by its kind. -/
lemma form_ofWord {w : List Char} (h : IsWord w) : (Kind.ofWord w).Form w := by
  unfold Kind.ofWord
  split
  · assumption
  · split
    · assumption
    · split
      · assumption
      · exact ⟨h, by assumption, by assumption, by assumption⟩

lemma Kind.Form.ne_nil {k : Kind} {w : List Char} (h : k.Form w) : w ≠ [] := by
  cases k <;> simp only [Kind.Form] at h
  case fuzzy => obtain ⟨number, rfl, -⟩ := h; simp
  case boost => obtain ⟨number, rfl, -⟩ := h; simp
  case phrase => obtain ⟨text, rfl, -⟩ := h; simp
  case word => exact h.1.ne_nil
  case blank => exact h.1
  case stray => exact h
  all_goals (rw [h]; simp)

lemma isBlank_of_form {c : Char} {more : List Char} (h : IsBlanks (c :: more)) :
    isBlank c = true := h.2 c (by simp)

/-! ## Numbers -/

lemma isNumber_numberAtHead (text : List Char) :
    numberAtHead text = [] ∨ IsNumber (numberAtHead text) := by
  have digits : ∀ c ∈ text.takeWhile Char.isDigit, c.isDigit = true :=
    fun c hc => List.mem_takeWhile_imp hc
  unfold numberAtHead
  split
  · exact Or.inl rfl
  · rename_i hne
    right
    have whole : IsDigits (text.takeWhile Char.isDigit) := ⟨hne, digits⟩
    unfold fractionAtHead
    split
    · rename_i more _
      split
      · simpa using whole.isNumber
      · rename_i fne
        exact Or.inr ⟨_, _, whole, ⟨fne, fun c hc => List.mem_takeWhile_imp hc⟩, rfl⟩
    · simpa using whole.isNumber

/-- What may follow a number without carrying it further. -/
def StopsNumber (rest : List Char) : Prop :=
  ∀ c more, rest = c :: more → c.isDigit = false ∧ c ≠ '.'

/-- A run of characters that pass a test, before one that does not, is what the test takes. -/
lemma takeWhile_append_of_stop {p : Char → Bool} {w rest : List Char}
    (hw : ∀ c ∈ w, p c = true) (hrest : ∀ c more, rest = c :: more → p c = false) :
    (w ++ rest).takeWhile p = w ∧ (w ++ rest).dropWhile p = rest := by
  rw [List.takeWhile_append_of_pos hw, List.dropWhile_append_of_pos hw]
  cases rest with
  | nil => simp
  | cons c more =>
    have hc := hrest c more rfl
    simp [hc]

lemma numberAtHead_of_digits {w rest : List Char} (hw : IsDigits w)
    (hrest : ∀ c more, rest = c :: more → c.isDigit = false) :
    numberAtHead (w ++ rest) = w ++ fractionAtHead rest := by
  obtain ⟨htake, hdrop⟩ := takeWhile_append_of_stop hw.2 hrest
  obtain ⟨c, more, hcons⟩ := List.exists_cons_of_ne_nil hw.1
  unfold numberAtHead
  rw [htake, hdrop]
  simp [hcons]

/-- A number that the rest of the text does not carry further is the number at its head. -/
lemma numberAtHead_append {w rest : List Char} (hw : IsNumber w) (hrest : StopsNumber rest) :
    numberAtHead (w ++ rest) = w := by
  have hstop : ∀ c more, rest = c :: more → c.isDigit = false := fun c more e => (hrest c more e).1
  rcases hw with hw | ⟨whole, fraction, hwhole, hfraction, rfl⟩
  · rw [numberAtHead_of_digits hw hstop]
    have none : fractionAtHead rest = [] := by
      unfold fractionAtHead
      split
      · exact absurd rfl (hrest _ _ rfl).2
      · rfl
    rw [none, List.append_nil]
  · rw [List.append_assoc, List.cons_append,
      numberAtHead_of_digits hwhole (by rintro c more ⟨⟩; decide)]
    obtain ⟨htake, -⟩ := takeWhile_append_of_stop hfraction.2 hstop
    obtain ⟨c, more, hcons⟩ := List.exists_cons_of_ne_nil hfraction.1
    have point : fractionAtHead ('.' :: (fraction ++ rest)) = '.' :: fraction := by
      simp only [fractionAtHead, htake]
      rw [hcons]
    rw [point]

lemma fractionAtHead_point (more : List Char) :
    fractionAtHead ('.' :: more) =
      if more.takeWhile Char.isDigit = [] then [] else '.' :: more.takeWhile Char.isDigit := by
  cases hd : more.takeWhile Char.isDigit <;> simp [fractionAtHead, hd]

lemma numberAtHead_eq (text : List Char) :
    numberAtHead text =
      if text.takeWhile Char.isDigit = [] then []
      else text.takeWhile Char.isDigit ++ fractionAtHead (text.dropWhile Char.isDigit) := by
  cases hd : text.takeWhile Char.isDigit <;> simp [numberAtHead, hd]

lemma numberAtHead_of_stop {rest : List Char} (hrest : StopsNumber rest) :
    numberAtHead rest = [] := by
  cases rest with
  | nil => rfl
  | cons c more =>
    have hc := (hrest c more rfl).1
    simp [numberAtHead, hc]

/-! ## The lexeme at the head of a text -/

namespace Lexeme

lemma form_ofPunctuation {c : Char} {k : Kind} (h : Kind.ofPunctuation? c = some k) :
    k.Form [c] := by
  unfold Kind.ofPunctuation? at h
  split at h <;> cases h <;> rfl

/-- **The lexeme at the head of a text has the form of its kind.** -/
lemma form_atHead (c : Char) (rest : List Char) :
    (atHead c rest).kind.Form (atHead c rest).text := by
  cases begins c with
  | punctuation kind h =>
    rw [atHead_punctuation h]
    exact form_ofPunctuation h
  | tilde h =>
    subst h
    exact ⟨numberAtHead rest, rfl, isNumber_numberAtHead rest⟩
  | caret h =>
    subst h
    rw [atHead_caret]
    split
    · simp [Kind.Form]
    · rename_i number
      exact ⟨numberAtHead rest, rfl, (isNumber_numberAtHead rest).resolve_left number⟩
  | quote h =>
    subst h
    rcases closed_or_unclosed rest with ⟨text, more, rfl, plain⟩ | plain
    · rw [atHead_closed plain]
      exact ⟨text, rfl, plain⟩
    · rw [atHead_unclosed plain]
      simp [Kind.Form]
  | word h =>
    rw [atHead_of_startsWord h]
    exact form_ofWord ⟨c, _, rfl, h, fun d hd => List.mem_takeWhile_imp hd⟩
  | blank h =>
    rw [atHead_of_isBlank h]
    refine ⟨by simp, ?_⟩
    intro d hd
    rcases List.mem_cons.1 hd with rfl | hd
    · exact h
    · exact List.mem_takeWhile_imp hd
  | nothing h =>
    rw [h]
    simp [Kind.Form]

lemma atHead_fuzzy {number rest : List Char} (h : number = [] ∨ IsNumber number)
    (hrest : StopsNumber rest) : atHead '~' (number ++ rest) = ⟨.fuzzy, '~' :: number⟩ := by
  have hn : numberAtHead (number ++ rest) = number := by
    rcases h with rfl | h
    · exact numberAtHead_of_stop hrest
    · exact numberAtHead_append h hrest
  rw [atHead_tilde, hn]

lemma atHead_boost {number rest : List Char} (h : IsNumber number) (hrest : StopsNumber rest) :
    atHead '^' (number ++ rest) = ⟨.boost, '^' :: number⟩ := by
  rw [atHead_caret, numberAtHead_append h hrest, if_neg h.ne_nil]

lemma atHead_word {c : Char} {more rest : List Char} (hc : startsWord c = true)
    (hmore : ∀ d ∈ more, continuesWord d = true)
    (hrest : ∀ d tail, rest = d :: tail → continuesWord d = false) :
    atHead c (more ++ rest) = ⟨Kind.ofWord (c :: more), c :: more⟩ := by
  rw [atHead_of_startsWord hc, (takeWhile_append_of_stop hmore hrest).1]

lemma atHead_blanks {c : Char} {more rest : List Char} (h : IsBlanks (c :: more))
    (hrest : ∀ d tail, rest = d :: tail → isBlank d = false) :
    atHead c (more ++ rest) = ⟨.blank, c :: more⟩ := by
  have hmore : ∀ d ∈ more, isBlank d = true := fun d hd => h.2 d (List.mem_cons_of_mem c hd)
  rw [atHead_of_isBlank (isBlank_of_form h), (takeWhile_append_of_stop hmore hrest).1]

/-- A stray lexeme is one character long, unless it begins at a quote. -/
lemma text_atHead_of_stray {c : Char} {rest : List Char} (h : (atHead c rest).kind = .stray)
    (hquote : c ≠ '"') : (atHead c rest).text = [c] := by
  cases begins c with
  | punctuation kind hc => rw [atHead_punctuation hc]
  | tilde hc =>
    subst hc
    cases h
  | caret hc =>
    subst hc
    rw [atHead_caret] at h ⊢
    by_cases none : numberAtHead rest = []
    · rw [if_pos none]
    · rw [if_neg none] at h
      cases h
  | quote hc => exact absurd hc hquote
  | word hc =>
    rw [atHead_of_startsWord hc] at h
    exact absurd h (Kind.ofWord_ne_stray _)
  | blank hc =>
    rw [atHead_of_isBlank hc] at h
    cases h
  | nothing hc => rw [hc]

/-- What is stray from a quote on reaches to the end of the text. -/
lemma text_atHead_quote {rest : List Char} (h : (atHead '"' rest).kind = .stray) :
    (atHead '"' rest).text = '"' :: rest := by
  rcases closed_or_unclosed rest with ⟨text, more, rfl, plain⟩ | plain
  · rw [atHead_closed plain] at h
    cases h
  · rw [atHead_unclosed plain]

end Lexeme

end SearchQuery
