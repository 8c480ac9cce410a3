import SearchQuery.Text.WordChar
import SearchQuery.Token.Kind

/-!
# Lexemes

A text is cut into lexemes from left to right, each the longest that some kind of token allows at
its place.  The kinds start with different characters, so the first character decides the kind and
`Lexeme.atHead` only has to find how far it reaches.

* A word starts with a word character, a star or an apostrophe and goes on with these and hyphens;
  the words `AND`, `OR` and `NOT` are keywords.
* A tilde takes a number after it if there is one, a caret must have one.  A number is a run of
  digits, with a decimal point only if digits follow the point.
* A quote opens a phrase that ends at the next quote.
* Blanks run together.

A character at which none of these starts is stray on its own, and so is all the rest of a text
after a quote that is never closed.  `Lexeme.scan` joins neighbouring stray characters, so that a
stretch of them is one lexeme.  Nothing of the text is lost: the lexemes side by side are the text
(`Lexeme.flatMap_text_scan`).
-/

namespace SearchQuery

/-! ## Character classes -/

/-- The characters that separate clauses. -/
def isBlank (c : Char) : Bool :=
  c == ' ' || c == '\t' || c == '\r' || c == '\n' || c == '\x0c'

/-- The characters that may start a word. -/
def startsWord (c : Char) : Bool := Text.isWordChar c || c == '*' || c == '\x27'

/-- The characters that may go on a word. -/
def continuesWord (c : Char) : Bool := startsWord c || c == '-'

/-- The characters that end a bound of a range. -/
def endsBound (c : Char) : Bool := isBlank c || c == ']' || c == '\x7d'

/-- The kind of a character that is a token by itself. -/
def Kind.ofPunctuation? (c : Char) : Option Kind :=
  match c with
  | '(' => some .openParen
  | ')' => some .closeParen
  | '[' => some .openBracket
  | ']' => some .closeBracket
  | '\x7b' => some .openBrace
  | '\x7d' => some .closeBrace
  | ':' => some .colon
  | '+' => some .plus
  | '-' => some .minus
  | _ => none

/-- The kind of a text that has the form of a word. -/
def Kind.ofWord (text : List Char) : Kind :=
  if text = ['A', 'N', 'D'] then .keywordAnd
  else if text = ['O', 'R'] then .keywordOr
  else if text = ['N', 'O', 'T'] then .keywordNot
  else .word

/-- A decimal point with digits after it, if the text starts with these. -/
def fractionAtHead (text : List Char) : List Char :=
  match text with
  | '.' :: more =>
    match more.takeWhile Char.isDigit with
    | [] => []
    | digits => '.' :: digits
  | _ => []

/-- The longest number that the text starts with: digits, or digits, a point and digits.  Empty
when the text does not start with a digit. -/
def numberAtHead (text : List Char) : List Char :=
  match text.takeWhile Char.isDigit with
  | [] => []
  | digits => digits ++ fractionAtHead (text.dropWhile Char.isDigit)

/-! ## Which characters start what -/

theorem ofPunctuation?_eq_none_of_startsWord {c : Char} (h : startsWord c = true) :
    Kind.ofPunctuation? c = none ∧ c ≠ '~' ∧ c ≠ '^' ∧ c ≠ '"' := by
  refine ⟨?_, ?_, ?_, ?_⟩
  · unfold Kind.ofPunctuation?
    split <;> first | rfl | exact absurd h (by decide)
  all_goals
    rintro rfl
    exact absurd h (by decide)

theorem isBlank_iff {c : Char} :
    isBlank c = true ↔ c = ' ' ∨ c = '\t' ∨ c = '\r' ∨ c = '\n' ∨ c = '\x0c' := by
  simp [isBlank, or_assoc]

theorem not_startsWord_of_isBlank {c : Char} (h : isBlank c = true) :
    startsWord c = false ∧ continuesWord c = false := by
  rcases isBlank_iff.1 h with rfl | rfl | rfl | rfl | rfl <;> decide

theorem ofPunctuation?_eq_none_of_isBlank {c : Char} (h : isBlank c = true) :
    Kind.ofPunctuation? c = none ∧ c ≠ '~' ∧ c ≠ '^' ∧ c ≠ '"' := by
  rcases isBlank_iff.1 h with rfl | rfl | rfl | rfl | rfl <;> decide

/-- A piece of text and its kind. -/
structure Lexeme where
  kind : Kind
  text : List Char
deriving DecidableEq

namespace Lexeme

/-- The longest lexeme at the front of the text `c :: rest`. -/
def atHead (c : Char) (rest : List Char) : Lexeme :=
  match Kind.ofPunctuation? c with
  | some kind => ⟨kind, [c]⟩
  | none =>
    if c = '~' then ⟨.fuzzy, c :: numberAtHead rest⟩
    else if c = '^' then
      match numberAtHead rest with
      | [] => ⟨.stray, [c]⟩
      | number => ⟨.boost, c :: number⟩
    else if c = '"' then
      match rest.dropWhile (· ≠ '"') with
      | [] => ⟨.stray, c :: rest⟩
      | quote :: _ => ⟨.phrase, c :: (rest.takeWhile (· ≠ '"') ++ [quote])⟩
    else if startsWord c then
      let text := c :: rest.takeWhile continuesWord
      ⟨Kind.ofWord text, text⟩
    else if isBlank c then ⟨.blank, c :: rest.takeWhile isBlank⟩
    else ⟨.stray, [c]⟩

/-- The lexemes of a text whose first `skip` characters belong to a lexeme already found. -/
def scanAfter : (skip : Nat) → List Char → List Lexeme
  | _, [] => []
  | skip + 1, _ :: rest => scanAfter skip rest
  | 0, c :: rest =>
    let lexeme := atHead c rest
    lexeme :: scanAfter (lexeme.text.length - 1) rest

/-- Puts a lexeme in front of others, joining it with the first of them if both are stray. -/
def joinStray (lexeme : Lexeme) : List Lexeme → List Lexeme
  | [] => [lexeme]
  | next :: more =>
    if lexeme.kind = .stray ∧ next.kind = .stray then ⟨.stray, lexeme.text ++ next.text⟩ :: more
    else lexeme :: next :: more

/-- The lexemes of a text, each stretch of stray characters being one. -/
def scan (text : List Char) : List Lexeme := (scanAfter 0 text).foldr joinStray []

/-! ## What the first character tells -/

theorem atHead_punctuation {c : Char} {kind : Kind} (h : Kind.ofPunctuation? c = some kind)
    (rest : List Char) : atHead c rest = ⟨kind, [c]⟩ := by
  unfold atHead
  rw [h]

theorem atHead_tilde (rest : List Char) :
    atHead '~' rest = ⟨.fuzzy, '~' :: numberAtHead rest⟩ := rfl

theorem atHead_caret (rest : List Char) :
    atHead '^' rest =
      if numberAtHead rest = [] then ⟨.stray, ['^']⟩ else ⟨.boost, '^' :: numberAtHead rest⟩ := by
  cases h : numberAtHead rest <;> simp [atHead, Kind.ofPunctuation?, h]

/-- A quote that is closed opens a phrase, whatever comes after it. -/
theorem atHead_closed {text : List Char} (h : '"' ∉ text) (rest : List Char) :
    atHead '"' (text ++ '"' :: rest) = ⟨.phrase, '"' :: (text ++ ['"'])⟩ := by
  have inside : ∀ c ∈ text, decide (c ≠ '"') = true := by
    intro c hc
    exact decide_eq_true fun quote => h (quote ▸ hc)
  simp only [atHead, Kind.ofPunctuation?, List.takeWhile_append_of_pos inside,
    List.dropWhile_append_of_pos inside]
  simp

/-- A quote that is never closed takes all the rest of the text. -/
theorem atHead_unclosed {rest : List Char} (h : '"' ∉ rest) :
    atHead '"' rest = ⟨.stray, '"' :: rest⟩ := by
  have inside : ∀ c ∈ rest, decide (c ≠ '"') = true := by
    intro c hc
    exact decide_eq_true fun quote => h (quote ▸ hc)
  have none : rest.dropWhile (· ≠ '"') = [] := by
    rw [← List.append_nil rest, List.dropWhile_append_of_pos inside, List.dropWhile_nil]
  simp only [atHead, Kind.ofPunctuation?, none]
  rfl

theorem closed_or_unclosed (rest : List Char) :
    (∃ text more, rest = text ++ '"' :: more ∧ '"' ∉ text) ∨ '"' ∉ rest := by
  by_cases h : '"' ∈ rest
  · exact Or.inl (List.eq_append_cons_of_mem h)
  · exact Or.inr h

theorem atHead_of_startsWord {c : Char} (h : startsWord c = true) (rest : List Char) :
    atHead c rest =
      ⟨Kind.ofWord (c :: rest.takeWhile continuesWord), c :: rest.takeWhile continuesWord⟩ := by
  obtain ⟨hp, htilde, hcaret, hquote⟩ := ofPunctuation?_eq_none_of_startsWord h
  simp [atHead, hp, htilde, hcaret, hquote, h]

theorem atHead_of_isBlank {c : Char} (h : isBlank c = true) (rest : List Char) :
    atHead c rest = ⟨.blank, c :: rest.takeWhile isBlank⟩ := by
  obtain ⟨hp, htilde, hcaret, hquote⟩ := ofPunctuation?_eq_none_of_isBlank h
  simp [atHead, hp, htilde, hcaret, hquote, (not_startsWord_of_isBlank h).1, h]

/-- What a character can be as the first of a lexeme.  Each case but the last has its reading of
the rest above. -/
inductive Begins (c : Char) : Prop
  | punctuation (kind : Kind) (h : Kind.ofPunctuation? c = some kind)
  | tilde (h : c = '~')
  | caret (h : c = '^')
  | quote (h : c = '"')
  | word (h : startsWord c = true)
  | blank (h : isBlank c = true)
  | nothing (h : ∀ rest, atHead c rest = ⟨.stray, [c]⟩)

theorem begins (c : Char) : Begins c := by
  cases hp : Kind.ofPunctuation? c with
  | some kind => exact .punctuation kind hp
  | none =>
    by_cases htilde : c = '~'
    · exact .tilde htilde
    by_cases hcaret : c = '^'
    · exact .caret hcaret
    by_cases hquote : c = '"'
    · exact .quote hquote
    by_cases hword : startsWord c = true
    · exact .word hword
    by_cases hblank : isBlank c = true
    · exact .blank hblank
    · exact .nothing fun rest => by simp [atHead, hp, htilde, hcaret, hquote, hword, hblank]

/-! ## Nothing is lost -/

theorem exists_append_fractionAtHead (text : List Char) :
    ∃ rest, text = fractionAtHead text ++ rest := by
  unfold fractionAtHead
  split
  · rename_i more
    split
    · exact ⟨'.' :: more, rfl⟩
    · exact ⟨more.dropWhile Char.isDigit, by
        rw [List.cons_append, List.takeWhile_append_dropWhile]⟩
  · exact ⟨text, rfl⟩

/-- A number at the head of a text is a front part of it. -/
theorem exists_append_numberAtHead (text : List Char) :
    ∃ rest, text = numberAtHead text ++ rest := by
  obtain ⟨rest, fraction⟩ := exists_append_fractionAtHead (text.dropWhile Char.isDigit)
  unfold numberAtHead
  split
  · exact ⟨text, rfl⟩
  · exact ⟨rest, by
      rw [List.append_assoc, ← fraction, List.takeWhile_append_dropWhile]⟩

/-- The lexeme at the front of a text is a front part of it, and not empty. -/
theorem exists_append_atHead (c : Char) (rest : List Char) :
    ∃ taken left, (atHead c rest).text = c :: taken ∧ rest = taken ++ left := by
  obtain ⟨afterNumber, number⟩ := exists_append_numberAtHead rest
  cases begins c with
  | punctuation kind h => exact ⟨[], rest, by rw [atHead_punctuation h], rfl⟩
  | tilde h =>
    subst h
    exact ⟨numberAtHead rest, afterNumber, rfl, number⟩
  | caret h =>
    subst h
    rw [atHead_caret]
    split
    · exact ⟨[], rest, rfl, rfl⟩
    · exact ⟨numberAtHead rest, afterNumber, rfl, number⟩
  | quote h =>
    subst h
    rcases closed_or_unclosed rest with ⟨text, more, rfl, plain⟩ | plain
    · exact ⟨text ++ ['"'], more, by rw [atHead_closed plain], by simp⟩
    · exact ⟨rest, [], by rw [atHead_unclosed plain], (List.append_nil rest).symm⟩
  | word h =>
    rw [atHead_of_startsWord h]
    exact ⟨_, _, rfl, List.takeWhile_append_dropWhile.symm⟩
  | blank h =>
    rw [atHead_of_isBlank h]
    exact ⟨_, _, rfl, List.takeWhile_append_dropWhile.symm⟩
  | nothing h => exact ⟨[], rest, by rw [h], rfl⟩

theorem scanAfter_eq_drop (skip : Nat) (text : List Char) :
    scanAfter skip text = scanAfter 0 (text.drop skip) := by
  induction text generalizing skip with
  | nil => cases skip <;> rfl
  | cons c rest ih =>
    cases skip with
    | zero => rfl
    | succ skip => rw [scanAfter, ih, List.drop_succ_cons]

/-- The scan of a text is its first lexeme and the scan of what that leaves. -/
theorem scanAfter_zero_cons {c : Char} {rest taken left : List Char}
    (htext : (atHead c rest).text = c :: taken) (hrest : rest = taken ++ left) :
    scanAfter 0 (c :: rest) = atHead c rest :: scanAfter 0 left := by
  rw [scanAfter, scanAfter_eq_drop, htext]
  congr 1
  simp [hrest]

theorem flatMap_text_scanAfter (text : List Char) :
    (scanAfter 0 text).flatMap Lexeme.text = text := by
  induction h : text.length using Nat.strongRecOn generalizing text with
  | ind n ih =>
    cases text with
    | nil => rfl
    | cons c rest =>
      obtain ⟨taken, left, htext, hrest⟩ := exists_append_atHead c rest
      have shorter : left.length < n := by
        rw [← h, hrest]
        simp only [List.length_cons, List.length_append]
        omega
      rw [scanAfter_zero_cons htext hrest, List.flatMap_cons, htext, ih _ shorter left rfl, hrest]
      rfl

theorem flatMap_text_joinStray (lexeme : Lexeme) (more : List Lexeme) :
    (joinStray lexeme more).flatMap Lexeme.text = lexeme.text ++ more.flatMap Lexeme.text := by
  cases more with
  | nil => simp [joinStray]
  | cons next more =>
    rw [joinStray]
    split <;> simp

/-- The lexemes of a text, side by side, are the text. -/
theorem flatMap_text_scan (text : List Char) : (scan text).flatMap Lexeme.text = text := by
  have joined : ∀ lexemes : List Lexeme,
      (lexemes.foldr joinStray []).flatMap Lexeme.text = lexemes.flatMap Lexeme.text := by
    intro lexemes
    induction lexemes with
    | nil => rfl
    | cons lexeme more ih => rw [List.foldr_cons, flatMap_text_joinStray, ih, List.flatMap_cons]
  rw [scan, joined, flatMap_text_scanAfter]

end Lexeme

end SearchQuery
