import SearchQuery.Proofs.Following
import SearchQuery.Proofs.Rules
import SearchQuery.Proofs.Writing

/-!
# What is derived is read on demand

Every text that the grammar derives is taken by reading on demand, whatever stands around it, for a
number of lookaheads that can be told beforehand.  It is the number the query asks for, but for the
blanks between a sequence and its end, after each of which a further clause is looked for in vain.

`ClauseTakes`, `SequenceTakes` and `MoreTakes` say this of one text of each kind, and carry the
count of such blanks.  `SequenceText.takes` goes through a derivation and finds one of them for
every text in it.  A text has at least as many more bytes than the canonical one as there are such
blanks, so the canonical text has none and asks for the fewest lookaheads.
-/

namespace SearchQuery

variable {c : Setting} {e o : Nat}

/-! ## Values -/

lemma SimilarityText.number {similarity : Similarity} {w : List Char}
    (h : SimilarityText similarity w) :
    ∃ number, w = '~' :: number ∧ (number = [] ∨ IsNumber number) ∧
      Production.similarityOf number = similarity := by
  cases h with
  | default => exact ⟨[], rfl, Or.inl rfl, rfl⟩
  | @value number hn =>
    refine ⟨number.toList, rfl, Or.inr hn, ?_⟩
    obtain ⟨d, more, hl⟩ := List.exists_cons_of_ne_nil hn.ne_nil
    rw [← String.ofList_toList (s := number), hl]
    simp [Production.similarityOf]

lemma takes_term {text : String} {similarity : Option Similarity} {x back : List Char}
    (word : IsTermText text.toList) (suffix : PartText SimilarityText similarity x)
    (hback : Stops ['^', ')'] back) (h : c.rest o = text.toList ++ x ++ back) :
    Takes c e 1 (OnDemand.term o)
      (.term text similarity, o + Text.byteSize (text.toList ++ x)) := by
  have hcore := hback.similarity suffix
  rw [List.append_assoc] at h
  obtain ⟨-, htext, hnext⟩ := Setting.at_word h word.1 (hcore.not_continues (by decide))
  have hrest := Setting.rest_add h
  unfold OnDemand.term Cursor.term
  refine takes_textAt_bind htext (takes_next_bind hnext ?_)
  cases suffix with
  | absent =>
    refine takes_lookAt_bind (k := 0) rfl ?_
    have hstop : Stops ['^', ')'] (c.rest (o + Text.byteSize text.toList)) := by
      rw [hrest]
      exact hback
    rw [if_neg (kindAt_ne_fuzzy hstop (by decide)), String.ofList_toList, List.append_nil]
    exact takes_miss takes_pure
  | @present similarity x spelled =>
    obtain ⟨number, rfl, hn, hsimilarity⟩ := spelled.number
    obtain ⟨hkind, htext', hnext'⟩ := Setting.at_fuzzy hrest hn (hback.stopsNumber (by decide))
    refine takes_lookAt_bind (k := 0) hkind ?_
    rw [if_pos rfl]
    refine takes_textAt_bind htext' (takes_next_bind hnext' ?_)
    rw [Production.numberAfterSign_cons (by decide), hsimilarity, String.ofList_toList,
      Nat.add_assoc, ← Text.byteSize_append]
    exact takes_pure

lemma takes_phrase {text : String} {distance : Option String} {x back : List Char}
    (quoted : IsPhraseText text.toList) (suffix : PartText DistanceText distance x)
    (hback : Stops ['^', ')'] back) (h : c.rest o = '"' :: text.toList ++ ['"'] ++ x ++ back) :
    Takes c e 1 (OnDemand.phrase o)
      (.phrase text distance, o + Text.byteSize ('"' :: text.toList ++ ['"'] ++ x)) := by
  have hquoted : c.rest o = '"' :: (text.toList ++ ['"']) ++ (x ++ back) := by simpa using h
  obtain ⟨-, htext, hnext⟩ := Setting.at_phrase hquoted quoted
  have hrest := Setting.rest_add hquoted
  unfold OnDemand.phrase Cursor.phrase
  refine takes_textAt_bind htext (takes_next_bind hnext ?_)
  rw [Production.unquote_quoted, String.ofList_toList]
  cases suffix with
  | absent =>
    refine takes_lookAt_bind (k := 0) rfl ?_
    have hstop : Stops ['^', ')'] (c.rest (o + Text.byteSize ('"' :: (text.toList ++ ['"'])))) := by
      rw [hrest]
      exact hback
    rw [if_neg (kindAt_ne_fuzzy hstop (by decide)), List.append_nil]
    exact takes_miss takes_pure
  | @present number x spelled =>
    obtain ⟨digits, rfl⟩ := spelled
    obtain ⟨hkind, htext', hnext'⟩ :=
      Setting.at_fuzzy hrest (Or.inr digits.isNumber) (hback.stopsNumber (by decide))
    refine takes_lookAt_bind (k := 0) hkind ?_
    rw [if_pos rfl]
    refine takes_textAt_bind htext' ?_
    have hdigits : number.toList ≠ [] ∧ number.toList.all Char.isDigit = true :=
      ⟨digits.1, by simpa using digits.2⟩
    dsimp only
    rw [Production.numberAfterSign_cons (by decide), if_pos hdigits]
    refine takes_next_bind hnext' ?_
    rw [String.ofList_toList, Nat.add_assoc, ← Text.byteSize_append]
    exact takes_pure

lemma takes_skipBlank {gap back : List Char} (hgap : IsGap gap)
    (hback : ∀ d more, back = d :: more → isBlank d = false) (h : c.rest o = gap ++ back) :
    Takes c e 1 (OnDemand.skipBlank o) (o + Text.byteSize gap) := by
  unfold OnDemand.skipBlank Cursor.skipBlank
  cases gap with
  | nil =>
    refine takes_lookAt_bind (k := 0) rfl ?_
    have hblank : c.kindAt o ≠ .blank := by
      intro hkind
      obtain ⟨d, w, more, form, hrest⟩ := form_of_kindAt hkind (by simp)
      rw [h] at hrest
      have := hback d more hrest
      rw [isBlank_of_form form] at this
      cases this
    rw [if_neg hblank]
    exact takes_pure
  | cons b rest =>
    obtain ⟨hkind, hnext⟩ := Setting.at_blanks h ⟨by simp, hgap⟩ hback
    refine takes_lookAt_bind (k := 0) hkind ?_
    rw [if_pos rfl, ← hnext]
    exact takes_next_bind rfl takes_pure

lemma takes_blank {gap back : List Char} (hgap : IsBlanks gap)
    (hback : ∀ d more, back = d :: more → isBlank d = false) (h : c.rest o = gap ++ back) :
    Takes c e 1 (OnDemand.expect o .blank) (o + Text.byteSize gap) := by
  obtain ⟨hkind, hnext⟩ := Setting.at_blanks h hgap hback
  rw [← hnext]
  exact takes_expect hkind

lemma takes_bound {text : String} {back : List Char} (hbound : IsBound text.toList)
    (hback : ∀ d more, back = d :: more → endsBound d = true) (h : c.rest o = text.toList ++ back) :
    Takes c e 0 (OnDemand.bound o) (text, o + Text.byteSize text.toList) := by
  intro s n hs hn
  have hw : (c.rest o).takeWhile (!endsBound ·) = text.toList := by
    rw [h]
    refine (takeWhile_append_of_stop ?_ ?_).1
    · intro d hd
      rw [hbound.2 d hd, Bool.not_false]
    · intro d more hd
      rw [hback d more hd, Bool.not_true]
  obtain ⟨d, more, hl⟩ := List.exists_cons_of_ne_nil hbound.1
  refine ⟨s, ?_, hs, hn⟩
  rw [OnDemand.bound_of_cons (hw.trans hl), ← hl, String.ofList_toList]

lemma takes_rangeTo {back : List Char} (h : c.rest o = ['T', 'O'] ++ back)
    (hback : ∀ d more, back = d :: more → continuesWord d = false) :
    Takes c e 1 (OnDemand.rangeTo o) (o + 2) := by
  have word : IsWord ['T', 'O'] := isWord_of_all (by decide) (by decide)
  obtain ⟨hkind, htext, hnext⟩ := Setting.at_word h word hback
  unfold OnDemand.rangeTo Cursor.rangeTo
  refine takes_lookAt_bind (k := 0) hkind ?_
  rw [if_pos (by decide)]
  refine takes_textAt_bind htext ?_
  rw [if_pos rfl]
  have hsize : c.next o = o + 2 := hnext
  rw [← hsize]
  exact takes_next_bind rfl takes_pure

/-- The closing bracket of a range is a token of its own, ends a bound and is no blank. -/
lemma Brackets.closing {inclusive : Bool} {opening closing : Char}
    (h : Brackets inclusive opening closing) :
    isBlank closing = false ∧ endsBound closing = true ∧ closing.utf8Size = 1 := by
  cases h <;> decide

lemma takes_rangeAfter {low high : String} {inclusive : Bool} {opening closing : Char}
    {u v w x back : List Char} {kind : Kind} (brackets : Brackets inclusive opening closing)
    (hkind : Kind.ofPunctuation? closing = some kind) (before : IsGap u)
    (lowBound : IsBound low.toList) (blanksLow : IsBlanks v) (blanksHigh : IsBlanks w)
    (highBound : IsBound high.toList) (after : IsGap x)
    (h : c.rest o = u ++ (low.toList ++ (v ++ (['T', 'O'] ++ (w ++ (high.toList ++ (x ++
      ([closing] ++ back)))))))) :
    Takes c e 6 (OnDemand.rangeAfter o inclusive kind)
      (.range low high inclusive, o + Text.byteSize (u ++ low.toList ++ v ++ ['T', 'O'] ++ w ++
        high.toList ++ x ++ [closing])) := by
  obtain ⟨hblank, hends, hsize⟩ := brackets.closing
  have h₁ := Setting.rest_add h
  have h₂ := Setting.rest_add h₁
  have h₃ := Setting.rest_add h₂
  have h₄ := Setting.rest_add h₃
  have h₅ := Setting.rest_add h₄
  have h₆ := Setting.rest_add h₅
  have h₇ := Setting.rest_add h₆
  unfold OnDemand.rangeAfter Reader.rangeAfter
  refine (takes_skipBlank before (lowBound.head _) h).bind (j := 1) (k := 5) ?_
  refine (takes_bound lowBound (blanksLow.endsBound _) h₁).bind (j := 0) (k := 5) ?_
  refine (takes_blank blanksLow ?_ h₂).bind (j := 1) (k := 4) ?_
  · rintro d more ⟨⟩
    decide
  refine (takes_rangeTo h₃ ?_).bind (j := 1) (k := 3) ?_
  · intro d more hd
    exact (not_startsWord_of_isBlank (blanksHigh.head _ d more hd)).2
  refine (takes_blank blanksHigh (highBound.head _) h₄).bind (j := 1) (k := 2) ?_
  refine (takes_bound highBound (after.endsBound hends back) h₅).bind (j := 0) (k := 2) ?_
  refine (takes_skipBlank after ?_ h₆).bind (j := 1) (k := 1) ?_
  · rintro d more ⟨⟩
    exact hblank
  obtain ⟨hk, hnext⟩ := Setting.at_punctuation h₇ hkind
  refine (takes_expect hk).bind (j := 1) (k := 0) ?_
  have hplace : c.next (o + Text.byteSize u + Text.byteSize low.toList + Text.byteSize v +
        Text.byteSize ['T', 'O'] + Text.byteSize w + Text.byteSize high.toList + Text.byteSize x) =
      o + Text.byteSize (u ++ low.toList ++ v ++ ['T', 'O'] ++ w ++ high.toList ++ x ++
        [closing]) := by
    rw [hnext]
    simp only [Text.byteSize_append, Text.byteSize_cons, Text.byteSize_nil]
    omega
  rw [← hplace]
  exact takes_pure

lemma takes_range {field : Option String} {low high : String} {inclusive : Bool}
    {t back : List Char} (text : AtomText field (.range low high inclusive) t)
    (h : c.rest o = t ++ back) :
    Takes c e 7 (OnDemand.range o) (.range low high inclusive, o + Text.byteSize t) ∧
      field ≠ none ∧ (c.kindAt o = .openBracket ∨ c.kindAt o = .openBrace) := by
  cases text with
  | @range _ _ _ opening closing u v w x hasField brackets before lowBound blanksLow blanksHigh
      highBound after =>
    simp only [List.cons_append, List.append_assoc] at h
    have hrest := @Setting.rest_add c o [opening] _ h
    simp only [List.cons_append, Text.byteSize_cons opening]
    rw [← Nat.add_assoc]
    unfold OnDemand.range Reader.range
    cases brackets with
    | inclusive =>
      obtain ⟨hkind, hnext⟩ := Setting.at_punctuation h rfl
      refine ⟨takes_lookAt_bind (k := 6) hkind (takes_next_bind hnext ?_), hasField, Or.inl hkind⟩
      exact takes_rangeAfter .inclusive rfl before lowBound blanksLow blanksHigh highBound after
        hrest
    | exclusive =>
      obtain ⟨hkind, hnext⟩ := Setting.at_punctuation h rfl
      refine ⟨takes_lookAt_bind (k := 6) hkind (takes_next_bind hnext ?_), hasField, Or.inr hkind⟩
      exact takes_rangeAfter .exclusive rfl before lowBound blanksLow blanksHigh highBound after
        hrest

/-! ## Clauses -/

lemma takes_marker {marker : Option Marker} {w back : List Char}
    (text : PartText MarkerText marker w) (h : c.rest o = w ++ back)
    (hback : marker = none → c.kindAt o ≠ .plus ∧ c.kindAt o ≠ .minus) :
    Takes c e 1 (OnDemand.marker o) (marker, o + Text.byteSize w) := by
  unfold OnDemand.marker Cursor.marker
  cases text with
  | absent =>
    obtain ⟨hplus, hminus⟩ := hback rfl
    refine takes_lookAt_bind (k := 0) rfl ?_
    cases hk : c.kindAt o
    case plus => exact absurd hk hplus
    case minus => exact absurd hk hminus
    all_goals exact takes_pure
  | present spelled =>
    cases spelled with
    | required =>
      obtain ⟨hkind, hnext⟩ := Setting.at_punctuation h rfl
      exact takes_lookAt_bind (k := 0) hkind (takes_next_bind hnext takes_pure)
    | prohibited =>
      obtain ⟨hkind, hnext⟩ := Setting.at_punctuation h rfl
      exact takes_lookAt_bind (k := 0) hkind (takes_next_bind hnext takes_pure)

/-- A field is read with two lookaheads. -/
lemma takes_field {name : String} {w back : List Char} (text : FieldText name w)
    (h : c.rest o = w ++ back) :
    Takes c e 2 (OnDemand.field o) (some name, o + Text.byteSize w) ∧ c.kindAt o = .word := by
  obtain ⟨⟨⟨word, hAnd, hOr, hNot⟩, hstar⟩, rfl⟩ := text
  rw [List.append_assoc] at h
  obtain ⟨hkind, htext, hnext⟩ := Setting.at_word h word (by rintro d more ⟨⟩; decide)
  rw [kindOfWord_eq_word ⟨word, hAnd, hOr, hNot⟩] at hkind
  obtain ⟨hcolon, hnext'⟩ := Setting.at_punctuation (Setting.rest_add h) rfl
  refine ⟨?_, hkind⟩
  unfold OnDemand.field Cursor.field
  refine takes_lookAt_bind (k := 1) hkind ?_
  rw [if_pos rfl]
  refine takes_next_bind hnext (takes_lookAt_bind (k := 0) hcolon ?_)
  rw [if_pos rfl]
  refine takes_textAt_bind htext ?_
  rw [if_neg (by simpa using hstar), String.ofList_toList]
  refine takes_next_bind hnext' ?_
  rw [Text.byteSize_append, ← Nat.add_assoc]
  exact takes_pure

/-- Where there is no field, that takes two lookaheads before a word, since a colon might follow. -/
lemma takes_noField (hcolon : c.kindAt o = .word → c.kindAt (c.next o) ≠ .colon) :
    Takes c e (if c.kindAt o = .word then 2 else 1) (OnDemand.field o) (none, o) := by
  unfold OnDemand.field Cursor.field
  split_ifs with hword
  · refine takes_lookAt_bind (k := 1) hword ?_
    rw [if_pos rfl]
    refine takes_next_bind rfl (takes_lookAt_bind (k := 0) rfl ?_)
    rw [if_neg (hcolon hword)]
    exact takes_pure
  · refine takes_lookAt_bind (k := 0) rfl ?_
    rw [if_neg hword]
    exact takes_pure

lemma takes_boost {boost : Option String} {w back : List Char} (text : PartText BoostText boost w)
    (hback : Stops [')'] back) (h : c.rest o = w ++ back) :
    Takes c e 1 (OnDemand.boost o) (boost, o + Text.byteSize w) := by
  unfold OnDemand.boost Cursor.boost
  cases text with
  | absent =>
    have hstop : Stops [')'] (c.rest o) := by
      rw [h]
      exact hback
    refine takes_lookAt_bind (k := 0) rfl ?_
    rw [if_neg (kindAt_ne_boost hstop (by decide))]
    exact takes_miss takes_pure
  | present spelled =>
    obtain ⟨number, rfl⟩ := spelled
    obtain ⟨hkind, htext, hnext⟩ := Setting.at_boost h number (hback.stopsNumber (by decide))
    refine takes_lookAt_bind (k := 0) hkind ?_
    rw [if_pos rfl]
    refine takes_textAt_bind htext (takes_next_bind hnext ?_)
    rw [Production.numberAfterSign_cons (by decide), String.ofList_toList]
    exact takes_pure

/-- What stands where a value begins: a word that no colon follows, or something else. -/
inductive ValueStart (c : Setting) (o : Nat) : Bool → Prop where
  | word (kind : c.kindAt o = .word) (colon : c.kindAt (c.next o) ≠ .colon) : ValueStart c o true
  | other (kind : c.kindAt o ∈ [Kind.phrase, .openParen, .openBracket, .openBrace]) :
      ValueStart c o false

lemma AtomText.start {field : Option String} {a : Atom} {w back : List Char}
    (text : AtomText field a w) (hback : Stops ['^', ')'] back) (h : c.rest o = w ++ back) :
    ValueStart c o a.isTerm := by
  cases text with
  | @term text similarity x word suffix =>
    have hcore := hback.similarity suffix
    rw [List.append_assoc] at h
    obtain ⟨hkind, -, hnext⟩ := Setting.at_word h word.1 (hcore.not_continues (by decide))
    refine .word (hkind.trans (kindOfWord_eq_word word)) ?_
    have hstop : Stops ['~', '^', ')'] (c.rest (c.next o)) := by
      rw [hnext, Setting.rest_add h]
      exact hcore
    exact kindAt_ne_colon hstop (by decide)
  | phrase quoted suffix =>
    refine .other ?_
    rw [(Setting.at_phrase (by simpa using h) quoted).1]
    decide
  | range hasField brackets _ _ _ _ _ _ =>
    refine .other ?_
    simp only [List.cons_append, List.append_assoc] at h
    cases brackets with
    | inclusive =>
      rw [(Setting.at_punctuation h rfl).1]
      decide
    | exclusive =>
      rw [(Setting.at_punctuation h rfl).1]
      decide

lemma takes_atom {inner : Nat → Production (Production.Taken Query)} {field : Option String}
    {marker : Option Marker} {a : Atom} {w back : List Char} (text : AtomText field a w)
    (hback : Stops ['^', ')'] back) (h : c.rest o = w ++ back) :
    Takes c e (1 + a.lookaheads) (OnDemand.value inner field marker o)
      (.atom a, o + Text.byteSize w) := by
  have start := text.start hback h
  unfold OnDemand.value Reader.value
  cases a with
  | term text' similarity =>
    cases text with
    | term word suffix =>
      cases start with
      | word kind colon =>
        refine takes_lookAt_bind kind ?_
        exact (takes_term word suffix hback h).bind (k := 0) takes_pure
  | phrase text' distance =>
    cases text with
    | phrase quoted suffix =>
      have kind := (Setting.at_phrase (c := c) (o := o) (by simpa using h) quoted).1
      refine takes_lookAt_bind kind ?_
      exact (takes_phrase quoted suffix hback h).bind (k := 0) takes_pure
  | range low high inclusive =>
    obtain ⟨took, hasField, hkind⟩ := takes_range (e := e) text h
    obtain ⟨name, rfl⟩ := Option.ne_none_iff_exists'.1 hasField
    rcases hkind with hkind | hkind
    · exact takes_lookAt_bind hkind (took.bind (k := 0) takes_pure)
    · exact takes_lookAt_bind hkind (took.bind (k := 0) takes_pure)

section lead

variable {m : Modifiers} {u v w x back : List Char} {word : Bool}

/-- A clause without its marker begins with one of these. -/
def IsStart (k : Kind) : Prop :=
  k ∈ [Kind.word, .phrase, .openParen, .openBracket, .openBrace]

lemma ValueStart.isStart (h : ValueStart c o word) : IsStart (c.kindAt o) := by
  cases h with
  | word kind => simp [IsStart, kind]
  | other kind => exact List.mem_cons_of_mem _ kind

/-- The field of a clause, in front of a value. -/
lemma takes_fieldPart (field : PartText FieldText m.field v)
    (start : ValueStart c (o + Text.byteSize v) word) (h : c.rest o = v ++ back) :
    Takes c e (m.fieldLookaheads word) (OnDemand.field o) (m.field, o + Text.byteSize v) ∧
      IsStart (c.kindAt o) := by
  unfold Modifiers.fieldLookaheads
  generalize m.field = part at field
  cases field with
  | present spelled =>
    obtain ⟨took, hkind⟩ := takes_field (e := e) spelled h
    exact ⟨took, by simp [IsStart, hkind]⟩
  | absent =>
    refine ⟨?_, start.isStart⟩
    cases start with
    | word kind colon =>
      have took := takes_noField (e := e) fun _ => colon
      rwa [if_pos kind] at took
    | other kind =>
      have hword : c.kindAt o ≠ .word := by
        intro hw
        have hmem : c.kindAt o ∈ [Kind.phrase, .openParen, .openBracket, .openBrace] := kind
        rw [hw] at hmem
        simp at hmem
      have took := takes_noField (c := c) (e := e) (o := o) fun hw => absurd hw hword
      rwa [if_neg hword] at took

/-- The marker of a clause, in front of its field or its value. -/
lemma takes_markerPart (marker : PartText MarkerText m.marker u)
    (start : IsStart (c.kindAt (o + Text.byteSize u))) (h : c.rest o = u ++ back) :
    Takes c e 1 (OnDemand.marker o) (m.marker, o + Text.byteSize u) ∧
      Production.operatorOf? (c.kindAt o) = none := by
  have hmarker : m.marker = none → IsStart (c.kindAt o) := by
    intro hm
    rw [hm] at marker
    cases marker
    exact start
  refine ⟨takes_marker marker h ?_, ?_⟩
  · intro hm
    constructor
    · intro hk
      simpa [IsStart, hk] using hmarker hm
    · intro hk
      simpa [IsStart, hk] using hmarker hm
  · cases hm : m.marker with
    | none =>
      have hk := hmarker hm
      cases hkind : c.kindAt o <;> first | rfl | simp [IsStart, hkind] at hk
    | some sign =>
      rw [hm] at marker
      cases marker with
      | present spelled =>
        cases spelled with
        | required =>
          rw [(Setting.at_punctuation h rfl).1]
          rfl
        | prohibited =>
          rw [(Setting.at_punctuation h rfl).1]
          rfl

/-- A clause is taken where its value is. -/
lemma takes_clause {inner : Nat → Production (Production.Taken Query)} {make : Modifiers → Clause}
    {k : Nat} (marker : PartText MarkerText m.marker u) (field : PartText FieldText m.field v)
    (start : ValueStart c (o + Text.byteSize u + Text.byteSize v) word)
    (value : Takes c e k
      (OnDemand.value inner m.field m.marker (o + Text.byteSize u + Text.byteSize v))
      (make, o + Text.byteSize u + Text.byteSize v + Text.byteSize w))
    (boost : PartText BoostText m.boost x) (hback : Stops [')'] back)
    (h : c.rest o = u ++ (v ++ (w ++ (x ++ back)))) :
    Takes c e (1 + m.fieldLookaheads word + k + 1) (OnDemand.clause inner m.operator o)
        (make m, o + Text.byteSize (u ++ v ++ w ++ x)) ∧
      Production.operatorOf? (c.kindAt o) = none := by
  have h₁ := Setting.rest_add h
  have h₂ := Setting.rest_add h₁
  have h₃ := Setting.rest_add h₂
  obtain ⟨tookField, hstart⟩ := takes_fieldPart (e := e) field start h₁
  obtain ⟨tookMarker, hoperator⟩ := takes_markerPart (e := e) marker hstart h
  have hplace : o + Text.byteSize u + Text.byteSize v + Text.byteSize w + Text.byteSize x =
      o + Text.byteSize (u ++ v ++ w ++ x) := by
    simp only [Text.byteSize_append]
    omega
  have hcost : 1 + m.fieldLookaheads word + k + 1 = 1 + (m.fieldLookaheads word + (k + 1)) := by
    omega
  refine ⟨?_, hoperator⟩
  rw [hcost, ← hplace]
  unfold OnDemand.clause Reader.clause
  refine tookMarker.bind (tookField.bind (value.bind ?_))
  exact (takes_boost boost hback h₃).bind (k := 0) takes_pure

end lead

/-! ## Sequences -/

/-- A clause with a text is read, with so many blanks before closing parentheses in it. -/
def ClauseTakes (clause : Clause) (w : List Char) (j : Nat) : Prop :=
  ∀ {c : Setting} {e o steps : Nat} {back : List Char}, c.rest o = w ++ back → Stops [')'] back →
    c.Fits (e + clause.depth) → Text.byteSize w ≤ steps →
      Takes c e (clause.lookaheads + 4 * j)
          (OnDemand.clause (OnDemand.sequence steps) clause.modifiers.operator o)
          (clause, o + Text.byteSize w) ∧
        Production.operatorOf? (c.kindAt o) = none

def SequenceTakes (q : Query) (w : List Char) (j : Nat) : Prop :=
  ∀ {c : Setting} {e o steps : Nat} {gap back : List Char}, c.rest o = w ++ (gap ++ back) →
    IsGap gap → Closing back → c.Fits (e + q.depth) → Text.byteSize w < steps →
      Takes c e (q.lookaheads + 4 * j + if gap = [] then 0 else 4) (OnDemand.sequence steps o)
        (q, o + Text.byteSize w)

def MoreTakes (more : List Clause) (w : List Char) (j : Nat) : Prop :=
  ∀ {c : Setting} {e o steps left : Nat} {found : List Clause} {gap back : List Char},
    c.rest o = w ++ (gap ++ back) → IsGap gap → Closing back → c.Fits (e + Clause.depths more) →
    Text.byteSize w ≤ steps → Text.byteSize w < left →
      Takes c e (Clause.joinedLookaheads more + 1 + 4 * j + if gap = [] then 0 else 4)
        (Production.moreClauses (OnDemand.joinedClause (OnDemand.sequence steps)) left found o)
        (found.reverse ++ more, o + Text.byteSize w)

lemma clauseTakes_atom {value : Atom} {m : Modifiers} {u v w x : List Char}
    (marker : PartText MarkerText m.marker u) (field : PartText FieldText m.field v)
    (text : AtomText m.field value w) (boost : PartText BoostText m.boost x) :
    ClauseTakes (.atom value m) (u ++ v ++ w ++ x) 0 := by
  intro c e o steps back h hback fits hsteps
  simp only [List.append_assoc] at h
  have hvalue := hback.boost boost
  have h₂ := Setting.rest_add (Setting.rest_add h)
  exact takes_clause marker field (text.start hvalue h₂) (takes_atom text hvalue h₂) boost hback h

lemma takes_group {inner : Nat → Production (Production.Taken Query)} {body : Query} {k : Nat}
    {u v w back : List Char} (before : IsGap u) (inked : Inked v) (after : IsGap w)
    (fits : c.Fits (e + 1))
    (hinner : Takes c (e + 1) k (inner (o + 1 + Text.byteSize u))
      (body, o + 1 + Text.byteSize u + Text.byteSize v))
    (h : c.rest o = '(' :: (u ++ (v ++ (w ++ (')' :: back))))) :
    Takes c e (2 + k + 2) (OnDemand.group inner o)
      (body, o + Text.byteSize ('(' :: u ++ v ++ w ++ [')'])) := by
  have h₁ := @Setting.rest_add c o ['('] _ h
  have h₂ := Setting.rest_add h₁
  have h₃ := Setting.rest_add h₂
  have h₄ := Setting.rest_add h₃
  obtain ⟨hopen, hnext⟩ := Setting.at_punctuation h rfl
  obtain ⟨hclose, hnext'⟩ := Setting.at_punctuation h₄ rfl
  have hcost : 2 + k + 2 = 1 + (1 + (k + (1 + 1))) := by omega
  have hplace : c.next (o + 1 + Text.byteSize u + Text.byteSize v + Text.byteSize w) =
      o + Text.byteSize ('(' :: u ++ v ++ w ++ [')']) := by
    have hnext'' : c.next (o + 1 + Text.byteSize u + Text.byteSize v + Text.byteSize w) =
      o + 1 + Text.byteSize u + Text.byteSize v + Text.byteSize w + ')'.utf8Size := hnext'
    rw [hnext'']
    simp only [Text.byteSize_append, Text.byteSize_cons, Text.byteSize_nil]
    have : '('.utf8Size = 1 := by decide
    omega
  unfold OnDemand.group Reader.group
  rw [hcost, ← hplace]
  refine takes_nested fits ((takes_expect hopen).bind ?_)
  rw [hnext]
  refine (takes_skipBlank before (inked.head _) h₁).bind (hinner.bind ?_)
  refine (takes_skipBlank after ?_ h₃).bind ?_
  · rintro d more ⟨⟩
    decide
  · exact (takes_expect hclose).bind (k := 0) takes_pure

lemma clauseTakes_group {body : Query} {m : Modifiers} {u v w x y z : List Char} {j : Nat}
    (marker : PartText MarkerText m.marker u) (field : PartText FieldText m.field v)
    (before : IsGap w) (text : SequenceText body x) (after : IsGap y)
    (boost : PartText BoostText m.boost z) (took : SequenceTakes body x j) :
    ClauseTakes (.group body m) (u ++ v ++ ('(' :: w ++ x ++ y ++ [')']) ++ z)
      (j + if y = [] then 0 else 1) := by
  intro c e o steps back h hback fits hsteps
  simp only [List.append_assoc, List.cons_append, List.nil_append] at h
  have h₂ := Setting.rest_add (Setting.rest_add h)
  have h₃ := Setting.rest_add (@Setting.rest_add c _ ['('] _ h₂)
  have hopen := (Setting.at_punctuation h₂ rfl).1
  have fits₁ : c.Fits (e + 1) := fits.mono (by simp only [Clause.depth]; omega)
  have fits₂ : c.Fits (e + 1 + body.depth) := fits.mono (by simp only [Clause.depth]; omega)
  have hsize : Text.byteSize x < steps := by
    simp only [Text.byteSize_append, Text.byteSize_cons] at hsteps
    have := '('.utf8Size_pos
    omega
  have group := takes_group before text.inked after fits₁
    (took h₃ after (Or.inr ⟨_, rfl⟩) fits₂ hsize) h₂
  have value : Takes c e _ (OnDemand.value (OnDemand.sequence steps) m.field m.marker
      (o + Text.byteSize u + Text.byteSize v)) (Clause.group body, _) :=
    takes_lookAt_bind hopen (group.bind (k := 0) takes_pure)
  have start : ValueStart c (o + Text.byteSize u + Text.byteSize v) false :=
    .other (by simp [hopen])
  have clause := takes_clause marker field start value boost hback (by simpa using h)
  refine ⟨?_, clause.2⟩
  have hcost : 1 + m.fieldLookaheads false + (1 + (2 + (body.lookaheads + 4 * j +
        if y = [] then 0 else 4) + 2 + 0)) + 1 =
      (Clause.group body m).lookaheads + 4 * (j + if y = [] then 0 else 1) := by
    simp only [Clause.lookaheads]
    split_ifs <;> omega
  rw [← hcost]
  exact clause.1

/-- Where a sequence may be closed, a clause is refused after three lookaheads. -/
lemma refuses_clause {inner : Nat → Production (Production.Taken Query)}
    (operator : Option Operator) (h : Closing (c.rest o)) :
    Refuses c e 3 (OnDemand.clause inner operator o) := by
  have hkind := kindAt_of_closing h
  have hmarker : Takes c e 1 (OnDemand.marker o) (none, o) := by
    unfold OnDemand.marker Cursor.marker
    rcases hkind with hk | hk <;> exact takes_lookAt_bind (k := 0) hk takes_pure
  have hfield : Takes c e 1 (OnDemand.field o) (none, o) := by
    unfold OnDemand.field Cursor.field
    rcases hkind with hk | hk <;> exact takes_lookAt_bind (k := 0) hk takes_pure
  have hvalue : Refuses c e 1 (OnDemand.value inner none none o) := by
    unfold OnDemand.value Reader.value
    rcases hkind with hk | hk <;> exact refuses_lookAt_bind (k := 0) hk refuses_refuseAt
  unfold OnDemand.clause Reader.clause
  exact hmarker.bind_refuses (j := 1) (k := 2) (hfield.bind_refuses (j := 1) (k := 1) hvalue.bind)

/-- No further clause is found at the end of a sequence, which takes longer after a blank. -/
lemma refuses_joinedClause {inner : Nat → Production (Production.Taken Query)}
    {gap back : List Char} (hgap : IsGap gap) (hback : Closing back) (h : c.rest o = gap ++ back) :
    Refuses c e (1 + if gap = [] then 0 else 4) (OnDemand.joinedClause inner o) := by
  unfold OnDemand.joinedClause Reader.joinedClause
  cases gap with
  | nil =>
    rw [if_pos rfl]
    refine (refuses_expect ?_).bind
    have closing : Closing (c.rest o) := by
      rw [h]
      exact hback
    rcases kindAt_of_closing closing with hk | hk <;> simp [hk]
  | cons b rest =>
    rw [if_neg (by simp)]
    have closing : Closing (c.rest (o + Text.byteSize (b :: rest))) := by
      rw [Setting.rest_add h]
      exact hback
    refine (takes_blank ⟨by simp, hgap⟩ ?_ h).bind_refuses ?_
    · rintro d more rfl
      rcases hback with hnil | ⟨tail, hclose⟩
      · cases hnil
      · obtain ⟨rfl, -⟩ := List.cons.inj hclose
        decide
    · unfold Reader.afterBlank
      rcases kindAt_of_closing closing with hk | hk <;>
        exact refuses_lookAt_bind (k := 3) hk (refuses_miss (refuses_clause none closing))

lemma moreTakes_nil : MoreTakes [] [] 0 := by
  intro c e o steps left found gap back h hgap hback fits hsteps hleft s n hs hn
  obtain ⟨left, rfl⟩ : ∃ l, left = l + 1 := ⟨left - 1, by simp at hleft; omega⟩
  have hcost : 1 + (if gap = [] then 0 else 4) =
      Clause.joinedLookaheads [] + 1 + 4 * 0 + if gap = [] then 0 else 4 := by
    simp [Clause.joinedLookaheads]
  rw [← hcost] at hn
  obtain ⟨s', hr, hs', hn'⟩ :=
    @refuses_joinedClause c e o (OnDemand.sequence steps) gap back hgap hback h s n hs hn
  refine ⟨s', ?_, hs', hn'⟩
  unfold Production.moreClauses
  rw [hr]
  simp

lemma kindAt_keyword {operator : Operator} {u back : List Char} (keyword : KeywordText operator u)
    (h : c.rest o = u ++ back) (hback : ∀ d more, back = d :: more → continuesWord d = false) :
    Production.operatorOf? (c.kindAt o) = some operator ∧ c.next o = o + Text.byteSize u := by
  have word : IsWord u := by
    cases keyword
    · exact isWord_of_all (by decide) (by decide)
    · exact isWord_of_all (by decide) (by decide)
    · exact isWord_of_all (by decide) (by decide)
  obtain ⟨hkind, -, hnext⟩ := Setting.at_word h word hback
  refine ⟨?_, hnext⟩
  rw [hkind]
  cases keyword <;> rfl

lemma takes_joinedClause {next : Clause} {u v back : List Char} {j steps : Nat}
    (joint : JointText next.modifiers.operator u) (text : ClauseText next v)
    (took : ClauseTakes next v j) (hback : Stops [')'] back) (fits : c.Fits (e + next.depth))
    (hsize : Text.byteSize v ≤ steps) (h : c.rest o = u ++ (v ++ back)) :
    Takes c e (next.modifiers.jointLookaheads + (next.lookaheads + 4 * j))
      (OnDemand.joinedClause (OnDemand.sequence steps) o)
      (next, o + Text.byteSize (u ++ v)) := by
  obtain ⟨clause, hnone⟩ := took (Setting.rest_add h) hback fits hsize
  have hplace : o + Text.byteSize (u ++ v) = o + Text.byteSize u + Text.byteSize v := by
    rw [Text.byteSize_append, Nat.add_assoc]
  unfold Modifiers.jointLookaheads OnDemand.joinedClause Reader.joinedClause Reader.afterBlank
  rw [hplace]
  generalize next.modifiers.operator = part at joint clause
  cases joint with
  | blank blanks =>
    have hcost : (if (none : Option Operator).isSome then 3 else 2) + (next.lookaheads + 4 * j) =
        1 + (1 + (next.lookaheads + 4 * j)) := by
      simp only [Option.isSome_none, Bool.false_eq_true, if_false]
      omega
    rw [hcost]
    refine (takes_blank blanks (text.inked.head _) h).bind (takes_lookAt_bind rfl ?_)
    simp only [hnone]
    exact takes_miss clause
  | @keyword operator x y z before keyword after =>
    have hcost : (if (some operator).isSome then 3 else 2) + (next.lookaheads + 4 * j) =
        1 + (1 + (1 + (next.lookaheads + 4 * j))) := by
      simp only [Option.isSome_some, if_true]
      omega
    rw [hcost]
    simp only [List.append_assoc] at h
    have h₁ := Setting.rest_add h
    have h₂ := Setting.rest_add h₁
    obtain ⟨hkeyword, hnext⟩ := kindAt_keyword keyword h₁ fun d more hd =>
      (not_startsWord_of_isBlank (after.head _ d more hd)).2
    have hstart : o + Text.byteSize (x ++ y ++ z) =
        o + Text.byteSize x + Text.byteSize y + Text.byteSize z := by
      simp only [Text.byteSize_append]
      omega
    rw [hstart] at clause ⊢
    refine (takes_blank before ?_ h).bind (takes_lookAt_bind rfl ?_)
    · cases keyword <;> (rintro d more ⟨⟩; decide)
    simp only [hkeyword]
    exact takes_next_bind hnext ((takes_blank after (text.inked.head _) h₂).bind clause)

lemma moreTakes_cons {next : Clause} {more : List Clause} {u v w : List Char} {i j : Nat}
    (joint : JointText next.modifiers.operator u) (text : ClauseText next v)
    (joined : MoreText more w) (took : ClauseTakes next v i) (tookMore : MoreTakes more w j) :
    MoreTakes (next :: more) (u ++ v ++ w) (i + j) := by
  intro c e o steps left found gap back h hgap hback fits hsteps hleft s n hs hn
  simp only [List.append_assoc] at h
  simp only [Text.byteSize_append] at hsteps hleft
  obtain ⟨left, rfl⟩ : ∃ l, left = l + 1 := ⟨left - 1, by omega⟩
  have hv := text.inked.byteSize_pos
  have fitsNext : c.Fits (e + next.depth) := fits.mono (by simp only [Clause.depths]; omega)
  have fitsMore : c.Fits (e + Clause.depths more) := fits.mono (by simp only [Clause.depths]; omega)
  have hv' : Text.byteSize v ≤ steps := by omega
  have hw : c.rest (o + Text.byteSize (u ++ v)) = w ++ (gap ++ back) :=
    Setting.rest_add (by rw [h, List.append_assoc])
  have first := takes_joinedClause joint text took (joined.stops hgap hback) fitsNext hv' h
  have rest := @tookMore c e _ steps left (next :: found) gap back hw hgap hback fitsMore (by omega)
    (by omega)
  have hcost : n + (Clause.joinedLookaheads (next :: more) + 1 + 4 * (i + j) +
        if gap = [] then 0 else 4) =
      n + (Clause.joinedLookaheads more + 1 + 4 * j + if gap = [] then 0 else 4) +
        (next.modifiers.jointLookaheads + (next.lookaheads + 4 * i)) := by
    simp only [Clause.joinedLookaheads]
    omega
  rw [hcost] at hn
  obtain ⟨s₁, hr, hs₁, hn₁⟩ := first s _ hs hn
  obtain ⟨s₂, hr₂, hs₂, hn₂⟩ := rest s₁ n hs₁ hn₁
  refine ⟨s₂, ?_, hs₂, hn₂⟩
  unfold Production.moreClauses
  rw [hr]
  dsimp only
  rw [hr₂]
  simp [Text.byteSize_append, Nat.add_assoc]

lemma sequenceTakes_collapse {first : Clause} {more : List Clause} {u v : List Char} {i j : Nat}
    (unjoined : first.modifiers.operator = none) (text : ClauseText first u)
    (joined : MoreText more v) (took : ClauseTakes first u i) (tookMore : MoreTakes more v j) :
    SequenceTakes (.collapse first more) (u ++ v) (i + j) := by
  intro c e o steps gap back h hgap hback fits hsteps
  simp only [List.append_assoc] at h
  simp only [Text.byteSize_append] at hsteps
  obtain ⟨steps, rfl⟩ : ∃ l, steps = l + 1 := ⟨steps - 1, by omega⟩
  have hu := text.inked.byteSize_pos
  rw [depth_collapse] at fits
  obtain ⟨clause, -⟩ := @took c e o steps _ h (joined.stops hgap hback) (fits.mono (by omega))
    (by omega)
  have rest := @tookMore c e _ steps steps [] gap back (Setting.rest_add h) hgap hback
    (fits.mono (by omega)) (by omega) (by omega)
  have hcost : (Query.collapse first more).lookaheads + 4 * (i + j) +
        (if gap = [] then 0 else 4) =
      first.lookaheads + 4 * i + (Clause.joinedLookaheads more + 1 + 4 * j +
        (if gap = [] then 0 else 4) + 0) := by
    rw [lookaheads_collapse]
    omega
  have hplace : o + Text.byteSize (u ++ v) = o + Text.byteSize u + Text.byteSize v := by
    rw [Text.byteSize_append, Nat.add_assoc]
  unfold OnDemand.sequence Reader.sequence
  rw [hcost, hplace, ← unjoined]
  exact clause.bind (rest.bind takes_pure)

/-- A text that is no shorter than the canonical one by what it has in blanks before closing
parentheses. -/
def Exceeds (w : List Char) (canonical : String) (j : Nat) : Prop :=
  Text.byteSize canonical.toList + j ≤ Text.byteSize w

mutual

/-- **Every text of a sequence is read.**  It has no fewer bytes than the canonical text, and takes
more lookaheads only for the blanks before closing parentheses that the canonical text lacks. -/
theorem SequenceText.takes {q : Query} {w : List Char} : SequenceText q w →
    ∃ j, Exceeds w q.render j ∧ SequenceTakes q w j
  | .collapse unjoined text joined => by
    obtain ⟨i, hi, took⟩ := text.takes
    obtain ⟨j, hj, tookMore⟩ := joined.takes
    refine ⟨i + j, ?_, sequenceTakes_collapse unjoined text joined took tookMore⟩
    unfold Exceeds at *
    rw [render_collapse, String.toList_append, Text.byteSize_append, Text.byteSize_append]
    omega

theorem ClauseText.takes {clause : Clause} {w : List Char} : ClauseText clause w →
    ∃ j, Exceeds w clause.render j ∧ ClauseTakes clause w j
  | .atom marker field text boost => by
    refine ⟨0, ?_, clauseTakes_atom marker field text boost⟩
    have hvalue := byteSize_render_le text
    unfold Exceeds
    simp only [Clause.render, String.toList_append, Modifiers.toList_lead marker field,
      Modifiers.toList_trail boost, Text.byteSize_append]
    omega
  | @ClauseText.group body m u v w x y z marker field before text after boost => by
    obtain ⟨j, hj, took⟩ := text.takes
    refine ⟨_, ?_, clauseTakes_group marker field before text after boost took⟩
    have hy : (if y = [] then 0 else 1) ≤ Text.byteSize y := by
      split_ifs with hnil
      · exact Nat.zero_le _
      · exact Text.byteSize_pos hnil
    unfold Exceeds at *
    have hopen : Text.byteSize "(".toList = '('.utf8Size := by decide
    have hclose : Text.byteSize ")".toList = ')'.utf8Size := by decide
    simp only [Clause.render, String.toList_append, Modifiers.toList_lead marker field,
      Modifiers.toList_trail boost, Text.byteSize_append, Text.byteSize_cons, Text.byteSize_nil,
      hopen, hclose]
    omega

theorem MoreText.takes {more : List Clause} {w : List Char} : MoreText more w →
    ∃ j, Exceeds w (Clause.renderJoined more) j ∧ MoreTakes more w j
  | .nil => ⟨0, le_rfl, moreTakes_nil⟩
  | .cons joint text joined => by
    obtain ⟨i, hi, took⟩ := text.takes
    obtain ⟨j, hj, tookMore⟩ := joined.takes
    refine ⟨i + j, ?_, moreTakes_cons joint text joined took tookMore⟩
    have hjoint := byteSize_joint_le joint
    unfold Exceeds at *
    simp only [Clause.renderJoined, String.toList_append, Text.byteSize_append]
    omega

end

/-- **A text of a query is read**, and for no more lookaheads than the query asks for if it has no
blanks at its end. -/
theorem query_takes {q : Query} {u v w : List Char} {j steps start : Nat} (before : IsGap u)
    (text : SequenceText q v) (after : IsGap w) (took : SequenceTakes q v j)
    (fits : c.Fits q.depth) (hsteps : Text.byteSize v < steps)
    (h : c.rest start = u ++ v ++ w) :
    Takes c 0 (q.lookaheads + 3 + 4 * j + if w = [] then 0 else 4)
      (OnDemand.query steps start) q := by
  have h₁ : c.rest start = u ++ (v ++ (w ++ [])) := by simpa using h
  have h₂ := Setting.rest_add h₁
  have h₃ := Setting.rest_add h₂
  have hend := (Setting.kindAt_of_rest_eq_nil (Setting.rest_add h₃)).1
  have sequence := @took c 0 _ steps w [] h₂ after (Or.inl rfl) (by simpa using fits) hsteps
  have hcost : q.lookaheads + 3 + 4 * j + (if w = [] then 0 else 4) =
      1 + (q.lookaheads + 4 * j + (if w = [] then 0 else 4) + (1 + (1 + 0))) := by
    omega
  unfold OnDemand.query Reader.query
  rw [hcost]
  refine (takes_skipBlank before (text.inked.head _) h₁).bind (sequence.bind ?_)
  refine (takes_skipBlank after ?_ h₃).bind (takes_lookAt_bind hend ?_)
  · intro d more hd
    cases hd
  · rw [if_pos rfl]
    exact takes_pure

end SearchQuery
