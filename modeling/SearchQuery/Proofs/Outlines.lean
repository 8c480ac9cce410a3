import SearchQuery.Proofs.Acceptance
import SearchQuery.Proofs.Unambiguous
import SearchQuery.Query.Outline

/-!
# Outlines tell queries apart

An outline shows the texts of a query as they are, and a text may hold anything that an outline
holds: a phrase may run over several lines that look like clauses, and a bound may be a quote or an
opening bracket.  Of a query that was accepted the outline can be read all the same, because of what
the grammar lets stand in each text.  This is all that is used of accepted queries, so that the
argument is about writable ones.

## Lines

The headline of a value ends by itself: the text of a term or a phrase holds no quote, and a bound
holds no blank and no closing bracket (`Atom.headline_append_inj`).  Behind it come words, each
after one blank and none with a blank in it, up to the end of the line (`words_append_inj`).  The
words come in a fixed order, and the first character of a word tells which it is
(`Modifiers.words_inj`).

## Levels

The clauses of a list and the body of a group are on deeper lines, so they go on up to the first
line that is not: `Dedented` is what is asked of the text behind them.
-/

namespace SearchQuery

/-! ## Words -/

/-- Words, each after one blank. -/
def spaced (words : List String) : List Char := words.flatMap fun word => ' ' :: word.toList

/-- No character is a blank. -/
def IsSolid (w : List Char) : Prop := ∀ c ∈ w, isBlank c = false

lemma spaced_append (v w : List String) : spaced (v ++ w) = spaced v ++ spaced w :=
  List.flatMap_append

/-- Behind a word stands the blank before the next one, or the end of the line. -/
lemma spaced_append_eq_cons (words : List String) (r : List Char) :
    ∃ d more, spaced words ++ '\n' :: r = d :: more ∧ isBlank d = true := by
  cases words with
  | nil => exact ⟨_, _, rfl, rfl⟩
  | cons w words => exact ⟨_, _, rfl, rfl⟩

/-- **A line of words can be taken apart.** -/
lemma words_append_inj {v w : List String} {r s : List Char} (hv : ∀ x ∈ v, IsSolid x.toList)
    (hw : ∀ x ∈ w, IsSolid x.toList) (h : spaced v ++ '\n' :: r = spaced w ++ '\n' :: s) :
    v = w ∧ r = s := by
  induction v generalizing w with
  | nil =>
    cases w with
    | nil => exact ⟨rfl, (List.cons.inj h).2⟩
    | cons y w => exact absurd (List.cons.inj h).1 (by decide)
  | cons x v ih =>
    cases w with
    | nil => exact absurd (List.cons.inj h).1 (by decide)
    | cons y w =>
      have hline : x.toList ++ (spaced v ++ '\n' :: r) = y.toList ++ (spaced w ++ '\n' :: s) := by
        simpa [spaced] using h
      obtain ⟨d, more, hd, hblank⟩ := spaced_append_eq_cons v r
      obtain ⟨e, more', he, hblank'⟩ := spaced_append_eq_cons w s
      rw [hd, he] at hline
      obtain ⟨hxy, rfl, rfl⟩ := append_stop_inj (hv x List.mem_cons_self)
        (hw y List.mem_cons_self) hblank hblank' hline
      obtain ⟨rfl, rfl⟩ := ih (fun z hz => hv z (List.mem_cons_of_mem _ hz))
        (fun z hz => hw z (List.mem_cons_of_mem _ hz)) (hd.trans he.symm)
      rw [String.toList_inj.1 hxy]
      exact ⟨rfl, rfl⟩

/-! ### The words of a clause -/

/-- The words for the modifiers behind a suffix. -/
def Modifiers.lateWords (m : Modifiers) : List String :=
  m.boost.toList.map ("boost=" ++ ·) ++ m.operator.toList.map ("op=" ++ ·.keyword)

/-- The words for modifiers, with those of a suffix between them. -/
def Modifiers.words (m : Modifiers) (suffix : List String) : List String :=
  m.field.toList.map ("field=" ++ ·) ++ (m.marker.toList.map Marker.name ++
    (suffix ++ m.lateWords))

/-- The word for a similarity. -/
def Similarity.word : Similarity → String
  | default => "similarity"
  | value number => "similarity=" ++ number

/-- The words for the suffix of a value. -/
def Atom.suffixWords : Atom → List String
  | term _ similarity => similarity.toList.map Similarity.word
  | phrase _ distance => distance.toList.map ("distance=" ++ ·)
  | range _ _ _ => []

lemma toList_optionalText {α : Type} {text word : α → String} (o : Option α)
    (h : ∀ a, (text a).toList = ' ' :: (word a).toList) :
    (optionalText o text).toList = spaced (o.toList.map word) := by
  cases o with
  | none => rfl
  | some a => simp [optionalText, spaced, h]

/-- The properties of a clause are its words. -/
lemma toList_properties (a : Atom) (m : Modifiers) :
    m.earlyProperties.toList ++ (a.property.toList ++ m.lateProperties.toList) =
      spaced (m.words a.suffixWords) := by
  have suffix : a.property.toList = spaced a.suffixWords := by
    match a with
    | .term _ none => rfl
    | .term _ (some .default) => simp [Atom.property, Atom.suffixWords, spaced, Similarity.word]
    | .term _ (some (.value number)) =>
      simp [Atom.property, Atom.suffixWords, spaced, Similarity.word]
    | .phrase _ distance => exact toList_optionalText distance fun _ => by simp
    | .range _ _ _ => rfl
  have field : (optionalText m.field (" field=" ++ ·)).toList =
      spaced (m.field.toList.map ("field=" ++ ·)) := toList_optionalText _ fun _ => by simp
  have marker : (optionalText m.marker (" " ++ ·.name)).toList =
      spaced (m.marker.toList.map Marker.name) := toList_optionalText _ fun _ => by simp
  have boost : (optionalText m.boost (" boost=" ++ ·)).toList =
      spaced (m.boost.toList.map ("boost=" ++ ·)) := toList_optionalText _ fun _ => by simp
  have operator : (optionalText m.operator (" op=" ++ ·.keyword)).toList =
      spaced (m.operator.toList.map ("op=" ++ ·.keyword)) := toList_optionalText _ fun _ => by simp
  simp only [Modifiers.words, Modifiers.lateWords, Modifiers.earlyProperties,
    Modifiers.lateProperties, spaced_append,
    String.toList_append, List.append_assoc, suffix, field, marker, boost, operator]

/-- The properties of a group are its words. -/
lemma toList_groupProperties (m : Modifiers) :
    m.earlyProperties.toList ++ m.lateProperties.toList = spaced (m.words []) :=
  toList_properties (.range "" "" true) m

/-! ### What the words tell -/

/-- The word starts with one of some letters. -/
def StartsWith (letters : List Char) (word : String) : Prop :=
  ∃ c ∈ letters, word.toList.head? = some c

/-- Whether a word is missing is seen from the first letters of the words that may stand there. -/
lemma optional_word_inj {α : Type} {word : α → String} {own others : List Char}
    (inj : Function.Injective word) (hown : ∀ a, StartsWith own (word a))
    (disjoint : ∀ c ∈ own, c ∉ others) {o₁ o₂ : Option α} {r₁ r₂ : List String}
    (h₁ : ∀ w ∈ r₁, StartsWith others w) (h₂ : ∀ w ∈ r₂, StartsWith others w)
    (h : o₁.toList.map word ++ r₁ = o₂.toList.map word ++ r₂) : o₁ = o₂ ∧ r₁ = r₂ := by
  have apart : ∀ a, ¬StartsWith others (word a) := by
    rintro a ⟨c, hc, hhead⟩
    obtain ⟨d, hd, hhead'⟩ := hown a
    rw [hhead] at hhead'
    obtain rfl := Option.some.inj hhead'
    exact disjoint c hd hc
  exact optional_append_inj inj (fun a mem => apart a (h₁ _ mem))
    (fun a mem => apart a (h₂ _ mem)) h

lemma append_injective (s : String) : Function.Injective (s ++ ·) :=
  fun _ _ h => (String.append_right_inj s).1 h

lemma Similarity.word_injective : Function.Injective Similarity.word := by
  intro a b h
  cases a <;> cases b <;> simp [Similarity.word, ← String.toList_inj] at h ⊢
  exact h

/-! #### First letters -/

lemma StartsWith.mono {own letters : List Char} {w : String} (h : StartsWith own w)
    (sub : own ⊆ letters) : StartsWith letters w := by
  obtain ⟨c, hc, hhead⟩ := h
  exact ⟨c, sub hc, hhead⟩

lemma startsWith_optional {α : Type} {word : α → String} {own letters : List Char}
    (h : ∀ a, StartsWith own (word a)) (sub : own ⊆ letters) (o : Option α) :
    ∀ w ∈ o.toList.map word, StartsWith letters w := by
  intro w mem
  obtain ⟨a, -, rfl⟩ := List.mem_map.1 mem
  exact (h a).mono sub

lemma Similarity.startsWith_word (x : Similarity) : StartsWith ['s', 'd'] x.word := by
  cases x <;> simp [StartsWith, word]

lemma startsWith_distance (distance : String) :
    StartsWith ['s', 'd'] ("distance=" ++ distance) := by
  simp [StartsWith]

namespace Modifiers

lemma startsWith_field (field : String) : StartsWith ['f'] ("field=" ++ field) := by
  simp [StartsWith]

lemma startsWith_marker (marker : Marker) : StartsWith ['r', 'p'] marker.name := by
  cases marker <;> simp [StartsWith, Marker.name]

lemma startsWith_boost (boost : String) : StartsWith ['b'] ("boost=" ++ boost) := by
  simp [StartsWith]

lemma startsWith_operator (operator : Operator) : StartsWith ['o'] ("op=" ++ operator.keyword) := by
  simp [StartsWith]

lemma startsWith_late (m : Modifiers) : ∀ w ∈ m.lateWords, StartsWith ['b', 'o'] w :=
  List.forall_mem_append.2 ⟨startsWith_optional startsWith_boost (by simp) m.boost,
    startsWith_optional startsWith_operator (by simp) m.operator⟩

/-! #### One after the other -/

lemma lateWords_inj {m n : Modifiers} (h : m.lateWords = n.lateWords) :
    m.boost = n.boost ∧ m.operator = n.operator := by
  obtain ⟨hboost, h⟩ := optional_word_inj (append_injective _) startsWith_boost (by simp)
    (startsWith_optional startsWith_operator (List.Subset.refl _) m.operator)
    (startsWith_optional startsWith_operator (List.Subset.refl _) n.operator) h
  exact ⟨hboost, optional_inj ((append_injective _).comp Operator.keyword_injective) h⟩

/-- **The words of a line tell the modifiers and the suffix.** -/
lemma words_inj {α : Type} {word : α → String} {m n : Modifiers} {o₁ o₂ : Option α}
    (inj : Function.Injective word) (hword : ∀ a, StartsWith ['s', 'd'] (word a))
    (h : m.words (o₁.toList.map word) = n.words (o₂.toList.map word)) : m = n ∧ o₁ = o₂ := by
  have fromSuffix : ∀ (m : Modifiers) (o : Option α), ∀ w ∈ o.toList.map word ++ m.lateWords,
      StartsWith ['s', 'd', 'b', 'o'] w := by
    intro m o
    refine List.forall_mem_append.2 ⟨startsWith_optional hword (by simp) o, ?_⟩
    exact fun w mem => (m.startsWith_late w mem).mono (by simp)
  have fromMarker : ∀ (m : Modifiers) (o : Option α), ∀ w ∈ m.marker.toList.map Marker.name ++
      (o.toList.map word ++ m.lateWords), StartsWith ['r', 'p', 's', 'd', 'b', 'o'] w := by
    intro m o
    refine List.forall_mem_append.2 ⟨startsWith_optional startsWith_marker (by simp) m.marker, ?_⟩
    exact fun w mem => (fromSuffix m o w mem).mono (by simp)
  obtain ⟨hfield, hmore⟩ := optional_word_inj (append_injective _) startsWith_field (by simp)
    (fromMarker m o₁) (fromMarker n o₂) h
  obtain ⟨hmarker, hmore⟩ := optional_word_inj Marker.name_injective startsWith_marker (by simp)
    (fromSuffix m o₁) (fromSuffix n o₂) hmore
  obtain ⟨hsuffix, hlate⟩ := optional_word_inj inj hword (by simp) m.startsWith_late
    n.startsWith_late hmore
  obtain ⟨hboost, hoperator⟩ := lateWords_inj hlate
  exact ⟨eq_of_parts hfield hmarker hboost hoperator, hsuffix⟩

/-- Where no suffix stands between, the words tell the modifiers. -/
lemma plainWords_inj {m n : Modifiers} (h : m.words [] = n.words []) : m = n := by
  have hnone : m.words ((.none : Option Similarity).toList.map Similarity.word) =
      n.words ((.none : Option Similarity).toList.map Similarity.word) := h
  exact (words_inj Similarity.word_injective Similarity.startsWith_word hnone).1

end Modifiers

/-! ### Words hold no blanks -/

lemma isSolid_append {v w : List Char} (hv : IsSolid v) (hw : IsSolid w) : IsSolid (v ++ w) :=
  List.forall_mem_append.2 ⟨hv, hw⟩

lemma isSolid_of_all {w : List Char} (h : w.all (!isBlank ·) = true) : IsSolid w := by
  intro c hc
  simpa using List.all_eq_true.1 h c hc

lemma isBlank_eq_false_of_continuesWord {c : Char} (h : continuesWord c = true) :
    isBlank c = false := by
  by_contra hblank
  rw [(not_startsWord_of_isBlank (by simpa using hblank)).2] at h
  cases h

lemma IsWord.isSolid {w : List Char} (h : IsWord w) : IsSolid w := by
  obtain ⟨c, more, rfl, hc, hmore⟩ := h
  intro d hd
  rcases List.mem_cons.1 hd with rfl | hd
  · exact isBlank_eq_false_of_continuesWord (by simp [continuesWord, hc])
  · exact isBlank_eq_false_of_continuesWord (hmore d hd)

lemma IsDigits.isSolid {w : List Char} (h : IsDigits w) : IsSolid w := by
  intro c hc
  by_contra hblank
  have hdigit := h.2 c hc
  rcases isBlank_iff.1 (by simpa using hblank) with rfl | rfl | rfl | rfl | rfl <;>
    exact absurd hdigit (by decide)

lemma IsNumber.isSolid {w : List Char} (h : IsNumber w) : IsSolid w := by
  rcases h with h | ⟨whole, fraction, hwhole, hfraction, rfl⟩
  · exact h.isSolid
  · exact isSolid_append hwhole.isSolid (isSolid_append (v := ['.']) (isSolid_of_all (by decide))
      hfraction.isSolid)

lemma forall_mem_optional {α : Type} {word : α → String} {p : String → Prop} {o : Option α}
    (h : ∀ a ∈ o, p (word a)) : ∀ w ∈ o.toList.map word, p w := by
  intro w mem
  obtain ⟨a, ha, rfl⟩ := List.mem_map.1 mem
  exact h a (Option.mem_toList.1 ha)

/-- The words of a line that is written hold no blanks. -/
lemma Modifiers.words_isSolid {m : Modifiers} {suffix : List String} (hm : m.IsWritable)
    (hsuffix : ∀ w ∈ suffix, IsSolid w.toList) : ∀ w ∈ m.words suffix, IsSolid w.toList := by
  have key : ∀ (s t : String), IsSolid s.toList → IsSolid t.toList → IsSolid (s ++ t).toList := by
    intro s t hs ht
    rw [String.toList_append]
    exact isSolid_append hs ht
  refine List.forall_mem_append.2 ⟨?_, List.forall_mem_append.2 ⟨?_,
    List.forall_mem_append.2 ⟨hsuffix, List.forall_mem_append.2 ⟨?_, ?_⟩⟩⟩⟩
  · exact forall_mem_optional fun field hfield =>
      key _ _ (isSolid_of_all (by decide)) (hm.1 field hfield).1.1.isSolid
  · refine forall_mem_optional fun marker _ => ?_
    cases marker <;> exact isSolid_of_all (by decide)
  · exact forall_mem_optional fun boost hboost =>
      key _ _ (isSolid_of_all (by decide)) (hm.2 boost hboost).isSolid
  · refine forall_mem_optional fun operator _ => key _ _ (isSolid_of_all (by decide)) ?_
    cases operator <;> exact isSolid_of_all (by decide)

lemma Atom.suffixWords_isSolid {a : Atom} {field : Option String} (h : a.IsWritable field) :
    ∀ w ∈ a.suffixWords, IsSolid w.toList := by
  cases a with
  | term text similarity =>
    refine forall_mem_optional fun x hx => ?_
    cases x with
    | default => exact isSolid_of_all (by decide)
    | value number =>
      have := (h.2 _ hx : IsNumber number.toList).isSolid
      simp only [Similarity.word, String.toList_append]
      exact isSolid_append (isSolid_of_all (by decide)) this
  | phrase text distance =>
    refine forall_mem_optional fun number hnumber => ?_
    rw [String.toList_append]
    exact isSolid_append (isSolid_of_all (by decide)) (h.2 number hnumber).isSolid
  | range low high inclusive => simp [suffixWords]

/-! ## Headlines -/

/-- The value without its suffix, which is no part of the headline. -/
def Atom.bare : Atom → Atom
  | term text _ => term text none
  | phrase text _ => phrase text none
  | range low high inclusive => range low high inclusive

/-- A text ends at the quote behind it if there is none in it. -/
lemma quoted_append_inj {u v : String} {r s : List Char} (hu : '"' ∉ u.toList)
    (hv : '"' ∉ v.toList) (h : u.toList ++ '"' :: r = v.toList ++ '"' :: s) : u = v ∧ r = s := by
  have plain : ∀ {w : List Char}, '"' ∉ w → ∀ c ∈ w, (c == '"') = false := by
    intro w hw c hc
    rw [beq_eq_false_iff_ne]
    rintro rfl
    exact hw hc
  obtain ⟨huv, -, hrs⟩ := append_stop_inj (plain hu) (plain hv) rfl rfl h
  exact ⟨String.toList_inj.1 huv, hrs⟩

lemma IsWord.quote_not_mem {w : List Char} (h : IsWord w) : '"' ∉ w := by
  obtain ⟨c, more, rfl, hc, hmore⟩ := h
  intro mem
  rcases List.mem_cons.1 mem with rfl | mem
  · exact absurd hc (by decide)
  · exact absurd (hmore _ mem) (by decide)

/-- A range ends at the first closing bracket, and its lower bound at the first blank. -/
lemma rangeText_append_inj {low high low' high' : String} {inclusive inclusive' : Bool}
    {r s : List Char} (hlow : IsBound low.toList) (hhigh : IsBound high.toList)
    (hlow' : IsBound low'.toList) (hhigh' : IsBound high'.toList)
    (h : (rangeText low high inclusive).toList ++ r =
      (rangeText low' high' inclusive').toList ++ s) :
    low = low' ∧ high = high' ∧ inclusive = inclusive' ∧ r = s := by
  have hsame : inclusive = inclusive' := by
    cases inclusive <;> cases inclusive' <;> simp [rangeText, rangeBrackets] at h ⊢
  subst hsame
  obtain ⟨c, hc, hends⟩ : ∃ c, (rangeBrackets inclusive).2.toList = [c] ∧ endsBound c = true := by
    cases inclusive
    · exact ⟨'\x7d', rfl, rfl⟩
    · exact ⟨']', rfl, rfl⟩
  have hbounds : low.toList ++ ' ' :: ('T' :: 'O' :: ' ' :: (high.toList ++ c :: r)) =
      low'.toList ++ ' ' :: ('T' :: 'O' :: ' ' :: (high'.toList ++ c :: s)) := by
    simpa [rangeText, hc] using h
  obtain ⟨hl, -, hbounds⟩ := append_stop_inj hlow.2 hlow'.2 rfl rfl hbounds
  obtain ⟨hh, -, rfl⟩ := append_stop_inj hhigh.2 hhigh'.2 hends hends
    (List.cons.inj (List.cons.inj (List.cons.inj hbounds).2).2).2
  exact ⟨String.toList_inj.1 hl, String.toList_inj.1 hh, rfl, rfl⟩

/-- **A headline tells the value up to its suffix, and where it ends.** -/
lemma Atom.headline_append_inj {field field' : Option String} {a b : Atom} {r s : List Char}
    (ha : a.IsWritable field) (hb : b.IsWritable field')
    (h : a.headline.toList ++ r = b.headline.toList ++ s) : a.bare = b.bare ∧ r = s := by
  cases a with
  | term text similarity =>
    cases b with
    | term text' similarity' =>
      obtain ⟨rfl, rfl⟩ := quoted_append_inj ha.1.1.quote_not_mem hb.1.1.quote_not_mem
        (by simpa [headline] using h)
      exact ⟨rfl, rfl⟩
    | phrase text' distance => simp [headline] at h
    | range low high inclusive => simp [headline] at h
  | phrase text distance =>
    cases b with
    | term text' similarity => simp [headline] at h
    | phrase text' distance' =>
      obtain ⟨rfl, rfl⟩ := quoted_append_inj ha.1 hb.1 (by simpa [headline] using h)
      exact ⟨rfl, rfl⟩
    | range low high inclusive => simp [headline] at h
  | range low high inclusive =>
    cases b with
    | term text similarity => simp [headline] at h
    | phrase text distance => simp [headline] at h
    | range low' high' inclusive' =>
      obtain ⟨rfl, rfl, rfl, rfl⟩ := rangeText_append_inj ha.2.1 ha.2.2 hb.2.1 hb.2.2
        (by simpa [headline] using h)
      exact ⟨rfl, rfl⟩

/-- The words behind a headline tell the suffix and the modifiers. -/
lemma Atom.words_inj {a b : Atom} {m n : Modifiers} (hbare : a.bare = b.bare)
    (h : m.words a.suffixWords = n.words b.suffixWords) : a = b ∧ m = n := by
  cases a with
  | term text similarity =>
    cases b with
    | term text' similarity' =>
      obtain ⟨rfl, rfl⟩ := Modifiers.words_inj Similarity.word_injective
        Similarity.startsWith_word h
      obtain ⟨rfl, -⟩ := Atom.term.inj hbare
      exact ⟨rfl, rfl⟩
    | phrase text' distance => cases hbare
    | range low high inclusive => cases hbare
  | phrase text distance =>
    cases b with
    | term text' similarity => cases hbare
    | phrase text' distance' =>
      obtain ⟨rfl, rfl⟩ := Modifiers.words_inj (append_injective _) startsWith_distance h
      obtain ⟨rfl, -⟩ := Atom.phrase.inj hbare
      exact ⟨rfl, rfl⟩
    | range low high inclusive => cases hbare
  | range low high inclusive =>
    cases b with
    | term text similarity => cases hbare
    | phrase text distance => cases hbare
    | range low' high' inclusive' =>
      exact ⟨hbare, Modifiers.plainWords_inj h⟩

/-! ## Levels -/

/-- A text does not begin on a line deeper than a level. -/
def Dedented (level : Nat) (r : List Char) : Prop :=
  ∀ s, r ≠ (Outline.indent (level + 1)).toList ++ s

lemma toList_indent_succ (level : Nat) :
    (Outline.indent (level + 1)).toList = (Outline.indent level).toList ++ [' ', ' '] := by
  simp only [Outline.indent, String.toList_ofList]
  rw [Nat.mul_add, ← List.replicate_append_replicate]
  rfl

lemma Dedented.succ {level : Nat} {r : List Char} (h : Dedented level r) :
    Dedented (level + 1) r := by
  intro s hr
  rw [toList_indent_succ, List.append_assoc] at hr
  exact h _ hr

/-- The line of a value. -/
lemma Clause.toList_outlineAt_atom (level : Nat) (a : Atom) (m : Modifiers) :
    ((Clause.atom a m).outlineAt level).toList = (Outline.indent level).toList ++
      (a.headline.toList ++ (spaced (m.words a.suffixWords) ++ ['\n'])) := by
  rw [Clause.outlineAt, ← toList_properties]
  simp

/-- The line of a group, and the lines of its body. -/
lemma Clause.toList_outlineAt_group (level : Nat) (body : Query) (m : Modifiers) :
    ((Clause.group body m).outlineAt level).toList = (Outline.indent level).toList ++
      ("Group".toList ++ (spaced (m.words []) ++ '\n' :: (body.outlineAt (level + 1)).toList)) := by
  rw [Clause.outlineAt, ← toList_groupProperties]
  simp

lemma Query.outlineAt_single (level : Nat) (c : Clause) :
    (Query.single c).outlineAt level = c.outlineAt level := by
  rw [Query.outlineAt]

lemma Query.toList_outlineAt_list (level : Nat) (cs : List Clause) :
    ((Query.list cs).outlineAt level).toList = (Outline.indent level).toList ++
      ("List\n".toList ++ (Clause.outlinesAt (level + 1) cs).toList) := by
  rw [Query.outlineAt]
  simp

/-- The outline of a clause starts with a letter at its level. -/
lemma Clause.toList_outlineAt_starts (level : Nat) (c : Clause) :
    ∃ x more, (c.outlineAt level).toList = (Outline.indent level).toList ++ x :: more ∧
      x ∈ ['T', 'P', 'R', 'G'] := by
  cases c with
  | atom a m =>
    rw [toList_outlineAt_atom]
    cases a with
    | term text similarity => exact ⟨'T', _, by simp [Atom.headline]; rfl, by decide⟩
    | phrase text distance => exact ⟨'P', _, by simp [Atom.headline]; rfl, by decide⟩
    | range low high inclusive => exact ⟨'R', _, by simp [Atom.headline]; rfl, by decide⟩
  | group body m =>
    rw [toList_outlineAt_group]
    exact ⟨'G', _, rfl, by decide⟩

/-- No clause starts as a list does. -/
lemma Clause.outlineAt_ne_list (level : Nat) (c : Clause) (cs : List Clause) (r s : List Char) :
    (c.outlineAt level).toList ++ r ≠ ((Query.list cs).outlineAt level).toList ++ s := by
  obtain ⟨x, more, hc, hx⟩ := c.toList_outlineAt_starts level
  intro h
  rw [hc, Query.toList_outlineAt_list, List.append_assoc, List.append_assoc] at h
  obtain ⟨rfl, -⟩ := List.cons.inj (List.append_cancel_left h)
  exact absurd hx (by decide)

/-- Clauses at a level are not deeper than it. -/
lemma Clause.dedented_outlinesAt {level : Nat} {r : List Char} (h : Dedented level r)
    (cs : List Clause) : Dedented level ((Clause.outlinesAt level cs).toList ++ r) := by
  cases cs with
  | nil =>
    rw [Clause.outlinesAt]
    exact h
  | cons c cs =>
    obtain ⟨x, more, hc, hx⟩ := c.toList_outlineAt_starts level
    intro s hs
    rw [Clause.outlinesAt, String.toList_append, hc, toList_indent_succ, List.append_assoc,
      List.append_assoc, List.append_assoc] at hs
    obtain ⟨rfl, -⟩ := List.cons.inj (List.append_cancel_left hs)
    exact absurd hx (by decide)

/-- What is not deeper than a level is no clause of the next one. -/
lemma Clause.ne_outlinesAt_cons {level : Nat} {r : List Char} (h : Dedented level r) (c : Clause)
    (cs : List Clause) (s : List Char) :
    r ≠ (Clause.outlinesAt (level + 1) (c :: cs)).toList ++ s := by
  obtain ⟨x, more, hc, -⟩ := c.toList_outlineAt_starts (level + 1)
  rw [Clause.outlinesAt, String.toList_append, hc, List.append_assoc, List.append_assoc]
  exact h _

/-! ## Reading outlines -/

section Values

variable {level : Nat} {a b : Atom} {m n : Modifiers} {r s : List Char}

lemma Clause.atom_outline_inj (ha : (Clause.atom a m).IsWritable)
    (hb : (Clause.atom b n).IsWritable)
    (h : ((Clause.atom a m).outlineAt level).toList ++ r =
      ((Clause.atom b n).outlineAt level).toList ++ s) : a = b ∧ m = n ∧ r = s := by
  simp only [toList_outlineAt_atom, List.append_assoc, List.append_cancel_left_eq] at h
  obtain ⟨hbare, hwords⟩ := Atom.headline_append_inj ha.2 hb.2 h
  obtain ⟨hsame, rfl⟩ := words_append_inj
    (Modifiers.words_isSolid ha.1 (Atom.suffixWords_isSolid ha.2))
    (Modifiers.words_isSolid hb.1 (Atom.suffixWords_isSolid hb.2)) hwords
  obtain ⟨rfl, rfl⟩ := Atom.words_inj hbare hsame
  exact ⟨rfl, rfl, rfl⟩

/-- No value starts as a group does. -/
lemma Clause.atom_outline_ne_group (body : Query) :
    ((Clause.atom a m).outlineAt level).toList ++ r ≠
      ((Clause.group body n).outlineAt level).toList ++ s := by
  intro h
  simp only [toList_outlineAt_atom, toList_outlineAt_group, List.append_assoc,
    List.append_cancel_left_eq] at h
  cases a <;> simp [Atom.headline] at h

/-- The first line of a group tells its modifiers. -/
lemma Clause.group_line_inj {p q : Query} (hm : m.IsWritable) (hn : n.IsWritable)
    (h : ((Clause.group p m).outlineAt level).toList ++ r =
      ((Clause.group q n).outlineAt level).toList ++ s) :
    m = n ∧ (p.outlineAt (level + 1)).toList ++ r = (q.outlineAt (level + 1)).toList ++ s := by
  simp only [toList_outlineAt_group, List.append_assoc, List.append_cancel_left_eq,
    List.cons_append] at h
  obtain ⟨hwords, hbody⟩ := words_append_inj (Modifiers.words_isSolid hm (by simp))
    (Modifiers.words_isSolid hn (by simp)) h
  exact ⟨Modifiers.plainWords_inj hwords, hbody⟩

end Values

lemma Query.areWritable_of_list {cs : List Clause} (h : (Query.list cs).IsWritable) :
    Clause.AreWritable cs := by
  cases cs with
  | nil => exact trivial
  | cons c cs => exact h

/-- Outlines tell two writable things apart, and where they end, if what comes after them is not
deeper than a level. -/
def OutlinesApart {α : Type} (level : Nat) (outline : α → String) (writable : α → Prop) (a b : α) :
    Prop :=
  ∀ ⦃r s : List Char⦄, writable a → writable b → Dedented level r → Dedented level s →
    (outline a).toList ++ r = (outline b).toList ++ s → a = b ∧ r = s

mutual

/-- **The outline of a writable query tells the query, and where it ends.** -/
lemma Query.outlinesApart (level : Nat) : (p q : Query) →
    OutlinesApart level (Query.outlineAt level) Query.IsWritable p q
  | .single c, .single d => by
    intro r s hc hd hr hs h
    rw [Query.outlineAt_single, Query.outlineAt_single] at h
    obtain ⟨rfl, rfl⟩ := Clause.outlinesApart level c d hc hd hr hs h
    exact ⟨rfl, rfl⟩
  | .single c, .list ds => by
    intro r s _ _ _ _ h
    rw [Query.outlineAt_single] at h
    exact absurd h (c.outlineAt_ne_list level ds _ _)
  | .list cs, .single d => by
    intro r s _ _ _ _ h
    rw [Query.outlineAt_single] at h
    exact absurd h.symm (d.outlineAt_ne_list level cs _ _)
  | .list cs, .list ds => by
    intro r s hcs hds hr hs h
    rw [Query.toList_outlineAt_list, Query.toList_outlineAt_list] at h
    simp only [List.append_assoc, List.append_cancel_left_eq] at h
    obtain ⟨rfl, rfl⟩ := Clause.allOutlinesApart level cs ds (Query.areWritable_of_list hcs)
      (Query.areWritable_of_list hds) hr hs h
    exact ⟨rfl, rfl⟩

lemma Clause.outlinesApart (level : Nat) : (c d : Clause) →
    OutlinesApart level (Clause.outlineAt level) Clause.IsWritable c d
  | .atom a m, .atom b n => by
    intro r s ha hb _ _ h
    obtain ⟨rfl, rfl, rfl⟩ := Clause.atom_outline_inj ha hb h
    exact ⟨rfl, rfl⟩
  | .atom a m, .group q n => fun _ _ _ _ _ _ h => absurd h (Clause.atom_outline_ne_group q)
  | .group p m, .atom b n => fun _ _ _ _ _ _ h => absurd h.symm (Clause.atom_outline_ne_group p)
  | .group p m, .group q n => by
    intro r s hp hq hr hs h
    obtain ⟨rfl, hbody⟩ := Clause.group_line_inj hp.1 hq.1 h
    obtain ⟨rfl, rfl⟩ := Query.outlinesApart (level + 1) p q hp.2 hq.2 hr.succ hs.succ hbody
    exact ⟨rfl, rfl⟩

lemma Clause.allOutlinesApart (level : Nat) : (cs ds : List Clause) →
    OutlinesApart level (Clause.outlinesAt (level + 1)) Clause.AreWritable cs ds
  | [], [] => fun _ _ _ _ _ _ h => ⟨rfl, by simpa [Clause.outlinesAt] using h⟩
  | [], d :: ds => fun _ _ _ _ hr _ h =>
    absurd (by simpa [Clause.outlinesAt] using h) (Clause.ne_outlinesAt_cons hr d ds _)
  | c :: cs, [] => fun _ _ _ _ _ hs h =>
    absurd (by simpa [Clause.outlinesAt] using h.symm) (Clause.ne_outlinesAt_cons hs c cs _)
  | c :: cs, d :: ds => by
    intro r s hc hd hr hs h
    rw [Clause.outlinesAt, Clause.outlinesAt, String.toList_append, String.toList_append,
      List.append_assoc, List.append_assoc] at h
    obtain ⟨rfl, hmore⟩ := Clause.outlinesApart (level + 1) c d hc.1 hd.1
      (Clause.dedented_outlinesAt hr.succ cs) (Clause.dedented_outlinesAt hs.succ ds) h
    obtain ⟨rfl, rfl⟩ := Clause.allOutlinesApart level cs ds hc.2 hd.2 hr hs hmore
    exact ⟨rfl, rfl⟩

end

lemma isWritable_of_accepted {limits : Limits} {text : String} {q : Query}
    (h : limits.parse text = .accepted q) : q.IsWritable := by
  obtain ⟨-, ⟨u, v, w, -, sequence, -, -⟩, -, -⟩ := derives_of_accepted h
  exact sequence.isWritable

/-- **Outlines tell accepted queries apart**, whatever texts they were read from and within whatever
limits. -/
theorem outline_eq_outline_iff {limits limits' : Limits} {text text' : String} {p q : Query}
    (hp : limits.parse text = .accepted p) (hq : limits'.parse text' = .accepted q) :
    p.outline = q.outline ↔ p = q := by
  constructor
  · intro h
    have dedented : Dedented 0 [] := fun s => by simp [Outline.indent]
    have whole : (p.outlineAt 0).toList ++ [] = (q.outlineAt 0).toList ++ [] :=
      congrArg (fun text : String => text.toList ++ []) h
    exact (Query.outlinesApart 0 p q (isWritable_of_accepted hp) (isWritable_of_accepted hq)
      dedented dedented whole).1
  · rintro rfl
    rfl

/-- A phrase over two lines looks like two clauses, and is told from them by the quotes. -/
theorem outline_eq_outline_iff_phrase_over_lines :
    let p : Query := .list [.atom (.phrase "a\n  Term b" none) {},
      .atom (.range "\"(" "z" true) { field := some "f", operator := some .or }]
    let q : Query := .list [.atom (.phrase "a" none) {}, .atom (.term "b" none) {},
      .atom (.range "\"(" "z" true) { field := some "f", operator := some .or }]
    Limits.parse {} "\"a\n  Term b\" OR f:[\"( TO z]" = .accepted p ∧
    Limits.parse .unlimited " \"a\" b OR f:[ \"( TO z ]" = .accepted q ∧
      (p.outline = q.outline ↔ p = q) := by
  intro p q
  have hp : Limits.parse {} "\"a\n  Term b\" OR f:[\"( TO z]" = .accepted p := by decide +kernel
  have hq : Limits.parse .unlimited " \"a\" b OR f:[ \"( TO z ]" = .accepted q := by decide +kernel
  exact ⟨hp, hq, outline_eq_outline_iff hp hq⟩

end SearchQuery
