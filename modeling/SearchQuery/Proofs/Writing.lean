import SearchQuery.Proofs.Grammar
import SearchQuery.Query.Canonical
import SearchQuery.Text.Bytes

/-!
# Queries that can be written

A query built by hand may hold texts that no query text has, such as a phrase with a quote in it.
`Query.IsWritable` asks of every text in a query that it is one of its kind, that every sequence has
a clause, and that a range has a field.  Such a query is still not always what its text spells: one
clause in a list reads as that clause alone, and the operator of the first clause of a sequence is
not written.  `Query.normalize` takes both away.

The canonical text of a writable query spells the query in normal form (`sequenceText_render`).  In
the other direction, a query that some text spells is writable and in normal form already, and its
canonical text is the shortest one (`SequenceText.canonical`).
-/

namespace SearchQuery

/-! ## Writable queries -/

def Similarity.IsWritable : Similarity → Prop
  | .default => True
  | .value number => IsNumber number.toList

/-- The texts of a value are of their kinds, and a range has a field. -/
def Atom.IsWritable (field : Option String) : Atom → Prop
  | .term text similarity => IsTermText text.toList ∧ ∀ x ∈ similarity, x.IsWritable
  | .phrase text distance => IsPhraseText text.toList ∧ ∀ x ∈ distance, IsDigits x.toList
  | .range low high _ => field ≠ none ∧ IsBound low.toList ∧ IsBound high.toList

def Modifiers.IsWritable (m : Modifiers) : Prop :=
  (∀ x ∈ m.field, IsFieldName x.toList) ∧ ∀ x ∈ m.boost, IsNumber x.toList

mutual

/-- Every text in the query is of its kind, and no sequence is empty. -/
def Query.IsWritable : Query → Prop
  | .single clause => clause.IsWritable
  | .list [] => False
  | .list (first :: more) => first.IsWritable ∧ Clause.AreWritable more

def Clause.IsWritable : Clause → Prop
  | .atom value m => m.IsWritable ∧ value.IsWritable m.field
  | .group body m => m.IsWritable ∧ body.IsWritable

def Clause.AreWritable : List Clause → Prop
  | [] => True
  | clause :: more => clause.IsWritable ∧ Clause.AreWritable more

end

/-! ## Normal form -/

/-- The clause without the operator that would join it to the one before it. -/
def Clause.unjoined (clause : Clause) : Clause := clause.modify fun m => { m with operator := none }

mutual

/-- One clause always stands bare, and the first clause of a sequence is joined to nothing. -/
def Query.normalize : Query → Query
  | .single clause => .single clause.normalizeBody.unjoined
  | .list [] => .list []
  | .list (first :: more) => .collapse first.normalizeBody.unjoined (Clause.normalizeBodies more)

def Clause.normalizeBody : Clause → Clause
  | .atom value m => .atom value m
  | .group body m => .group body.normalize m

def Clause.normalizeBodies : List Clause → List Clause
  | [] => []
  | clause :: more => clause.normalizeBody :: Clause.normalizeBodies more

end

mutual

/-- No sequence in the query has an operator at its first clause. -/
def Query.StartsUnjoined : Query → Prop
  | .single clause => clause.modifiers.operator = none ∧ clause.BodyStartsUnjoined
  | .list [] => True
  | .list (first :: more) =>
    first.modifiers.operator = none ∧ first.BodyStartsUnjoined ∧ Clause.BodiesStartUnjoined more

def Clause.BodyStartsUnjoined : Clause → Prop
  | .atom _ _ => True
  | .group body _ => body.StartsUnjoined

def Clause.BodiesStartUnjoined : List Clause → Prop
  | [] => True
  | clause :: more => clause.BodyStartsUnjoined ∧ Clause.BodiesStartUnjoined more

end

namespace Clause

variable (clause : Clause)

@[simp] lemma modifiers_normalizeBody : clause.normalizeBody.modifiers = clause.modifiers := by
  cases clause <;> rfl

@[simp] lemma operator_unjoined : clause.unjoined.modifiers.operator = none := by
  cases clause <;> rfl

lemma unjoined_of_operator (h : clause.modifiers.operator = none) : clause.unjoined = clause := by
  cases clause with
  | atom value m =>
    obtain ⟨field, marker, boost, operator⟩ := m
    cases h
    rfl
  | group body m =>
    obtain ⟨field, marker, boost, operator⟩ := m
    cases h
    rfl

end Clause

section collapse

variable (first : Clause) (more : List Clause)

@[simp] lemma isWritable_collapse :
    (Query.collapse first more).IsWritable ↔ first.IsWritable ∧ Clause.AreWritable more := by
  cases more <;> simp [Query.collapse, Query.IsWritable, Clause.AreWritable]

@[simp] lemma startsUnjoined_collapse :
    (Query.collapse first more).StartsUnjoined ↔
      first.modifiers.operator = none ∧ first.BodyStartsUnjoined ∧
        Clause.BodiesStartUnjoined more := by
  cases more <;> simp [Query.collapse, Query.StartsUnjoined, Clause.BodiesStartUnjoined]

end collapse

mutual

/-- A collapsed query whose sequences start without an operator is in normal form. -/
theorem Query.normalize_eq_self : (q : Query) → q.isCollapsed = true → q.StartsUnjoined →
    q.normalize = q
  | .single clause, collapsed, unjoined => by
    have body := clause.normalizeBody_eq_self collapsed unjoined.2
    rw [Query.normalize, body, clause.unjoined_of_operator unjoined.1]
  | .list [], _, _ => rfl
  | .list [_], collapsed, _ => by simp [Query.isCollapsed] at collapsed
  | .list (first :: second :: more), collapsed, unjoined => by
    rw [Query.isCollapsed, Bool.and_eq_true, Query.bodiesAreCollapsed,
      Bool.and_eq_true] at collapsed
    obtain ⟨-, hfirst, hmore⟩ := collapsed
    have body := first.normalizeBody_eq_self hfirst unjoined.2.1
    have bodies := Clause.normalizeBodies_eq_self (second :: more) hmore unjoined.2.2
    rw [Query.normalize, body, bodies, first.unjoined_of_operator unjoined.1]
    rfl

theorem Clause.normalizeBody_eq_self : (clause : Clause) → Query.bodyIsCollapsed clause = true →
    clause.BodyStartsUnjoined → clause.normalizeBody = clause
  | .atom _ _, _, _ => rfl
  | .group body m, collapsed, unjoined => by
    rw [Clause.normalizeBody, body.normalize_eq_self collapsed unjoined]

theorem Clause.normalizeBodies_eq_self : (clauses : List Clause) →
    Query.bodiesAreCollapsed clauses = true → Clause.BodiesStartUnjoined clauses →
    Clause.normalizeBodies clauses = clauses
  | [], _, _ => rfl
  | clause :: more, collapsed, unjoined => by
    rw [Query.bodiesAreCollapsed, Bool.and_eq_true] at collapsed
    rw [Clause.normalizeBodies, clause.normalizeBody_eq_self collapsed.1 unjoined.1,
      Clause.normalizeBodies_eq_self more collapsed.2 unjoined.2]

end

/-! ## Spellings of parts -/

lemma markerText_iff (marker : Marker) (w : List Char) :
    MarkerText marker w ↔ True ∧ w = marker.sign.toList := by
  constructor
  · rintro (_ | _)
    · exact ⟨trivial, rfl⟩
    · exact ⟨trivial, rfl⟩
  · rintro ⟨-, rfl⟩
    cases marker
    · exact .required
    · exact .prohibited

lemma keywordText_iff (operator : Operator) (w : List Char) :
    KeywordText operator w ↔ w = operator.keyword.toList := by
  constructor
  · rintro (_ | _ | _) <;> rfl
  · rintro rfl
    cases operator
    · exact .and
    · exact .or
    · exact .not

lemma similarityText_iff (similarity : Similarity) (w : List Char) :
    SimilarityText similarity w ↔ similarity.IsWritable ∧ w = similarity.suffix.toList := by
  constructor
  · rintro (_ | h)
    · exact ⟨trivial, rfl⟩
    · exact ⟨h, by simp [Similarity.suffix]⟩
  · rintro ⟨h, rfl⟩
    cases similarity with
    | default => exact .default
    | value number => simpa [Similarity.suffix] using SimilarityText.value h

lemma distanceText_iff (number : String) (w : List Char) :
    DistanceText number w ↔ IsDigits number.toList ∧ w = ("~" ++ number).toList := by
  simp [DistanceText]

lemma boostText_iff (number : String) (w : List Char) :
    BoostText number w ↔ IsNumber number.toList ∧ w = ("^" ++ number).toList := by
  simp [BoostText]

lemma fieldText_iff (name : String) (w : List Char) :
    FieldText name w ↔ IsFieldName name.toList ∧ w = (name ++ ":").toList := by
  simp [FieldText]

/-- A part that may be left out has one text, if each thing it may be has one. -/
lemma partText_iff {α : Type} {text : α → List Char → Prop} {fit : α → Prop} {spell : α → String}
    (h : ∀ a w, text a w ↔ fit a ∧ w = (spell a).toList) {part : Option α} {w : List Char} :
    PartText text part w ↔ (∀ a ∈ part, fit a) ∧ w = (optionalText part spell).toList := by
  constructor
  · rintro (_ | ha)
    · exact ⟨nofun, rfl⟩
    · obtain ⟨fits, rfl⟩ := (h _ _).1 ha
      refine ⟨?_, rfl⟩
      rintro a ⟨⟩
      exact fits
  · rintro ⟨fits, rfl⟩
    cases part with
    | none => exact .absent
    | some a => exact .present ((h _ _).2 ⟨fits a rfl, rfl⟩)

/-! ## The canonical text of a writable query -/

/-- The single blank that canonical texts are written with. -/
lemma isBlanks_blank : IsBlanks [' '] := by
  refine ⟨by simp, ?_⟩
  intro d hd
  rw [List.mem_singleton.1 hd]
  decide

lemma atomText_render {field : Option String} {a : Atom} (h : a.IsWritable field) :
    AtomText field a a.render.toList := by
  cases a with
  | term text similarity =>
    obtain ⟨word, suffix⟩ := h
    rw [Atom.render, String.toList_append]
    exact .term word ((partText_iff similarityText_iff).2 ⟨suffix, rfl⟩)
  | phrase text distance =>
    obtain ⟨quoted, suffix⟩ := h
    have distance := (partText_iff distanceText_iff).2 ⟨suffix, rfl⟩
    have spelled : AtomText field _ _ := .phrase quoted distance
    simpa [Atom.render] using spelled
  | range low high inclusive =>
    obtain ⟨hasField, lowBound, highBound⟩ := h
    have spelled : ∀ {opening closing : Char}, Brackets inclusive opening closing →
        AtomText field (.range low high inclusive)
          (opening :: [] ++ low.toList ++ [' '] ++ ['T', 'O'] ++ [' '] ++ high.toList ++ [] ++
            [closing]) := fun brackets =>
      .range hasField brackets isGap_nil lowBound isBlanks_blank isBlanks_blank highBound isGap_nil
    cases inclusive
    · simpa [Atom.render, rangeText, rangeBrackets] using spelled .exclusive
    · simpa [Atom.render, rangeText, rangeBrackets] using spelled .inclusive

lemma jointText_joint (m : Modifiers) : JointText m.operator m.joint.toList := by
  cases hm : m.operator with
  | none =>
    have spelled : JointText none [' '] := .blank isBlanks_blank
    simpa [Modifiers.joint, hm, optionalText] using spelled
  | some operator =>
    have spelled : JointText (some operator) ([' '] ++ operator.keyword.toList ++ [' ']) :=
      .keyword isBlanks_blank ((keywordText_iff _ _).2 rfl) isBlanks_blank
    simpa [Modifiers.joint, hm, optionalText] using spelled

lemma ClauseText.unjoined {clause : Clause} {w : List Char} (h : ClauseText clause w) :
    ClauseText clause.unjoined w := by
  cases h with
  | atom marker field text boost => exact .atom marker field text boost
  | group marker field before text after boost =>
    exact .group marker field before text after boost

/-- What stands around the value of a clause with writable modifiers. -/
lemma Modifiers.IsWritable.texts {m : Modifiers} (h : m.IsWritable) :
    PartText MarkerText m.marker (optionalText m.marker Marker.sign).toList ∧
      PartText FieldText m.field (optionalText m.field (· ++ ":")).toList ∧
        PartText BoostText m.boost m.trail.toList := by
  refine ⟨?_, ?_, ?_⟩
  · exact (partText_iff markerText_iff).2 ⟨fun _ _ => trivial, rfl⟩
  · exact (partText_iff fieldText_iff).2 ⟨h.1, rfl⟩
  · exact (partText_iff boostText_iff).2 ⟨h.2, rfl⟩

mutual

/-- **The canonical text of a writable query spells its normal form.** -/
theorem sequenceText_render : (q : Query) → q.IsWritable →
    SequenceText q.normalize q.render.toList
  | .single clause, h => by
    have text := SequenceText.collapse clause.normalizeBody.operator_unjoined
      (clauseText_render clause h).unjoined .nil
    simpa [Query.normalize, Query.render, Query.collapse] using text
  | .list [], h => h.elim
  | .list (first :: more), h => by
    have text := SequenceText.collapse first.normalizeBody.operator_unjoined
      (clauseText_render first h.1).unjoined (moreText_render more h.2)
    simpa [Query.normalize, Query.render] using text

theorem clauseText_render : (clause : Clause) → clause.IsWritable →
    ClauseText clause.normalizeBody clause.render.toList
  | .atom value m, h => by
    obtain ⟨marker, field, boost⟩ := h.1.texts
    have text := ClauseText.atom marker field (atomText_render h.2) boost
    simpa [Clause.normalizeBody, Clause.render, Modifiers.lead] using text
  | .group body m, h => by
    obtain ⟨marker, field, boost⟩ := h.1.texts
    have text := ClauseText.group marker field isGap_nil (sequenceText_render body h.2) isGap_nil
      boost
    simpa [Clause.normalizeBody, Clause.render, Modifiers.lead] using text

theorem moreText_render : (more : List Clause) → Clause.AreWritable more →
    MoreText (Clause.normalizeBodies more) (Clause.renderJoined more).toList
  | [], _ => .nil
  | next :: more, h => by
    have joint := jointText_joint next.modifiers
    rw [← next.modifiers_normalizeBody] at joint
    have text := MoreText.cons joint (clauseText_render next h.1) (moreText_render more h.2)
    simpa [Clause.normalizeBodies, Clause.renderJoined] using text

end

/-! ## Queries that some text spells -/

lemma AtomText.isWritable {field : Option String} {a : Atom} {w : List Char}
    (h : AtomText field a w) : a.IsWritable field := by
  cases h with
  | term word suffix => exact ⟨word, ((partText_iff similarityText_iff).1 suffix).1⟩
  | phrase quoted suffix => exact ⟨quoted, ((partText_iff distanceText_iff).1 suffix).1⟩
  | range hasField _ _ lowBound _ _ highBound _ => exact ⟨hasField, lowBound, highBound⟩

lemma Modifiers.isWritable_of_texts {m : Modifiers} {v w : List Char}
    (field : PartText FieldText m.field v) (boost : PartText BoostText m.boost w) :
    m.IsWritable :=
  ⟨((partText_iff fieldText_iff).1 field).1, ((partText_iff boostText_iff).1 boost).1⟩

mutual

theorem SequenceText.isWritable {q : Query} {w : List Char} : SequenceText q w → q.IsWritable
  | .collapse _ text joined => by
    rw [isWritable_collapse]
    exact ⟨text.isWritable, joined.areWritable⟩

theorem ClauseText.isWritable {clause : Clause} {w : List Char} :
    ClauseText clause w → clause.IsWritable
  | .atom _ field text boost => ⟨Modifiers.isWritable_of_texts field boost, text.isWritable⟩
  | .group _ field _ text _ boost => ⟨Modifiers.isWritable_of_texts field boost, text.isWritable⟩

theorem MoreText.areWritable {more : List Clause} {w : List Char} :
    MoreText more w → Clause.AreWritable more
  | .nil => trivial
  | .cons _ text joined => ⟨text.isWritable, joined.areWritable⟩

end

mutual

theorem SequenceText.isCollapsed {q : Query} {w : List Char} :
    SequenceText q w → q.isCollapsed = true
  | .collapse _ text joined => by
    refine Query.isCollapsed_collapse (Query.bodiesAreCollapsed_iff.1 ?_)
    rw [Query.bodiesAreCollapsed, Bool.and_eq_true]
    exact ⟨text.bodyIsCollapsed, joined.bodiesAreCollapsed⟩

theorem ClauseText.bodyIsCollapsed {clause : Clause} {w : List Char} :
    ClauseText clause w → Query.bodyIsCollapsed clause = true
  | .atom _ _ _ _ => rfl
  | .group _ _ _ text _ _ => text.isCollapsed

theorem MoreText.bodiesAreCollapsed {more : List Clause} {w : List Char} :
    MoreText more w → Query.bodiesAreCollapsed more = true
  | .nil => rfl
  | .cons _ text joined => by
    rw [Query.bodiesAreCollapsed, Bool.and_eq_true]
    exact ⟨text.bodyIsCollapsed, joined.bodiesAreCollapsed⟩

end

mutual

theorem SequenceText.startsUnjoined {q : Query} {w : List Char} :
    SequenceText q w → q.StartsUnjoined
  | .collapse unjoined text joined => by
    rw [startsUnjoined_collapse]
    exact ⟨unjoined, text.bodyStartsUnjoined, joined.bodiesStartUnjoined⟩

theorem ClauseText.bodyStartsUnjoined {clause : Clause} {w : List Char} :
    ClauseText clause w → clause.BodyStartsUnjoined
  | .atom _ _ _ _ => trivial
  | .group _ _ _ text _ _ => text.startsUnjoined

theorem MoreText.bodiesStartUnjoined {more : List Clause} {w : List Char} :
    MoreText more w → Clause.BodiesStartUnjoined more
  | .nil => trivial
  | .cons _ text joined => ⟨text.bodyStartsUnjoined, joined.bodiesStartUnjoined⟩

end

/-- **A query that some text spells is spelled by its canonical text too.** -/
theorem SequenceText.canonical {q : Query} {w : List Char} (h : SequenceText q w) :
    SequenceText q q.render.toList := by
  have text := sequenceText_render q h.isWritable
  rwa [q.normalize_eq_self h.isCollapsed h.startsUnjoined] at text

/-! ## The canonical text is the shortest -/

lemma Modifiers.toList_lead {m : Modifiers} {u v : List Char}
    (marker : PartText MarkerText m.marker u) (field : PartText FieldText m.field v) :
    m.lead.toList = u ++ v := by
  rw [((partText_iff markerText_iff).1 marker).2, ((partText_iff fieldText_iff).1 field).2,
    Modifiers.lead, String.toList_append]

lemma Modifiers.toList_trail {m : Modifiers} {w : List Char}
    (boost : PartText BoostText m.boost w) : m.trail.toList = w :=
  ((partText_iff boostText_iff).1 boost).2.symm

lemma byteSize_render_le {field : Option String} {a : Atom} {w : List Char}
    (h : AtomText field a w) : Text.byteSize a.render.toList ≤ Text.byteSize w := by
  cases h with
  | term word suffix =>
    rw [Atom.render, String.toList_append, ((partText_iff similarityText_iff).1 suffix).2]
  | phrase quoted suffix =>
    rw [((partText_iff distanceText_iff).1 suffix).2]
    simp [Atom.render]
  | @range low high inclusive opening closing u v w x _ brackets _ _ blanksLow blanksHigh _ _ =>
    have hv := Text.byteSize_pos blanksLow.ne_nil
    have hw := Text.byteSize_pos blanksHigh.ne_nil
    have blank : ' '.utf8Size = 1 := by decide
    cases brackets <;>
      simp [Atom.render, rangeText, rangeBrackets, Text.byteSize_append, Text.byteSize_cons,
        blank] <;>
      omega

lemma byteSize_joint_le {m : Modifiers} {w : List Char} (h : JointText m.operator w) :
    Text.byteSize m.joint.toList ≤ Text.byteSize w := by
  have blank : ' '.utf8Size = 1 := by decide
  unfold Modifiers.joint
  generalize m.operator = part at h
  cases h with
  | blank blanks =>
    have hw := Text.byteSize_pos blanks.ne_nil
    simp only [optionalText, String.append_empty]
    exact hw
  | keyword before keyword after =>
    have hu := Text.byteSize_pos before.ne_nil
    have hw := Text.byteSize_pos after.ne_nil
    rw [(keywordText_iff _ _).1 keyword]
    simp [optionalText, Text.byteSize_append, Text.byteSize_cons, blank]
    omega

end SearchQuery
