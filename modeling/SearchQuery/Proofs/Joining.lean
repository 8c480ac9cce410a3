import SearchQuery.Proofs.Acceptance

/-!
# Joining queries

Two texts of queries with something between them that joins clauses make a text of the query with
the clauses of both, and a text of a query in parentheses makes a group.  All of this is said of the
grammar, where it is a matter of putting derivations side by side: the blanks at the end of one text
and at the start of the other become part of what joins them.

Nothing has to be said about how the texts are cut into tokens.  A quote in a bound of the first
text makes a phrase with a quote of the second one when the two are cut together, but what is read
does not depend on that.
-/

namespace SearchQuery

/-! ## Clauses and what joins them -/

/-- The clause joined by a keyword, or by none. -/
def Clause.joinedBy (operator : Option Operator) : Clause → Clause :=
  Clause.modify fun m => { m with operator }

lemma Clause.operator_joinedBy (operator : Option Operator) (clause : Clause) :
    (clause.joinedBy operator).modifiers.operator = operator := by
  simp [Clause.joinedBy]

lemma Clause.joinedBy_none (clause : Clause) : clause.joinedBy none = clause.unjoined := rfl

/-- The text of a clause is the same however the clause is joined. -/
lemma ClauseText.joinedBy {clause : Clause} {w : List Char} (text : ClauseText clause w)
    (operator : Option Operator) : ClauseText (clause.joinedBy operator) w := by
  cases text with
  | atom marker field text boost => exact .atom marker field text boost
  | group marker field before text after boost => exact .group marker field before text after boost

lemma IsGap.append {v w : List Char} (hv : IsGap v) (hw : IsGap w) : IsGap (v ++ w) := by
  intro c hc
  rcases List.mem_append.1 hc with hc | hc
  · exact hv c hc
  · exact hw c hc

lemma IsBlanks.widen {u v w : List Char} (h : IsBlanks v) (before : IsGap u) (after : IsGap w) :
    IsBlanks (u ++ v ++ w) :=
  ⟨by simp [h.ne_nil], (before.append h.2).append after⟩

/-- What joins two clauses does so with more blanks around it. -/
lemma JointText.widen {operator : Option Operator} {u v w : List Char} (h : JointText operator v)
    (before : IsGap u) (after : IsGap w) : JointText operator (u ++ v ++ w) := by
  cases h with
  | blank blanks => exact .blank (blanks.widen before after)
  | @keyword operator x y z hx keyword hz =>
    have widened := JointText.keyword (hx.widen before isGap_nil) keyword (hz.widen isGap_nil after)
    simpa using widened

lemma MoreText.append {more more' : List Clause} {v w : List Char} (h : MoreText more v)
    (h' : MoreText more' w) : MoreText (more ++ more') (v ++ w) := by
  induction more generalizing v with
  | nil =>
    cases h
    exact h'
  | cons next more ih =>
    cases h with
    | cons joint text joined =>
      rw [List.append_assoc, List.append_assoc]
      have appended := MoreText.cons joint text (ih joined)
      rwa [List.append_assoc] at appended

/-! ## Texts side by side -/

section

variable {q₁ q₂ : Query} {s₁ s₂ joint : List Char}

/-- **Texts with a joint between them make a text of the clauses of both**, the first clause of the
second text being joined as the joint says. -/
theorem Derives.join {operator : Option Operator} (h₁ : Derives s₁ q₁) (h₂ : Derives s₂ q₂)
    (between : JointText operator joint) :
    ∃ q, Query.ofClauses? (q₁.clauses ++ q₂.clauses.modifyHead (·.joinedBy operator)) = some q ∧
      Derives (s₁ ++ joint ++ s₂) q := by
  obtain ⟨u₁, _, w₁, before₁, ⟨unjoined₁, text₁, joined₁⟩, after₁, rfl⟩ := h₁
  obtain ⟨u₂, _, w₂, before₂, @⟨first₂, _, _, _, unjoined₂, text₂, joined₂⟩, after₂, rfl⟩ := h₂
  have widened := between.widen after₁ before₂
  rw [← first₂.operator_joinedBy operator] at widened
  have second := MoreText.cons widened (text₂.joinedBy operator) joined₂
  have sequence := SequenceText.collapse unjoined₁ text₁ (joined₁.append second)
  refine ⟨_, ?_, u₁, _, w₂, before₁, sequence, after₂, ?_⟩
  · simp [Query.ofClauses?]
  · simp

/-- Joined by blanks alone, the clauses of a text stay as they are. -/
lemma Derives.clauses_unjoined (h : Derives s₁ q₁) :
    q₁.clauses.modifyHead (·.joinedBy none) = q₁.clauses := by
  obtain ⟨_, _, _, -, ⟨unjoined, -, -⟩, -⟩ := h
  simp [Clause.joinedBy_none, Clause.unjoined_of_operator _ unjoined]

/-- **A text in parentheses makes a group.** -/
theorem Derives.enclose (h : Derives s₁ q₁) :
    Derives ('(' :: s₁ ++ [')']) (.single (.ofQuery q₁)) := by
  obtain ⟨u, v, w, before, sequence, after, rfl⟩ := h
  have group : ClauseText (.ofQuery q₁) ([] ++ [] ++ ('(' :: u ++ v ++ w ++ [')']) ++ []) :=
    .group .absent .absent before sequence after .absent
  have single := SequenceText.collapse rfl group .nil
  refine ⟨[], _, [], isGap_nil, single, isGap_nil, ?_⟩
  simp

end

/-! ## Joining texts that are accepted -/

lemma keywordText_keyword (operator : Operator) : KeywordText operator operator.keyword.toList := by
  cases operator
  · exact .and
  · exact .or
  · exact .not

/-- **Reading is compositional**, where there are no limits.  Two accepted texts with a space
between them are accepted as the clauses of both; with a keyword in spaces between them, the first
clause of the second text is joined by the keyword; and an accepted text in parentheses is accepted
as a group. -/
theorem parse_join {s₁ s₂ : String} {q₁ q₂ : Query}
    (h₁ : Limits.unlimited.parse s₁ = .accepted q₁)
    (h₂ : Limits.unlimited.parse s₂ = .accepted q₂) :
    (Text.byteSize (s₁ ++ " " ++ s₂).toList ≤ maxOffset →
        ∃ q, Query.ofClauses? (q₁.clauses ++ q₂.clauses) = some q ∧
          Limits.unlimited.parse (s₁ ++ " " ++ s₂) = .accepted q) ∧
      (∀ k : Operator,
        Text.byteSize (s₁ ++ " " ++ k.keyword ++ " " ++ s₂).toList ≤ maxOffset →
          ∃ q, Query.ofClauses?
              (q₁.clauses ++ q₂.clauses.modifyHead (·.withOperator k)) = some q ∧
            Limits.unlimited.parse (s₁ ++ " " ++ k.keyword ++ " " ++ s₂) = .accepted q) ∧
      (Text.byteSize ("(" ++ s₁ ++ ")").toList ≤ maxOffset →
        Limits.unlimited.parse ("(" ++ s₁ ++ ")") = .accepted (.single (.ofQuery q₁))) := by
  obtain ⟨-, derives₁, -⟩ := derives_of_accepted h₁
  obtain ⟨-, derives₂, -⟩ := derives_of_accepted h₂
  refine ⟨?_, ?_, ?_⟩
  · intro hsize
    obtain ⟨q, hq, derives⟩ := derives₁.join derives₂ (.blank isBlanks_blank)
    rw [derives₂.clauses_unjoined] at hq
    exact ⟨q, hq, Derives.accepted (by simpa using derives) hsize⟩
  · intro k hsize
    have joint := JointText.keyword isBlanks_blank (keywordText_keyword k) isBlanks_blank
    obtain ⟨q, hq, derives⟩ := derives₁.join derives₂ joint
    exact ⟨q, hq, Derives.accepted (by simpa using derives) hsize⟩
  · intro hsize
    exact Derives.accepted (by simpa using derives₁.enclose) hsize

/-- The quote in the bound and the first quote of the phrase make one token when the texts are cut
together. -/
theorem parse_join_quote_in_bound :
    let range : Clause := .atom (.range "a\"" "b" true) { field := some "f" }
    let phrase : Clause := .phrase "c d"
    Limits.unlimited.parse "f:[a\" TO b]" = .accepted (.single range) ∧
      Limits.unlimited.parse " \"c d\"" = .accepted (.single phrase) ∧
      Limits.unlimited.parse "f:[a\" TO b]  \"c d\"" = .accepted (.list [range, phrase]) ∧
      Limits.unlimited.parse "f:[a\" TO b] NOT  \"c d\"" =
        .accepted (.list [range, phrase.withOperator .not]) ∧
      Limits.unlimited.parse "(f:[a\" TO b])" =
        .accepted (.single (.ofQuery (.single range))) := by
  intro range phrase
  have h₁ : Limits.unlimited.parse "f:[a\" TO b]" = .accepted (.single range) := by
    decide +kernel
  have h₂ : Limits.unlimited.parse " \"c d\"" = .accepted (.single phrase) := by decide +kernel
  obtain ⟨space, keyword, group⟩ := parse_join h₁ h₂
  obtain ⟨q, hq, accepted⟩ := space (by decide)
  obtain ⟨q', hq', accepted'⟩ := keyword .not (by decide)
  obtain rfl := Option.some.inj hq
  obtain rfl := Option.some.inj hq'
  exact ⟨h₁, h₂, accepted, accepted', group (by decide)⟩

end SearchQuery
