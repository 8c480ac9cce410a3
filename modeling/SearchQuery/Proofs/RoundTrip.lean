import SearchQuery.Proofs.Acceptance

/-!
# Reading what was written

The canonical text of a query reads as the query again.  For a query that was accepted this holds
within the very limits it was accepted in: its canonical text is the shortest of its texts and takes
the fewest lookaheads of them, and nesting is the same for all.  For a query built by hand it holds
up to normal form.
-/

namespace SearchQuery

lemma Clause.depth_unjoined (clause : Clause) : clause.unjoined.depth = clause.depth := by
  cases clause <;> rfl

mutual

/-- Bringing a query into normal form leaves the groups in it. -/
lemma Query.depth_normalize : (q : Query) → q.normalize.depth = q.depth
  | .single clause => by
    rw [Query.normalize, Query.depth, Query.depth, Clause.depth_unjoined,
      Clause.depth_normalizeBody clause]
  | .list [] => rfl
  | .list (first :: more) => by
    rw [Query.normalize, depth_collapse, Clause.depth_unjoined, Clause.depth_normalizeBody first,
      Clause.depths_normalizeBodies more]
    rfl

lemma Clause.depth_normalizeBody : (clause : Clause) → clause.normalizeBody.depth = clause.depth
  | .atom _ _ => rfl
  | .group body _ => by rw [Clause.normalizeBody, Clause.depth, Clause.depth, body.depth_normalize]

lemma Clause.depths_normalizeBodies : (clauses : List Clause) →
    Clause.depths (Clause.normalizeBodies clauses) = Clause.depths clauses
  | [] => rfl
  | clause :: more => by
    rw [Clause.normalizeBodies, Clause.depths, Clause.depths, clause.depth_normalizeBody,
      Clause.depths_normalizeBodies more]

end

/-- A query is accepted from its canonical text, if the limits allow for no more than the query asks
for: the canonical text does not exceed itself. -/
lemma accepted_render {limits : Limits} {q : Query} (sequence : SequenceText q q.render.toList)
    (hsize : Text.byteSize q.render.toList ≤ maxOffset)
    (fits : (limits.setting q.render).Fits q.depth)
    (left : (OnDemand.start limits).Has (q.lookaheads + 3)) :
    limits.parse q.render = .accepted q := by
  obtain ⟨j, exceeds, took⟩ := sequence.takes
  have hj : j = 0 := by
    unfold Exceeds at exceeds
    omega
  refine accepted_of_text (u := []) (w := []) isGap_nil sequence isGap_nil took (by simp) hsize
    fits ?_
  simpa [hj] using left

/-- **An accepted query is read back from its canonical text, within the same limits.**  The
canonical text has no more bytes than the text that the query was read from. -/
theorem parse_render_of_accepted {limits : Limits} {text : String} {q : Query}
    (h : limits.parse text = .accepted q) :
    limits.parse q.render = .accepted q ∧
      Text.byteSize q.render.toList ≤ Text.byteSize text.toList := by
  obtain ⟨hsize, ⟨u, v, w, -, sequence, -, htext⟩, fits, left⟩ := derives_of_accepted h
  obtain ⟨j, exceeds, -⟩ := sequence.takes
  have hle : Text.byteSize q.render.toList ≤ Text.byteSize text.toList := by
    unfold Exceeds at exceeds
    rw [htext, Text.byteSize_append, Text.byteSize_append]
    omega
  exact ⟨accepted_render sequence.canonical (le_trans hle hsize) fits left, hle⟩

/-- A bound may be a quote, or the word between the bounds, and lookaheads may be few. -/
theorem parse_render_quote_as_bound :
    let q : Query := .list [.atom (.range "\"" "TO" true) { field := some "a" },
      .group (.single (.atom (.term "b" (some .default)) {}))
        { boost := some "2", operator := some .or }]
    let limits : Limits := ⟨some 42, some 1⟩
    limits.parse "a:[ \"  TO TO ] OR  (b~ )^2 " = .accepted q ∧
      limits.parse q.render = .accepted q ∧
        Text.byteSize q.render.toList ≤ Text.byteSize "a:[ \"  TO TO ] OR  (b~ )^2 ".toList := by
  intro q limits
  have h : limits.parse "a:[ \"  TO TO ] OR  (b~ )^2 " = .accepted q := by decide +kernel
  exact ⟨h, parse_render_of_accepted h⟩

/-- **A writable query is read back from its canonical text in normal form**, if groups may nest as
deep as they do in it. -/
theorem parse_render_of_isWritable {q : Query} {nesting : Option Nat} (writable : q.IsWritable)
    (hsize : Text.byteSize q.render.toList ≤ maxOffset)
    (deep : ∀ limit ∈ nesting, q.depth ≤ limit) :
    Limits.parse ⟨none, nesting⟩ q.render = .accepted q.normalize := by
  have sequence := sequenceText_render q writable
  obtain ⟨j, -, took⟩ := sequence.takes
  refine accepted_of_text (u := []) (w := []) isGap_nil sequence isGap_nil took (by simp) hsize ?_
    ⟨rfl, ?_⟩
  · intro limit hlimit
    rw [q.depth_normalize]
    exact deep limit hlimit
  · rintro left ⟨⟩

/-- A clause alone in a list comes back bare, and first clauses come back without an operator. -/
theorem parse_render_list_of_one :
    let q : Query := .list
      [.atom (.range "\"" "TO" false) { field := some "a", operator := some .or },
        .group
          (.list [.atom (.phrase "x y" (some "3")) { boost := some "0.5", operator := some .and }])
          { marker := some .prohibited }]
    q.IsWritable ∧ Text.byteSize q.render.toList ≤ maxOffset ∧ (∀ limit ∈ some 1, q.depth ≤ limit) ∧
      Limits.parse ⟨none, some 1⟩ q.render = .accepted (.list
        [.atom (.range "\"" "TO" false) { field := some "a" },
          .group (.single (.atom (.phrase "x y" (some "3")) { boost := some "0.5" }))
            { marker := some .prohibited }]) := by
  intro q
  have field : ∀ x ∈ some "a", IsFieldName x.toList := by
    rintro _ ⟨⟩
    exact ⟨⟨isWord_of_all (by decide) (by decide), by decide, by decide, by decide⟩, by decide⟩
  have boost : ∀ x ∈ some "0.5", IsNumber x.toList := by
    rintro _ ⟨⟩
    exact Or.inr ⟨['0'], ['5'], isDigits_of_all (by decide) (by decide),
      isDigits_of_all (by decide) (by decide), rfl⟩
  have distance : ∀ x ∈ some "3", IsDigits x.toList := by
    rintro _ ⟨⟩
    exact isDigits_of_all (by decide) (by decide)
  have quoted : IsPhraseText "x y".toList := by
    unfold IsPhraseText
    decide
  have low : IsBound "\"".toList := isBound_of_all (by decide) (by decide)
  have high : IsBound "TO".toList := isBound_of_all (by decide) (by decide)
  have writable : q.IsWritable :=
    ⟨⟨⟨field, nofun⟩, nofun, low, high⟩,
      ⟨⟨nofun, nofun⟩, ⟨⟨nofun, boost⟩, quoted, distance⟩, trivial⟩, trivial⟩
  have size : Text.byteSize q.render.toList ≤ maxOffset := by decide +kernel
  have deep : ∀ limit ∈ some 1, q.depth ≤ limit := by decide
  exact ⟨writable, size, deep, parse_render_of_isWritable writable size deep⟩

end SearchQuery
