import SearchQuery.Proofs.Locations
import Mathlib.Data.List.Induction

/-!
# The furthest of many dead ends

Dead ends are recorded in the order in which rules give up, which is no order of places: a rule that
gives up early may be tried after one that got far.  `Furthest.ofList` is what records come to, one
after the other.  A record past all others starts over, one at the furthest place so far adds to
what was looked for there, and any other changes nothing.

What is kept is told without the order in which it came about.  `DeadEnd.IsFurthest` says of a
record that no other is further and that none before it is as far; its index and its place are kept.
And of what was looked for, all is kept that was looked for at that place and nothing else.  Both
the place and the set depend only on which records there are (`Furthest.ofList_eq_of_perm`); the
index is that of whoever came first.
-/

namespace SearchQuery

/-- A dead end as it is recorded: the index of a token, the place of the token, and what was looked
for there. -/
structure DeadEnd where
  pos : Nat
  offset : Nat
  expected : KindSet

namespace DeadEnd

variable {d e : DeadEnd} {deadEnds : List DeadEnd}

/-- The first of the dead ends at the largest offset. -/
def IsFurthest (d : DeadEnd) (deadEnds : List DeadEnd) : Prop :=
  ∃ earlier later, deadEnds = earlier ++ d :: later ∧ (∀ e ∈ earlier, e.offset < d.offset) ∧
    ∀ e ∈ later, e.offset ≤ d.offset

lemma IsFurthest.mem (h : d.IsFurthest deadEnds) : d ∈ deadEnds := by
  obtain ⟨earlier, later, rfl, -, -⟩ := h
  exact List.mem_append_right _ List.mem_cons_self

lemma IsFurthest.offset_le (h : d.IsFurthest deadEnds) (he : e ∈ deadEnds) :
    e.offset ≤ d.offset := by
  obtain ⟨earlier, later, rfl, before, after⟩ := h
  rcases List.mem_append.1 he with he | he
  · exact le_of_lt (before e he)
  · rcases List.mem_cons.1 he with rfl | he
    · exact le_rfl
    · exact after e he

/-- A further record that is no further leaves the furthest one as it was. -/
lemma IsFurthest.append_of_le (h : d.IsFurthest deadEnds) (he : e.offset ≤ d.offset) :
    d.IsFurthest (deadEnds ++ [e]) := by
  obtain ⟨earlier, later, rfl, before, after⟩ := h
  refine ⟨earlier, later ++ [e], by rw [List.append_assoc, List.cons_append], before, ?_⟩
  intro e' he'
  rcases List.mem_append.1 he' with he' | he'
  · exact after e' he'
  · rwa [List.mem_singleton.1 he']

/-- A record past all others is the furthest one. -/
lemma IsFurthest.append_of_lt (h : d.IsFurthest deadEnds) (he : d.offset < e.offset) :
    e.IsFurthest (deadEnds ++ [e]) :=
  ⟨deadEnds, [], rfl, fun _ he' => lt_of_le_of_lt (h.offset_le he') he, nofun⟩

end DeadEnd

namespace Furthest

/-- What recording dead ends one after the other comes to. -/
def ofList (deadEnds : List DeadEnd) : Furthest :=
  deadEnds.foldl (fun f d => f.record d.pos d.offset d.expected) {}

lemma ofList_append_singleton (deadEnds : List DeadEnd) (d : DeadEnd) :
    ofList (deadEnds ++ [d]) = (ofList deadEnds).record d.pos d.offset d.expected := by
  simp [ofList]

/-- What is kept of some dead ends: the index and the place of `d`, which is the furthest one, and
what was looked for at its place. -/
structure Keeps (f : Furthest) (deadEnds : List DeadEnd) (d : DeadEnd) : Prop where
  furthest : d.IsFurthest deadEnds
  place : f.place = some (d.pos, d.offset)
  expected : ∀ k, k ∈ f.expected ↔ ∃ e ∈ deadEnds, e.offset = d.offset ∧ k ∈ e.expected

section

variable {f : Furthest} {d : DeadEnd} {deadEnds deadEnds' : List DeadEnd}

/-- One more record, compared with the furthest one so far. -/
lemma Keeps.record (h : f.Keeps deadEnds d) (e : DeadEnd) :
    ∃ d', (f.record e.pos e.offset e.expected).Keeps (deadEnds ++ [e]) d' := by
  have sought (o : Nat) (k : Kind) :
      (∃ e' ∈ deadEnds ++ [e], e'.offset = o ∧ k ∈ e'.expected) ↔
        (∃ e' ∈ deadEnds, e'.offset = o ∧ k ∈ e'.expected) ∨ e.offset = o ∧ k ∈ e.expected := by
    simp only [List.mem_append, List.mem_singleton, or_and_right, exists_or, exists_eq_left]
  unfold Furthest.record
  rw [h.place]
  dsimp only
  split_ifs with hlt heq
  · refine ⟨d, h.furthest.append_of_le (le_of_lt hlt), h.place, ?_⟩
    intro k
    rw [sought, h.expected]
    exact (or_iff_left fun he => absurd he.1 (Nat.ne_of_lt hlt)).symm
  · refine ⟨d, h.furthest.append_of_le (le_of_eq heq), rfl, ?_⟩
    intro k
    rw [sought, KindSet.mem_union, h.expected]
    exact or_congr_right (and_iff_right heq).symm
  · have further : d.offset < e.offset := by omega
    refine ⟨e, h.furthest.append_of_lt further, rfl, ?_⟩
    intro k
    rw [sought, and_iff_right rfl]
    refine (or_iff_right ?_).symm
    rintro ⟨e', he', hoffset, -⟩
    have := h.furthest.offset_le he'
    omega

/-- **Of any dead ends the furthest is kept**, along with what was looked for at its place. -/
lemma exists_keeps_ofList (h : deadEnds ≠ []) : ∃ d, (ofList deadEnds).Keeps deadEnds d := by
  induction deadEnds using List.reverseRecOn with
  | nil => exact absurd rfl h
  | append_singleton deadEnds e ih =>
    rw [ofList_append_singleton]
    by_cases hnil : deadEnds = []
    · subst hnil
      refine ⟨e, ⟨[], [], rfl, nofun, nofun⟩, rfl, ?_⟩
      intro k
      rw [List.nil_append]
      simp only [List.mem_singleton, exists_eq_left, true_and]
      rfl
    · obtain ⟨d, keeps⟩ := ih hnil
      exact keeps.record e

/-- The furthest place and what was looked for there do not depend on the order of the records. -/
lemma ofList_eq_of_perm (h : deadEnds.Perm deadEnds') :
    (ofList deadEnds').place.map Prod.snd = (ofList deadEnds).place.map Prod.snd ∧
      (ofList deadEnds').expected = (ofList deadEnds).expected := by
  by_cases hnil : deadEnds = []
  · subst hnil
    rw [List.nil_perm.1 h]
    exact ⟨rfl, rfl⟩
  · have hnil' : deadEnds' ≠ [] := fun heq => hnil (List.perm_nil.1 (heq ▸ h))
    obtain ⟨d, keeps⟩ := exists_keeps_ofList hnil
    obtain ⟨d', keeps'⟩ := exists_keeps_ofList hnil'
    have same : d'.offset = d.offset :=
      le_antisymm (keeps.furthest.offset_le (h.mem_iff.2 keeps'.furthest.mem))
        (keeps'.furthest.offset_le (h.mem_iff.1 keeps.furthest.mem))
    refine ⟨?_, ?_⟩
    · rw [keeps.place, keeps'.place, Option.map_some, Option.map_some, same]
    · apply KindSet.ext_mem
      intro k
      rw [keeps.expected, keeps'.expected, same]
      exact exists_congr fun e => and_congr_left' h.mem_iff.symm

/-! ## The report -/

lemma expected_of_report? {source : List Char} {tokens : Array Token} {e : Unexpected}
    (h : f.report? source tokens = some e) : e.expected = f.expected := by
  unfold report? at h
  dsimp only at h
  split at h
  · obtain ⟨found, -, rfl⟩ := Option.map_eq_some_iff.1 h
    rfl
  · obtain rfl := Option.some.inj h
    rfl

/-- There is a report whenever the tokens are pieces of the source. -/
lemma isSome_report? {source : List Char} {tokens : Array Token}
    (pieces : ∀ token ∈ tokens, (token.span.slice? source).isSome) :
    (f.report? source tokens).isSome := by
  unfold report?
  dsimp only
  split
  · rename_i token hget
    have piece := pieces token (Array.mem_of_getElem? hget)
    rw [Option.isSome_map]
    unfold Token.shown?
    split
    · rfl
    · rwa [Option.isSome_map]
  · rfl

end

/-- **Recording keeps the furthest dead end and merges what was looked for there.**  The largest
offset is kept with the index of the first record at it, and the set is the union over all records
at it and over no others; the offset and the set are the same in whatever order the records come.
The report lists the descriptions of the kinds in the set, each once, in the order of kinds. -/
theorem ofList_keeps_furthest (deadEnds : List DeadEnd) :
    (deadEnds = [] → ofList deadEnds = {}) ∧
      (deadEnds ≠ [] → ∃ d : DeadEnd, d.IsFurthest deadEnds ∧
        (ofList deadEnds).place = some (d.pos, d.offset) ∧
        ∀ k, k ∈ (ofList deadEnds).expected ↔
          ∃ e ∈ deadEnds, e.offset = d.offset ∧ k ∈ e.expected) ∧
      (∀ deadEnds', deadEnds.Perm deadEnds' →
        (ofList deadEnds').place.map Prod.snd = (ofList deadEnds).place.map Prod.snd ∧
          (ofList deadEnds').expected = (ofList deadEnds).expected) ∧
      (∀ source (tokens : Array Token),
        (∀ token ∈ tokens, (token.span.slice? source).isSome) →
          ((ofList deadEnds).report? source tokens).isSome) ∧
      ∀ source tokens e, (ofList deadEnds).report? source tokens = some e →
        e.expected.descriptions.Nodup ∧
          ∃ kinds : List Kind, e.expected.descriptions = kinds.map Kind.description ∧
            kinds.Pairwise (·.index < ·.index) ∧
            ∀ k, k ∈ kinds ↔ k ∈ (ofList deadEnds).expected := by
  refine ⟨?_, ?_, fun _ h => ofList_eq_of_perm h, fun _ _ h => isSome_report? h, ?_⟩
  · rintro rfl
    rfl
  · intro h
    obtain ⟨d, keeps⟩ := exists_keeps_ofList h
    exact ⟨d, keeps.furthest, keeps.place, keeps.expected⟩
  · intro source tokens e h
    rw [expected_of_report? h]
    obtain ⟨nodup, ordered⟩ := KindSet.descriptions_ordered (ofList deadEnds).expected
    exact ⟨nodup, _, rfl, ordered, fun _ => KindSet.mem_toList⟩

/-- Two records at the largest offset, with smaller ones in front, between and behind: the index is
that of the first of the two, and what both looked for is listed in the order of kinds. -/
theorem ofList_keeps_furthest_between_smaller :
    let source := "a b".toList
    let tokens := (Token.lex source).toArray
    let deadEnds : List DeadEnd :=
      [⟨0, 0, .only .colon⟩, ⟨1, 1, .ofList [.endOfInput, .blank]⟩, ⟨0, 0, .only .plus⟩,
        ⟨2, 1, .only .boost⟩, ⟨7, 0, .only .word⟩]
    (∃ d : DeadEnd, d.IsFurthest deadEnds ∧ (ofList deadEnds).place = some (d.pos, d.offset) ∧
        ∀ k, k ∈ (ofList deadEnds).expected ↔
          ∃ e ∈ deadEnds, e.offset = d.offset ∧ k ∈ e.expected) ∧
      (ofList deadEnds).place = some (1, 1) ∧
      (ofList deadEnds.reverse).expected = (ofList deadEnds).expected ∧
      ∃ e, (ofList deadEnds).report? source tokens = some e ∧
        e.expected.descriptions = ["`^` followed by a number", "whitespace", "end of input"] ∧
        e.expected.descriptions.Nodup := by
  intro source tokens deadEnds
  obtain ⟨-, keeps, permuted, reported, listed⟩ := ofList_keeps_furthest deadEnds
  have pieces : ∀ token ∈ tokens, (token.span.slice? source).isSome := by decide
  obtain ⟨e, he⟩ := Option.isSome_iff_exists.1 (reported source tokens pieces)
  have expected : e.expected = .ofList [.boost, .blank, .endOfInput] :=
    (expected_of_report? he).trans (by decide)
  refine ⟨keeps (by simp [deadEnds]), by decide,
    (permuted _ (List.reverse_perm deadEnds).symm).2, e, he, ?_, (listed _ _ _ he).1⟩
  rw [expected]
  decide

end Furthest

end SearchQuery
