import SearchQuery.Proofs.Completeness
import SearchQuery.Proofs.Simulation
import SearchQuery.Proofs.Soundness

/-!
# Which texts are accepted

Reading tokens agrees with reading on demand, what is read on demand is derived, and what is derived
is read on demand.  Put together, these say of `Limits.parse` which texts it accepts and as which
queries, and what the limits have to do with it: an accepted query is derived, and the limits allow
for the groups and the lookaheads it asks for; and a derived query is accepted when they do.

Reading has one outcome, so a text derives one query at most (`Derives.unique`), although the
grammar does not say where a word ends or a sequence stops.
-/

namespace SearchQuery

variable {limits : Limits} {text : String} {q : Query}

/-- **What is accepted is derived**, and the limits allow for it. -/
theorem derives_of_accepted (h : limits.parse text = .accepted q) :
    Text.byteSize text.toList ≤ maxOffset ∧ Derives text.toList q ∧
      (limits.setting text).Fits q.depth ∧ (OnDemand.start limits).Has (q.lookaheads + 3) := by
  obtain ⟨hsize, t, hread, hreached⟩ := parse_eq_accepted_iff.1 h
  have paid := query_sound (limits.setting text) (limits.stepsOf text) 0 (OnDemand.start limits) rfl
  rw [hread] at paid
  obtain ⟨k, ⟨-, hleft⟩, derives, fits, hcost⟩ :=
    paid.2 0 ⟨hreached, fun left _ => Nat.zero_le left⟩
  rw [Setting.rest_zero] at derives
  refine ⟨hsize, derives, fits, rfl, ?_⟩
  intro left hl
  have := hleft left hl
  omega

/-- A sequence with blanks around it is accepted, if the limits allow for it. -/
lemma accepted_of_text {u v w : List Char} {j : Nat} (before : IsGap u)
    (sequence : SequenceText q v) (after : IsGap w) (took : SequenceTakes q v j)
    (htext : text.toList = u ++ v ++ w) (hsize : Text.byteSize text.toList ≤ maxOffset)
    (fits : (limits.setting text).Fits q.depth)
    (left : (OnDemand.start limits).Has (q.lookaheads + 3 + 4 * j + if w = [] then 0 else 4)) :
    limits.parse text = .accepted q := by
  have hsteps : Text.byteSize v < limits.stepsOf text := by
    unfold Limits.stepsOf Limits.steps
    rw [htext, Text.byteSize_append, Text.byteSize_append]
    omega
  have hrest : (limits.setting text).rest 0 = u ++ v ++ w := by
    rw [Setting.rest_zero]
    exact htext
  obtain ⟨t, hread, -, hreached, -⟩ := query_takes before sequence after took fits hsteps hrest
    (OnDemand.start limits) 0 rfl (by rwa [Nat.zero_add])
  exact parse_eq_accepted_iff.2 ⟨hsize, t, hread, hreached⟩

/-- What is derived is read, where there are no limits. -/
lemma Derives.taken {text : List Char} (h : Derives text q) :
    ∃ s, OnDemand.query (Text.byteSize text + 1) 0 { source := text } { tokens := #[] } =
      .took q s := by
  obtain ⟨u, v, w, before, sequence, after, rfl⟩ := h
  obtain ⟨j, -, took⟩ := sequence.takes
  have hsteps : Text.byteSize v < Text.byteSize (u ++ v ++ w) + 1 := by
    rw [Text.byteSize_append, Text.byteSize_append]
    omega
  have fits : Setting.Fits { source := u ++ v ++ w } q.depth := nofun
  obtain ⟨s, hread, -⟩ := query_takes before sequence after took fits hsteps Setting.rest_zero
    { tokens := #[] } 0 rfl ⟨rfl, nofun⟩
  exact ⟨s, hread⟩

/-- **The grammar is unambiguous**: a text spells one query at most. -/
theorem Derives.unique {text : List Char} {q' : Query} (h : Derives text q) (h' : Derives text q') :
    q = q' := by
  obtain ⟨s, hs⟩ := h.taken
  obtain ⟨s', hs'⟩ := h'.taken
  rw [hs] at hs'
  exact (Reply.took.inj hs').1

/-- What is derived is accepted, where lookaheads are not limited and groups do not nest too
deep. -/
lemma Derives.accepted_of_fits {nesting : Option Nat} (h : Derives text.toList q)
    (hsize : Text.byteSize text.toList ≤ maxOffset) (fits : ∀ limit ∈ nesting, q.depth ≤ limit) :
    Limits.parse ⟨none, nesting⟩ text = .accepted q := by
  obtain ⟨u, v, w, before, sequence, after, htext⟩ := h
  obtain ⟨j, -, took⟩ := sequence.takes
  exact accepted_of_text before sequence after took htext hsize fits ⟨rfl, nofun⟩

lemma Derives.accepted (h : Derives text.toList q)
    (hsize : Text.byteSize text.toList ≤ maxOffset) :
    Limits.unlimited.parse text = .accepted q :=
  h.accepted_of_fits hsize nofun

/-- **Without limits, the texts accepted are those that are not too large and derived.** -/
theorem unlimited_parse_eq_accepted_iff (text : String) (q : Query) :
    Limits.unlimited.parse text = .accepted q ↔
      Text.byteSize text.toList ≤ maxOffset ∧ Derives text.toList q := by
  constructor
  · intro h
    obtain ⟨hsize, derives, -⟩ := derives_of_accepted h
    exact ⟨hsize, derives⟩
  · rintro ⟨hsize, derives⟩
    exact derives.accepted hsize

end SearchQuery
