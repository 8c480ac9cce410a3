import SearchQuery.CommandLine.Run
import SearchQuery.Proofs.Lines
import SearchQuery.Proofs.Reference

/-!
# When a rejection can be shown

A rejection points at a span whose ends lie between characters, since all places that reading comes
to do.  But an empty span is widened by one byte before it is shown, and one byte is not always one
character.  `isSome_render?_iff` says exactly which rejections cannot be shown: those that point in
front of a character of several bytes without having looked at it, because no lookahead was left for
it or because the text is too large to be read at all.

The other rejections are safe for a reason each.  What stands in the way of a rule is either a whole
token or the end of the source, where nothing is left to widen into.  A limit on nesting is reached
at a parenthesis, which is one byte long.
-/

namespace SearchQuery

/-- Widening an empty span would cut a character. -/
def Span.SplitsCharacter (source : List Char) (span : Span) : Prop :=
  span.length = 0 ∧
    ∃ c back, Text.dropBytes? span.start source = some (c :: back) ∧ 1 < c.utf8Size

/-- Why a text was rejected without looking at what the rejection points at. -/
inductive Rejection.IsBlind : Rejection → Prop
  | lookaheads (offset : Nat) : IsBlind (.limit (.lookaheads offset))
  | tooLarge (size : Nat) : IsBlind (.tooLarge size)

/-! ## The span that is shown -/

lemma isBoundary_one_iff {c : Char} {back : List Char} :
    Text.IsBoundary (c :: back) 1 ↔ ¬1 < c.utf8Size := by
  have pos := c.utf8Size_pos
  unfold Text.IsBoundary
  rw [Text.dropBytes?]
  by_cases h : c.utf8Size ≤ 1
  · have : 0 + 1 - c.utf8Size = 0 := by omega
    rw [if_pos h, this]
    simp only [Text.dropBytes?_zero, Option.isSome_some, true_iff]
    omega
  · rw [if_neg h]
    simp only [Option.isSome_none, Bool.false_eq_true, false_iff]
    omega

section

variable {source : List Char} {span : Span}

/-- The span that is shown ends in the source and not before its start. -/
lemma shownStop_bounds (hstart : Text.IsBoundary source span.start)
    (hstop : Text.IsBoundary source span.stop) :
    span.start ≤ Excerpt.shownStop span (Text.byteSize source) ∧
      Excerpt.shownStop span (Text.byteSize source) ≤ Text.byteSize source := by
  have start := Setting.le_byteSize (c := ⟨source, none⟩) hstart
  have stop := Setting.le_byteSize (c := ⟨source, none⟩) hstop
  unfold Span.stop at stop
  dsimp only at start stop
  unfold Excerpt.shownStop Span.stop
  split_ifs <;> omega

/-- A span between characters is shown as one, unless widening it cuts a character. -/
lemma isBoundary_shownStop (hstart : Text.IsBoundary source span.start)
    (hstop : Text.IsBoundary source span.stop) :
    Text.IsBoundary source (Excerpt.shownStop span (Text.byteSize source)) ↔
      ¬span.SplitsCharacter source := by
  unfold Excerpt.shownStop Span.SplitsCharacter
  by_cases hlength : span.length = 0
  · rw [if_pos hlength]
    obtain ⟨rest, hrest⟩ := Option.isSome_iff_exists.1 hstart
    obtain ⟨front, rfl, hfront⟩ := Text.dropBytes?_eq_some_iff.1 hrest
    rw [hrest, ← hfront]
    cases rest with
    | nil =>
      have : min (Text.byteSize front + 1) (Text.byteSize (front ++ [])) =
          Text.byteSize (front ++ []) := by simp
      rw [this]
      exact iff_of_true (Text.isBoundary_byteSize _) (by simp)
    | cons c back =>
      have pos := c.utf8Size_pos
      have : min (Text.byteSize front + 1) (Text.byteSize (front ++ c :: back)) =
          Text.byteSize front + 1 := by
        rw [Text.byteSize_append, Text.byteSize_cons]
        omega
      rw [this, Text.isBoundary_append_add, isBoundary_one_iff]
      simp [hlength]
  · rw [if_neg hlength]
    exact iff_of_true hstop (by simp [hlength])

end

/-! ## What rejections point at -/

/-- The span of a diagnostic lies between characters, and only blind rejections can point in front
of a character of several bytes with an empty span. -/
structure Diagnostic.IsPlaced (source : List Char) (cause : Rejection) : Prop where
  start : Text.IsBoundary source (ofRejection cause).span.start
  stop : Text.IsBoundary source (ofRejection cause).span.stop
  splits : (ofRejection cause).span.SplitsCharacter source → cause.IsBlind

section

variable {c : Setting} {s : State}

lemma isBoundary_deadEnd (placed : s.Placed c) :
    Text.IsBoundary c.source (OnDemand.deadEnd c s.furthest) := by
  unfold OnDemand.deadEnd
  cases hf : s.furthest.place with
  | none => exact Text.isBoundary_byteSize _
  | some place => exact (placed.furthest place.1 place.2 hf).2

/-- What stands in the way is a token, or the end of the source. -/
lemma isPlaced_report (placed : s.Placed c) :
    Diagnostic.IsPlaced c.source (.unexpected (OnDemand.report c s.furthest)) := by
  have boundary := isBoundary_deadEnd placed
  refine ⟨boundary, ?_, ?_⟩
  · show Text.IsBoundary c.source (_ + Text.byteSize (c.textAt _))
    rcases c.reads_at (OnDemand.deadEnd c s.furthest) with ⟨hk, -, -⟩ | ⟨-, hrest, -⟩
    · have htext : c.textAt (OnDemand.deadEnd c s.furthest) = [] :=
        (Setting.kindAt_of_rest_eq_nil (Setting.rest_eq_nil_of_kindAt hk)).2.1
      rw [htext]
      exact boundary
    · exact Setting.isBoundary_add boundary hrest
  · rintro ⟨hlength, d, back, hdrop, -⟩
    have hlength : Text.byteSize (c.textAt (OnDemand.deadEnd c s.furthest)) = 0 := hlength
    have hrest : c.rest (OnDemand.deadEnd c s.furthest) = d :: back := by
      have hdrop : Text.dropBytes? (OnDemand.deadEnd c s.furthest) c.source = some (d :: back) :=
        hdrop
      rw [Setting.rest, hdrop, Option.getD_some]
    rcases c.reads_at (OnDemand.deadEnd c s.furthest) with ⟨-, hnil, -⟩ | ⟨form, -, -⟩
    · rw [hrest] at hnil
      cases hnil
    · have := Text.byteSize_pos form.ne_nil
      omega

lemma saturate_eq {o : Nat} (hb : Text.IsBoundary c.source o)
    (hsize : Text.byteSize c.source ≤ maxOffset) : saturate o = o := by
  have := Setting.le_byteSize hb
  unfold saturate
  omega

/-- A limit is reached at a place between characters, and one on nesting at a parenthesis. -/
lemma isPlaced_limit (placed : s.Placed c) {cause : LimitReached} (h : s.reached = some cause)
    (hsize : Text.byteSize c.source ≤ maxOffset) :
    Diagnostic.IsPlaced c.source (.limit cause) := by
  cases cause with
  | lookaheads o =>
    have boundary := placed.lookaheads o h
    have start : (Diagnostic.ofRejection (.limit (.lookaheads o))).span = .emptyAt o := by
      simp only [Diagnostic.ofRejection, saturate_eq boundary hsize]
    refine ⟨?_, ?_, fun _ => .lookaheads o⟩
    · rw [start]
      exact boundary
    · rw [start]
      exact boundary
  | nesting o limit =>
    obtain ⟨boundary, hk⟩ := placed.nesting o limit h
    have start : (Diagnostic.ofRejection (.limit (.nesting o limit))).span = .emptyAt o := by
      simp only [Diagnostic.ofRejection, saturate_eq boundary hsize]
    refine ⟨?_, ?_, ?_⟩
    · rw [start]
      exact boundary
    · rw [start]
      exact boundary
    · rw [start]
      rintro ⟨-, d, back, hdrop, hd⟩
      obtain ⟨form, hrest, -⟩ := Setting.reads_of_kindAt hk (by simp)
      have hdrop : Text.dropBytes? o c.source = some (d :: back) := hdrop
      rw [show c.textAt o = ['('] from form, Setting.rest, hdrop, Option.getD_some] at hrest
      obtain ⟨rfl, -⟩ := List.cons.inj hrest
      exact absurd hd (by decide)

end

/-- **A rejection points between characters.** -/
theorem isPlaced_of_rejected {limits : Limits} {text : String} {cause : Rejection}
    (h : limits.parse text = .rejected cause) : Diagnostic.IsPlaced text.toList cause := by
  by_cases hsize : Text.byteSize text.toList ≤ maxOffset
  · obtain ⟨s, -, placed, ⟨limit, hreached, rfl⟩ | ⟨-, rfl⟩⟩ := exists_state_of_rejected hsize h
    · exact isPlaced_limit placed hreached hsize
    · exact isPlaced_report placed
  · rw [parse_of_tooLarge (not_le.1 hsize)] at h
    obtain rfl := Outcome.rejected.inj h
    have origin := Text.isBoundary_zero text.toList
    exact ⟨origin, origin, fun _ => .tooLarge _⟩

/-! ## Showing rejections -/

lemma isSome_render?_eq (d : Diagnostic) (source : List Char) (path : Option String)
    (palette : Palette) :
    (d.render? source path palette).isSome = (Excerpt.ofSpan? source d.span d.label).isSome := by
  simp [Diagnostic.render?, Snippet.draw?]

/-- **Which rejections can be shown.**  The span that is shown starts between two characters and
ends in the source.  The report over the source, with or without a path, comes about exactly if the
span ends between two characters too.  It does not exactly when the rejection is blind and points in
front of a character of several bytes. -/
theorem isSome_render?_iff {limits : Limits} {text : String} {cause : Rejection}
    (h : limits.parse text = .rejected cause) (origin : Option String) (palette : Palette) :
    let source := text.toList
    let span := (Diagnostic.ofRejection cause).span
    let stop := Excerpt.shownStop span (Text.byteSize source)
    (span.start ≤ stop ∧ stop ≤ Text.byteSize source ∧ Text.IsBoundary source span.start) ∧
      (((Diagnostic.ofRejection cause).render? source origin palette).isSome ↔
        Text.IsBoundary source stop) ∧
      ((LoadedQuery.renderRejection? ⟨text, origin⟩ cause palette).isSome ↔
        Text.IsBoundary source stop) ∧
      (¬Text.IsBoundary source stop ↔ cause.IsBlind ∧ span.SplitsCharacter source) := by
  intro source span stop
  have placed := isPlaced_of_rejected h
  obtain ⟨le, within⟩ := shownStop_bounds placed.start placed.stop
  have shown : ((Diagnostic.ofRejection cause).render? source origin palette).isSome ↔
      Text.IsBoundary source stop := by
    rw [isSome_render?_eq, isSome_ofSpan?_iff _ (le_trans le within) within]
    exact and_iff_right placed.start
  refine ⟨⟨le, within, placed.start⟩, shown, ?_, ?_⟩
  · unfold LoadedQuery.renderRejection?
    rw [Option.isSome_map]
    exact shown
  · rw [isBoundary_shownStop placed.start placed.stop, not_not]
    constructor
    · intro splits
      exact ⟨placed.splits splits, splits⟩
    · exact And.right

/-- A group that is not closed is shown at the end of its line. -/
theorem isSome_render?_openGroup :
    let cause : Rejection := .unexpected ⟨⟨2, 0⟩, ⟨1, 3⟩, "end of input",
      .ofList [.closeParen, .fuzzy, .boost, .blank]⟩
    Limits.parse {} "(a" = .rejected cause ∧
      (LoadedQuery.renderRejection? ⟨"(a", none⟩ cause .plain).isSome := by
  intro cause
  have h : Limits.parse {} "(a" = .rejected cause := by decide +kernel
  have shown := (isSome_render?_iff h none .plain).2.2.1
  exact ⟨h, shown.2 (by decide)⟩

/-- A query that starts with an accented letter cannot be shown when there is no lookahead for
it. -/
theorem render?_eq_none_of_wide :
    Limits.parse { lookaheads := some 0 } "é" = .rejected (.limit (.lookaheads 0)) ∧
      (Diagnostic.ofRejection (.limit (.lookaheads 0))).render? "é".toList none .plain = none ∧
      LoadedQuery.renderRejection? ⟨"é", none⟩ (.limit (.lookaheads 0)) .plain = none := by
  decide

end SearchQuery
