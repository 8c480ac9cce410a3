import SearchQuery.Proofs.QuietSteps
import SearchQuery.Proofs.Recutting
import SearchQuery.Proofs.Simulation

/-!
# The order of cuts

The source is cut anew only further and further on, each time in front of its end.  A bound is read
from a place that no cut so far is past, and it is not empty, so that the place after it is further
than any of them.  `Poised` is that: a production may be begun at an index, because no cut is past
the place of the index.  It also counts the cuts since a limit.  A range is begun where a bracket
was seen, so that there are none yet, and it makes at most one.

## Going back

Reading goes back only when no further clause can be joined on.  The attempt may have cut tokens
that lie ahead, and then no bound may be read from where reading goes back to.  `Finished` says why
none will be: what stands there, or after a blank there, is no closing parenthesis unless all cuts
are behind it.  For a clause that begins at a parenthesis is refused before anything is cut
(`clause_at_closeParen`), and a clause that began elsewhere left its first token what it was.
-/

namespace SearchQuery

open Production

/-! ## Where a production may be begun -/

lemma Token.Adjoin.drop {start stop : Nat} {tokens : List Token} (h : Adjoin start tokens stop)
    (i : Nat) : ∃ middle, Adjoin middle (tokens.drop i) stop := by
  induction h generalizing i with
  | nil o => exact ⟨o, by rw [List.drop_nil]; exact Adjoin.nil o⟩
  | @cons token more stop tail ih =>
    cases i with
    | zero => exact ⟨_, Adjoin.cons tail⟩
    | succ i => exact ih i

/-- A token ends at or before the places of all later indices. -/
lemma State.stop_le_offsetAt {s : State} {source : List Char} {start p q : Nat} {token : Token}
    (h : Token.Adjoin start s.tokens.toList (Text.byteSize source))
    (hp : s.tokens[p]? = some token) (hpq : p < q) : token.span.stop ≤ s.offsetAt source q := by
  obtain ⟨middle, behind⟩ := h.drop p
  have hhead : (s.tokens.toList.drop p).head? = some token := by
    rw [List.head?_drop, Array.getElem?_toList, hp]
  obtain ⟨more, hdrop⟩ := List.head?_eq_some_iff.1 hhead
  rw [hdrop] at behind
  cases behind with
  | cons tail =>
    unfold State.offsetAt
    cases hq : s.tokens[q]? with
    | none => exact tail.le
    | some other =>
      have hmore : more = s.tokens.toList.drop (p + 1) := by rw [← List.tail_drop, hdrop]; rfl
      refine tail.le_start_of_mem (List.mem_of_getElem? (i := q - (p + 1)) ?_)
      rw [hmore, List.getElem?_drop, Nat.add_sub_cancel' hpq, Array.getElem?_toList, hq]

/-- Places come in the order of their indices. -/
lemma State.offsetAt_mono {s : State} {source : List Char} {start p q : Nat}
    (h : Token.Adjoin start s.tokens.toList (Text.byteSize source)) (hpq : p ≤ q) :
    s.offsetAt source p ≤ s.offsetAt source q := by
  rcases Nat.eq_or_lt_of_le hpq with rfl | hlt
  · exact le_rfl
  · cases hp : s.tokens[p]? with
    | none =>
      have hq : s.tokens[q]? = none := by
        rw [Array.getElem?_eq_none_iff] at hp ⊢
        omega
      unfold State.offsetAt
      rw [hp, hq]
    | some token =>
      have before := State.stop_le_offsetAt h hp hlt
      refine le_trans ?_ before
      unfold State.offsetAt
      rw [hp]
      exact Nat.le_add_right _ _

/-- What is true of the tokens and of the log at all times. -/
structure Orderly (c : Setting) (k : Nat) (s : State) : Prop where
  adjoin : ∃ start, Token.Adjoin start s.tokens.toList (Text.byteSize c.source)
  increasing : s.cuts.Pairwise (· > ·)
  inside : ∀ x ∈ s.cuts, x < Text.byteSize c.source
  tells : s.Tells k

/-- The tokens up to an index are still of the kinds that they had in an earlier state. -/
structure Intact (c : Setting) (s₀ : State) (base : Nat) (s : State) : Prop where
  orderly : Orderly c 1 s
  keeps : ∀ j ≤ base, s.kindAt? j = s₀.kindAt? j

/-- A production may be begun at an index. -/
structure Poised (c : Setting) (s₀ : State) (base k : Nat) (s : State) (pos : Nat) : Prop where
  orderly : Orderly c k s
  keeps : ∀ j ≤ base, s.kindAt? j = s₀.kindAt? j
  base_le : base ≤ pos
  behind : s.CutUpTo (s.offsetAt c.source pos)

section Bounds

variable {c : Setting} {s₀ s s' : State} {base k pos : Nat}

lemma Orderly.of_quiet (h : Orderly c k s) (quiet : Quiet s s') : Orderly c k s' := by
  refine ⟨?_, ?_, ?_, quiet.tells k h.tells⟩
  · rw [quiet.tokens]
    exact h.adjoin
  · rw [quiet.cuts]
    exact h.increasing
  · rw [quiet.cuts]
    exact h.inside

lemma Orderly.offsetAt_mono (h : Orderly c k s) {p q : Nat} (hpq : p ≤ q) :
    s.offsetAt c.source p ≤ s.offsetAt c.source q := by
  obtain ⟨start, adjoin⟩ := h.adjoin
  exact State.offsetAt_mono adjoin hpq

lemma Orderly.mono (h : Orderly c k s) {n : Nat} (hk : k ≤ n) : Orderly c n s :=
  ⟨h.adjoin, h.increasing, h.inside, h.tells.mono hk⟩

lemma State.CutUpTo.mono {x y : Nat} (h : s.CutUpTo x) (hxy : x ≤ y) : s.CutUpTo y :=
  fun z hz => le_trans (h z hz) hxy

lemma State.CutUpTo.of_quiet {x : Nat} (h : s.CutUpTo x) (quiet : Quiet s s') : s'.CutUpTo x := by
  unfold State.CutUpTo
  rw [quiet.cuts]
  exact h

lemma Intact.of_quiet (h : Intact c s₀ base s) (quiet : Quiet s s') : Intact c s₀ base s' :=
  ⟨h.orderly.of_quiet quiet, fun j hj => by rw [quiet.kindAt?, h.keeps j hj]⟩

namespace Poised

lemma intact (h : Poised c s₀ base k s pos) (hk : k ≤ 1) : Intact c s₀ base s :=
  ⟨h.orderly.mono hk, h.keeps⟩

lemma of_quiet (h : Poised c s₀ base k s pos) (quiet : Quiet s s') {p : Nat} (hp : pos ≤ p) :
    Poised c s₀ base k s' p := by
  refine ⟨h.orderly.of_quiet quiet, fun j hj => by rw [quiet.kindAt?, h.keeps j hj],
    le_trans h.base_le hp, ?_⟩
  rw [quiet.offsetAt]
  exact (h.behind.mono (h.orderly.offsetAt_mono hp)).of_quiet quiet

lemma mono (h : Poised c s₀ base k s pos) {n : Nat} (hk : k ≤ n) : Poised c s₀ base n s pos :=
  ⟨h.orderly.mono hk, h.keeps, h.base_le, h.behind⟩

/-- While no limit is reached, none of the cuts came after one. -/
lemma of_unreached (h : Poised c s₀ base k s pos) (hr : s.reached = none) :
    Poised c s₀ base 0 s pos :=
  ⟨⟨h.orderly.adjoin, h.orderly.increasing, h.orderly.inside, h.orderly.tells.of_unreached hr 0⟩,
    h.keeps, h.base_le, h.behind⟩

/-- From here on, all that is known of earlier tokens is that they are these. -/
lemma rebase (h : Poised c s₀ base k s pos) {p : Nat} (hp : p ≤ pos) : Poised c s p k s pos :=
  ⟨h.orderly, fun _ _ => rfl, hp, h.behind⟩

/-- What is taken quietly can be gone on from. -/
lemma quietly {α : Type} {x : Reply (Taken α)} (h : Poised c s₀ base k s pos) (hk : k ≤ 1)
    (hx : x.Meets (fun a s' => Quiet s s' ∧ pos ≤ a.2) (Quiet s)) :
    x.Meets (fun a s' => Poised c s₀ base k s' a.2) (Intact c s₀ base) :=
  hx.mono (fun _ _ hs => h.of_quiet hs.1 hs.2) fun _ quiet => (h.intact hk).of_quiet quiet

end Poised

/-! ## Bounds -/

/-- In front of the end of the source, an index stands for a token. -/
lemma State.exists_getElem?_of_offsetAt_lt {source : List Char} {x : Nat}
    (hx : s.offsetAt source pos < x) (hsize : x ≤ Text.byteSize source) :
    ∃ token, s.tokens[pos]? = some token ∧ s.offsetAt source pos = token.span.start := by
  unfold State.offsetAt at hx ⊢
  cases hget : s.tokens[pos]? with
  | some token => exact ⟨token, rfl, rfl⟩
  | none =>
    rw [hget] at hx
    exact absurd hsize (not_le.2 hx)

/-- The index that is found stands for the place. -/
lemma Sought.offsetAt {start x i : Nat} (h : Sought c s start x (Text.byteSize c.source) i s')
    (hx : x ≤ Text.byteSize c.source) : s'.offsetAt c.source i = x := by
  unfold State.offsetAt
  rcases Nat.lt_or_eq_of_le hx with hlt | heq
  · obtain ⟨token, hget, hstart⟩ := h.starts hlt
    rw [hget]
    exact hstart
  · rw [h.ends heq, Array.getElem?_eq_none le_rfl, heq]

/-- In front of the index that is found, the kinds of tokens are kept. -/
lemma Sought.kindAt? {start x stop i j : Nat} (h : Sought c s start x stop i s') (hj : j < i) :
    s'.kindAt? j = s.kindAt? j := by
  unfold State.kindAt?
  rw [h.below j hj, Option.map_map]
  congr 1
  funext token
  exact Token.kind_endedAt x token

/-- Going to a place inside a token cuts there.  The cuts stay in order if all were in front of the
place, and no cut is past it then. -/
lemma Orderly.cut {start x i : Nat} (h : Orderly c 0 s)
    (sought : Sought c s start x (Text.byteSize c.source) i s')
    (hcut : ∃ token ∈ s.tokens, token.Straddles x) (further : ∀ y ∈ s.cuts, y < x)
    (hx : x < Text.byteSize c.source) : Orderly c 1 s' ∧ s'.CutUpTo x := by
  obtain ⟨-, hs'⟩ := sought.inside hcut
  have hcuts : s'.cuts = x :: s.cuts := by
    rw [hs']
    rfl
  refine ⟨⟨?_, ?_, ?_, ?_⟩, ?_⟩
  · obtain ⟨last, hlast, heq⟩ := sought.adjoin
    rw [or_self] at heq
    exact ⟨start, heq ▸ hlast⟩
  · rw [hcuts]
    exact List.pairwise_cons.2 ⟨further, h.increasing⟩
  · rw [hcuts]
    exact List.forall_mem_cons.2 ⟨hx, h.inside⟩
  · exact h.tells.push (.recut x) rfl (by rw [hs']) (by rw [hs']) le_rfl
  · unfold State.CutUpTo
    rw [hcuts]
    exact List.forall_mem_cons.2 ⟨le_rfl, fun y hy => le_of_lt (further y hy)⟩

/-- Going on after a text that starts at the place of an index.  If that cuts, then further than any
cut before. -/
lemma Poised.seek (h : Poised c s₀ base 0 s pos) {x : Nat} (hx : s.offsetAt c.source pos < x)
    (boundary : Text.IsBoundary c.source x) (hsize : x ≤ Text.byteSize c.source) :
    ∃ i s', seek x c s = .took i s' ∧ Poised c s₀ base 1 s' i := by
  obtain ⟨start, adjoin⟩ := h.orderly.adjoin
  obtain ⟨token, hget, hoffset⟩ := State.exists_getElem?_of_offsetAt_lt hx hsize
  rw [hoffset] at hx
  have hstart : start ≤ token.span.start :=
    adjoin.le_start_of_mem (Array.mem_toList_iff.2 (Array.mem_of_getElem? hget))
  obtain ⟨i, s', hseek, sought⟩ :=
    seek_sought adjoin le_rfl boundary (le_trans hstart (le_of_lt hx)) hsize
  have hi : pos < i := sought.front pos token hget hx
  refine ⟨i, s', hseek, ?_⟩
  by_cases hcut : ∃ token ∈ s.tokens, token.Straddles x
  · have further : ∀ y ∈ s.cuts, y < x := by
      intro y hy
      exact lt_of_le_of_lt (hoffset ▸ h.behind y hy) hx
    have hlast : x < Text.byteSize c.source := by
      obtain ⟨inside, mem, straddles⟩ := hcut
      exact lt_of_lt_of_le straddles.2 (adjoin.stop_le_of_mem (Array.mem_toList_iff.2 mem))
    obtain ⟨orderly, behind⟩ := h.orderly.cut sought hcut further hlast
    have hbase := h.base_le
    refine ⟨orderly, fun j hj => ?_, by omega, ?_⟩
    · rw [sought.kindAt? (by omega), h.keeps j hj]
    · rw [sought.offsetAt hsize]
      exact behind
  · have hs' : s' = s := sought.between fun t mem straddles => hcut ⟨t, mem, straddles⟩
    subst hs'
    exact (h.mono (Nat.zero_le 1)).of_quiet (Quiet.refl _) (le_of_lt hi)

lemma bound_poised (h : Poised c s₀ base 0 s pos) :
    (bound pos c s).Meets (fun a s' => Poised c s₀ base 1 s' a.2) (Intact c s₀ base) := by
  rcases bound_cases c s pos with ⟨-, heq⟩ | heq | ⟨text, x, hx, boundary, hsize, heq⟩
  · rw [heq]
    trivial
  · rw [heq]
    exact (h.intact (Nat.zero_le 1)).of_quiet (Quiet.record _ _ _ _)
  · obtain ⟨i, s', hseek, poised⟩ := h.seek hx boundary hsize
    rw [heq, bind_of_took hseek]
    exact poised

end Bounds

/-! ## Ranges -/

section Ranges

variable {c : Setting} {s₀ s : State} {base pos : Nat}

lemma expect_poised {kind : Kind} (hk : kind ≠ .endOfInput) (h : Poised c s₀ base 1 s pos) :
    (expect pos kind c s).Meets (fun p s' => Poised c s₀ base 0 s' p) (Intact c s₀ base) :=
  (expect_quiet hk).mono
    (fun _ _ hs => (h.of_quiet hs.1 (by omega)).of_unreached hs.2.1)
    fun _ quiet => (h.intact le_rfl).of_quiet quiet

lemma skipBlank_poised {k : Nat} (h : Poised c s₀ base k s pos) (hk : k ≤ 1) :
    (skipBlank pos c s).Meets (fun p s' => Poised c s₀ base k s' p) (Intact c s₀ base) :=
  skipBlank_quiet.mono (fun _ _ hs => h.of_quiet hs.1 (by omega))
    fun _ quiet => (h.intact hk).of_quiet quiet

lemma rangeTo_poised (h : Poised c s₀ base 1 s pos) :
    (rangeTo pos c s).Meets (fun p s' => Poised c s₀ base 1 s' p) (Intact c s₀ base) :=
  rangeTo_quiet.mono (fun _ _ hs => h.of_quiet hs.1 (by omega))
    fun _ quiet => (h.intact le_rfl).of_quiet quiet

/-- A range after its opening bracket.  Each bound is begun where no cut came after a limit: the
lower one because no limit was reached when the bracket was seen, and the upper one because a blank
was seen in front of it. -/
lemma rangeAfter_poised (inclusive : Bool) {closing : Kind} (hc : closing ≠ .endOfInput)
    (h : Poised c s₀ base 0 s pos) :
    (rangeAfter pos inclusive closing c s).Meets (fun a s' => Poised c s₀ base 1 s' a.2)
      (Intact c s₀ base) := by
  unfold rangeAfter Reader.rangeAfter
  refine Reply.Meets.bind (skipBlank_poised h (Nat.zero_le 1)) fun p s₁ h₁ => ?_
  refine Reply.Meets.bind (bound_poised h₁) fun low s₂ h₂ => ?_
  refine Reply.Meets.bind (expect_poised (by simp) h₂) fun p s₃ h₃ => ?_
  refine Reply.Meets.bind (rangeTo_poised (h₃.mono (Nat.zero_le 1))) fun p s₄ h₄ => ?_
  refine Reply.Meets.bind (expect_poised (by simp) h₄) fun p s₅ h₅ => ?_
  refine Reply.Meets.bind (bound_poised h₅) fun high s₆ h₆ => ?_
  refine Reply.Meets.bind (skipBlank_poised h₆ le_rfl) fun p s₇ h₇ => ?_
  refine Reply.Meets.bind (expect_poised hc h₇) fun p s₈ h₈ => ?_
  exact h₈.mono (Nat.zero_le 1)

lemma range_poised (h : Poised c s₀ base 1 s pos) :
    (range pos c s).Meets (fun a s' => Poised c s₀ base 1 s' a.2) (Intact c s₀ base) := by
  unfold range Reader.range
  refine lookAt_meets ?_
  intro s' seen quiet hseen
  -- a bracket is seen only while no limit is reached
  have begun : seen ≠ .endOfInput → Poised c s₀ base 0 s' (pos + 1) := fun hend =>
    (h.of_quiet quiet (by omega)).of_unreached (hseen.resolve_left hend).1
  cases seen
  case openBracket => exact rangeAfter_poised true (by simp) (begun (by simp))
  case openBrace => exact rangeAfter_poised false (by simp) (begun (by simp))
  all_goals exact ((h.intact le_rfl).of_quiet quiet).of_quiet (Quiet.record _ _ _ _)

end Ranges

/-! ## Clauses and groups -/

/-- Where a sequence of clauses ends: no closing parenthesis stands there, not even after a blank,
unless all cuts are behind it. -/
structure Finished (c : Setting) (s₀ : State) (base : Nat) (s : State) (pos : Nat) : Prop where
  intact : Intact c s₀ base s
  base_le : base ≤ pos
  here : s.kindAt? pos = some .closeParen → s.CutUpTo (s.offsetAt c.source pos)
  after : s.kindAt? pos = some .blank → s.kindAt? (pos + 1) = some .closeParen →
    s.CutUpTo (s.offsetAt c.source (pos + 1))

/-- Where a group may be closed. -/
structure Closable (c : Setting) (s₀ : State) (base : Nat) (s : State) (pos : Nat) : Prop where
  intact : Intact c s₀ base s
  base_le : base ≤ pos
  behind : s.kindAt? pos = some .closeParen → s.CutUpTo (s.offsetAt c.source pos)

/-- What is known of the production for the sequence in a group. -/
def InnerOrdered (c : Setting) (inner : Nat → Production (Taken Query)) : Prop :=
  ∀ {s₀ s : State} {base pos : Nat}, Poised c s₀ base 1 s pos →
    (inner pos c s).Meets (fun a s' => Finished c s₀ base s' a.2) (Intact c s₀ base)

section Clauses

variable {c : Setting} {s₀ s : State} {base pos : Nat} {inner : Nat → Production (Taken Query)}

lemma Poised.finished (h : Poised c s₀ base 1 s pos) : Finished c s₀ base s pos :=
  ⟨h.intact le_rfl, h.base_le, fun _ => h.behind,
    fun _ _ => h.behind.mono (h.orderly.offsetAt_mono (Nat.le_succ pos))⟩

lemma skipBlank_finished (h : Finished c s₀ base s pos) :
    (skipBlank pos c s).Meets (fun p s' => Closable c s₀ base s' p) (Intact c s₀ base) := by
  refine skipBlank_quiet.mono ?_ fun _ quiet => h.intact.of_quiet quiet
  rintro p s' ⟨quiet, rfl | ⟨rfl, hblank⟩⟩
  · refine ⟨h.intact.of_quiet quiet, h.base_le, ?_⟩
    rw [quiet.kindAt?, quiet.offsetAt]
    exact fun hclose => (h.here hclose).of_quiet quiet
  · refine ⟨h.intact.of_quiet quiet, Nat.le_succ_of_le h.base_le, ?_⟩
    rw [quiet.kindAt?, quiet.offsetAt]
    exact fun hclose => (h.after hblank hclose).of_quiet quiet

lemma expect_closable (h : Closable c s₀ base s pos) :
    (expect pos .closeParen c s).Meets (fun p s' => Poised c s₀ base 1 s' p)
      (Intact c s₀ base) := by
  refine (expect_quiet (by simp)).mono ?_ fun _ quiet => h.intact.of_quiet quiet
  rintro p s' ⟨quiet, -, rfl, hclose⟩
  have poised : Poised c s₀ base 1 s pos :=
    ⟨h.intact.orderly, h.intact.keeps, h.base_le, h.behind hclose⟩
  exact poised.of_quiet quiet (Nat.le_succ pos)

lemma nested_poised {p : Production (Taken Query)} (h : Poised c s₀ base 1 s pos)
    (hp : ∀ {s'}, Poised c s₀ base 1 s' pos →
      (p c s').Meets (fun a s' => Poised c s₀ base 1 s' a.2) (Intact c s₀ base)) :
    (nested pos p c s).Meets (fun a s' => Poised c s₀ base 1 s' a.2) (Intact c s₀ base) := by
  rw [nested_apply]
  cases hfull : c.fullAt s.depth with
  | some limit =>
    rw [nestedAt_of_full hfull]
    exact (h.intact le_rfl).of_quiet (Quiet.reach _ _)
  | none =>
    rw [nestedAt_of_free hfull]
    have opened := h.of_quiet (Quiet.withDepth s (s.depth + 1)) le_rfl
    exact Reply.Meets.closed (hp opened)
      (fun a s' d hs => hs.of_quiet (Quiet.withDepth s' d) le_rfl)
      fun s' d hs => hs.of_quiet (Quiet.withDepth s' d)

lemma group_poised (hinner : InnerOrdered c inner) (h : Poised c s₀ base 1 s pos) :
    (group inner pos c s).Meets (fun a s' => Poised c s₀ base 1 s' a.2) (Intact c s₀ base) := by
  unfold group Reader.group
  refine nested_poised h fun {s'} opened => ?_
  refine Reply.Meets.bind (expect_poised (by simp) opened) fun p s₁ h₁ => ?_
  refine Reply.Meets.bind (skipBlank_poised (h₁.mono (Nat.zero_le 1)) le_rfl) fun p s₂ h₂ => ?_
  refine Reply.Meets.bind (hinner h₂) fun body s₃ h₃ => ?_
  refine Reply.Meets.bind (skipBlank_finished h₃) fun p s₄ h₄ => ?_
  exact Reply.Meets.bind (expect_closable h₄) fun p s₅ h₅ => h₅

lemma value_poised (hinner : InnerOrdered c inner) (field : Option String) (marker : Option Marker)
    (h : Poised c s₀ base 1 s pos) :
    (value inner field marker pos c s).Meets (fun a s' => Poised c s₀ base 1 s' a.2)
      (Intact c s₀ base) := by
  unfold value Reader.value
  refine lookAt_meets ?_
  intro s' seen quiet _
  have begun := h.of_quiet quiet le_rfl
  have refused : ∀ expected, Intact c s₀ base (s'.record c.source pos expected) := fun expected =>
    (begun.intact le_rfl).of_quiet (Quiet.record _ _ _ _)
  cases seen
  case word => exact Reply.Meets.bind (begun.quietly le_rfl term_quiet) fun _ _ hs => hs
  case phrase => exact Reply.Meets.bind (begun.quietly le_rfl phrase_quiet) fun _ _ hs => hs
  case openParen => exact Reply.Meets.bind (group_poised hinner begun) fun _ _ hs => hs
  -- only with a field does a bracket start a value
  case openBracket =>
    cases field with
    | none => exact refused _
    | some name => exact Reply.Meets.bind (range_poised begun) fun _ _ hs => hs
  case openBrace =>
    cases field with
    | none => exact refused _
    | some name => exact Reply.Meets.bind (range_poised begun) fun _ _ hs => hs
  all_goals exact refused _

lemma clause_poised (hinner : InnerOrdered c inner) (operator : Option Operator)
    (h : Poised c s₀ base 1 s pos) :
    (clause inner operator pos c s).Meets (fun a s' => Poised c s₀ base 1 s' a.2)
      (Intact c s₀ base) := by
  unfold clause Reader.clause
  refine Reply.Meets.bind (h.quietly le_rfl marker_quiet) fun marker s₁ h₁ => ?_
  refine Reply.Meets.bind (h₁.quietly le_rfl field_quiet) fun field s₂ h₂ => ?_
  refine Reply.Meets.bind (value_poised hinner field.1 marker.1 h₂) fun make s₃ h₃ => ?_
  refine Reply.Meets.bind (h₃.quietly le_rfl boost_quiet) fun boost s₄ h₄ => ?_
  exact h₄

end Clauses

/-! ## Sequences -/

section Sequences

variable {c : Setting} {s₀ s s' : State} {base pos : Nat} {inner : Nat → Production (Taken Query)}

/-- At a closing parenthesis, that or the end of the input is seen. -/
lemma lookAt_closeParen {α : Type} {T : α → State → Prop} {R : State → Prop}
    {f : Kind → Production α} (hclose : s.kindAt? pos = some .closeParen)
    (h : ∀ s' kind, Quiet s s' → kind = .endOfInput ∨ kind = .closeParen →
      (f kind c s').Meets T R) :
    ((lookAt pos >>= f) c s).Meets T R := by
  refine lookAt_meets fun s' kind quiet seen => h s' kind quiet (seen.imp_right ?_)
  rintro ⟨-, hkind⟩
  rw [hclose] at hkind
  exact (Option.some.inj hkind).symm

lemma marker_at_closeParen (hclose : s.kindAt? pos = some .closeParen) :
    (marker pos c s).Meets (fun a s' => Quiet s s' ∧ a = (none, pos)) (Quiet s) := by
  unfold marker Cursor.marker
  refine lookAt_closeParen hclose ?_
  rintro s' _ quiet (rfl | rfl) <;> exact ⟨quiet, rfl⟩

lemma field_at_closeParen (hclose : s.kindAt? pos = some .closeParen) :
    (field pos c s).Meets (fun a s' => Quiet s s' ∧ a = (none, pos)) (Quiet s) := by
  unfold field Cursor.field
  refine lookAt_closeParen hclose ?_
  rintro s' _ quiet (rfl | rfl) <;> exact ⟨quiet, rfl⟩

lemma value_at_closeParen (inner : Nat → Production (Taken Query))
    (hclose : s.kindAt? pos = some .closeParen) (field : Option String) (marker : Option Marker) :
    (value inner field marker pos c s).Meets (fun _ _ => False) (Quiet s) := by
  unfold value Reader.value
  refine lookAt_closeParen hclose ?_
  rintro s' _ quiet (rfl | rfl) <;> exact quiet.trans (Quiet.record _ _ _ _)

/-- **A clause that begins at a closing parenthesis is refused before anything is cut.** -/
lemma clause_at_closeParen (hclose : s.kindAt? pos = some .closeParen)
    (operator : Option Operator) :
    (clause inner operator pos c s).Meets (fun _ _ => False) (Quiet s) := by
  unfold clause Reader.clause
  refine Reply.Meets.bind (marker_at_closeParen hclose) ?_
  rintro _ s₁ ⟨quiet₁, rfl⟩
  have close₁ : s₁.kindAt? pos = some .closeParen := by rw [quiet₁.kindAt?, hclose]
  refine Reply.Meets.bind ((field_at_closeParen close₁).after quiet₁) ?_
  rintro _ s₂ ⟨quiet₂, rfl⟩
  have close₂ : s₂.kindAt? pos = some .closeParen := by rw [quiet₂.kindAt?, hclose]
  refine Reply.Meets.bind ((value_at_closeParen inner close₂ none none).mono (fun _ _ hs => hs)
    fun _ quiet₃ => quiet₂.trans quiet₃) ?_
  exact fun _ _ hs => hs.elim

/-- What was begun after an index and refused leaves the end of the sequence in front of it, if a
blank stands there and no closing parenthesis after it. -/
lemma Poised.blocked {s₁ : State} (h : Poised c s₀ base 1 s₁ pos)
    (hblank : s₁.kindAt? pos = some .blank) (hclose : s₁.kindAt? (pos + 1) ≠ some .closeParen)
    (h' : Intact c s₁ (pos + 1) s) : Finished c s₀ base s pos := by
  have hbase := h.base_le
  have intact : Intact c s₀ base s :=
    ⟨h'.orderly, fun j hj => by rw [h'.keeps j (by omega), h.keeps j hj]⟩
  refine ⟨intact, hbase, ?_, ?_⟩
  · rw [h'.keeps pos (by omega), hblank]
    intro hcontra
    cases hcontra
  · rw [h'.keeps (pos + 1) le_rfl]
    exact fun _ hcontra => absurd hcontra hclose

/-- What is taken after an index can be gone on from, as from the index. -/
lemma Poised.joined {α : Type} {s₁ : State} {x : Reply (Taken α)} (h : Poised c s₀ base 1 s₁ pos)
    (hblank : s₁.kindAt? pos = some .blank) (hclose : s₁.kindAt? (pos + 1) ≠ some .closeParen)
    (hx : x.Meets (fun a s' => Poised c s₁ (pos + 1) 1 s' a.2) (Intact c s₁ (pos + 1))) :
    x.Meets (fun a s' => Poised c s₀ base 1 s' a.2) (fun s' => Finished c s₀ base s' pos) := by
  refine hx.mono ?_ fun s' hs => h.blocked hblank hclose hs
  intro a s' hs
  have hbase := h.base_le
  refine ⟨hs.orderly, fun j hj => ?_, le_trans (Nat.le_succ_of_le hbase) hs.base_le, hs.behind⟩
  rw [hs.keeps j (by omega), h.keeps j hj]

/-- A clause that follows another one, where the blank between them stands. -/
lemma joinedClause_poised (hinner : InnerOrdered c inner) (h : Poised c s₀ base 1 s pos) :
    (joinedClause inner pos c s).Meets (fun a s' => Poised c s₀ base 1 s' a.2)
      (fun s' => Finished c s₀ base s' pos) := by
  unfold joinedClause Reader.joinedClause
  refine Reply.Meets.bind ((expect_quiet (by simp)).mono (fun _ _ hs => hs)
    fun s₁ quiet => (h.of_quiet quiet le_rfl).finished) ?_
  rintro _ s₁ ⟨quiet₁, -, rfl, hblank⟩
  refine lookAt_meets fun s₂ kind quiet₂ seen => ?_
  have quiet := quiet₁.trans quiet₂
  have before := h.of_quiet quiet le_rfl
  have hblank : s₂.kindAt? pos = some .blank := by rw [quiet.kindAt?, hblank]
  cases hop : operatorOf? kind with
  | some operator =>
    -- a keyword is no closing parenthesis
    have hkind := (seen.resolve_left (OnDemand.ne_of_operatorOf? hop rfl)).2
    have hclose : s₂.kindAt? (pos + 1) ≠ some .closeParen := by
      rw [quiet₂.kindAt?, hkind]
      exact fun heq => OnDemand.ne_of_operatorOf? hop rfl (Option.some.inj heq)
    refine before.joined hblank hclose (next_meets ?_)
    have here := (before.of_quiet (Quiet.refl s₂) (Nat.le_add_right pos 2)).rebase
      (show pos + 1 ≤ pos + 2 by omega)
    refine Reply.Meets.bind (expect_poised (by simp) here) fun p s₃ h₃ => ?_
    exact clause_poised hinner (some operator) (h₃.mono (Nat.zero_le 1))
  | none =>
    have recorded := Quiet.record s₂ c.source (pos + 1) .keywords
    show ((clause inner none (pos + 1)) c (s₂.record c.source (pos + 1) .keywords)).Meets _ _
    have before := before.of_quiet recorded le_rfl
    rw [← recorded.kindAt?] at hblank
    by_cases hclose : (s₂.record c.source (pos + 1) .keywords).kindAt? (pos + 1) = some .closeParen
    · exact (clause_at_closeParen hclose none).mono (fun _ _ hs => hs.elim)
        fun s₃ quiet => (before.of_quiet quiet le_rfl).finished
    · refine before.joined hblank hclose (clause_poised hinner none ?_)
      exact (before.of_quiet (Quiet.refl _) (Nat.le_succ pos)).rebase le_rfl

lemma moreClauses_poised {joined : Nat → Production (Taken Clause)}
    (hjoined : ∀ {s : State} {pos : Nat}, Poised c s₀ base 1 s pos →
      (joined pos c s).Meets (fun a s' => Poised c s₀ base 1 s' a.2)
        (fun s' => Finished c s₀ base s' pos))
    (steps : Nat) (found : List Clause) (h : Poised c s₀ base 1 s pos) :
    (moreClauses joined steps found pos c s).Meets (fun a s' => Finished c s₀ base s' a.2)
      (Intact c s₀ base) := by
  induction steps generalizing found s pos with
  | zero => trivial
  | succ steps ih =>
    have step := hjoined h
    unfold moreClauses
    cases hp : joined pos c s <;> rw [hp] at step
    case took a s' => exact ih (a.1 :: found) step
    case refused s' => exact step
    case fault cause => trivial

/-- **A sequence cuts further and further on**, and ends where no bound will be read from behind a
cut. -/
lemma sequence_ordered (c : Setting) (steps : Nat) : InnerOrdered c (sequence steps) := by
  induction steps with
  | zero =>
    intro s₀ s base pos h
    trivial
  | succ steps ih =>
    intro s₀ s base pos h
    unfold Production.sequence Reader.sequence
    refine Reply.Meets.bind (clause_poised ih none h) fun first s₁ h₁ => ?_
    refine Reply.Meets.bind (moreClauses_poised (joinedClause_poised ih) steps [] h₁)
      fun more s₂ h₂ => ?_
    exact h₂

/-- **Whatever a query reads as, the source was cut in order.** -/
lemma query_orderly (c : Setting) (steps : Nat) (h : Poised c s 0 1 s 0) :
    (query steps c s).Meets (fun _ s' => Orderly c 1 s') (Orderly c 1) := by
  have read : (query steps c s).Meets (fun _ s' => Orderly c 1 s') (Intact c s 0) := by
    unfold query Reader.query
    refine Reply.Meets.bind (skipBlank_poised h le_rfl) fun p s₁ h₁ => ?_
    refine Reply.Meets.bind (sequence_ordered c steps h₁) fun q s₂ h₂ => ?_
    refine Reply.Meets.bind (skipBlank_finished h₂) fun p s₃ h₃ => ?_
    refine lookAt_meets fun s₄ kind quiet _ => ?_
    have intact := h₃.intact.of_quiet quiet
    split_ifs
    · exact intact.orderly
    · exact intact.of_quiet (Quiet.record _ _ _ _)
  exact read.mono (fun _ _ hs => hs) fun _ hs => hs.orderly

end Sequences

end SearchQuery
