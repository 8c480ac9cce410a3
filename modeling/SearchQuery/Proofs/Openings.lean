import SearchQuery.Proofs.Completeness
import SearchQuery.Proofs.Coupling

/-!
# Where groups are opened

A limit on nesting is reached at the first parenthesis of the source that opens a group one level
too deep.  To say which parenthesis this is, `ClauseOpens`, `SequenceOpens` and `MoreOpens` go
through the text of a query along the grammar, down to one of its groups.  They relate the level of
the group, where the outermost groups are at level one, to the place of its parenthesis in the text.

## Reaching the limit

`Hits` is the judgement about runs: whatever state a production leaves, the limit was reached at a
certain place.  A limit that was reached stays so, and therefore it is enough that a part of the
production hits, after the parts before it have taken what they read.

Two things are shown of a text that is nested too deep.  There is a parenthesis in it where the
limit is reached (`SequenceText.hits`).  And wherever a group is opened one level too deep, the
limit is reached there or before (`SequenceOpens.hits`).  As a run reaches the limit at one place
only, this place is the first of all.
-/

namespace SearchQuery

/-! ## The places of groups -/

mutual

/-- A group at a level is opened at a place in the text of a clause. -/
inductive ClauseOpens : Nat → Clause → List Char → Nat → Prop
  | here {body : Query} {m : Modifiers} {u v w x y z : List Char}
      (marker : PartText MarkerText m.marker u) (field : PartText FieldText m.field v)
      (before : IsGap w) (text : SequenceText body x) (after : IsGap y)
      (boost : PartText BoostText m.boost z) :
      ClauseOpens 1 (.group body m) (u ++ v ++ ('(' :: w ++ x ++ y ++ [')']) ++ z)
        (Text.byteSize (u ++ v))
  | inside {n k : Nat} {body : Query} {m : Modifiers} {u v w x y z : List Char}
      (marker : PartText MarkerText m.marker u) (field : PartText FieldText m.field v)
      (before : IsGap w) (text : SequenceText body x) (opens : SequenceOpens n body x k)
      (after : IsGap y) (boost : PartText BoostText m.boost z) :
      ClauseOpens (n + 1) (.group body m) (u ++ v ++ ('(' :: w ++ x ++ y ++ [')']) ++ z)
        (Text.byteSize (u ++ v ++ ('(' :: w)) + k)

/-- A group at a level is opened at a place in the text of a sequence. -/
inductive SequenceOpens : Nat → Query → List Char → Nat → Prop
  | first {n k : Nat} {first : Clause} {more : List Clause} {u v : List Char}
      (unjoined : first.modifiers.operator = none) (text : ClauseText first u)
      (opens : ClauseOpens n first u k) (joined : MoreText more v) :
      SequenceOpens n (.collapse first more) (u ++ v) k
  | more {n k : Nat} {first : Clause} {more : List Clause} {u v : List Char}
      (unjoined : first.modifiers.operator = none) (text : ClauseText first u)
      (joined : MoreText more v) (opens : MoreOpens n more v k) :
      SequenceOpens n (.collapse first more) (u ++ v) (Text.byteSize u + k)

/-- A group at a level is opened at a place in the text of the clauses after the first one. -/
inductive MoreOpens : Nat → List Clause → List Char → Nat → Prop
  | first {n k : Nat} {next : Clause} {more : List Clause} {u v w : List Char}
      (joint : JointText next.modifiers.operator u) (text : ClauseText next v)
      (opens : ClauseOpens n next v k) (joined : MoreText more w) :
      MoreOpens n (next :: more) (u ++ v ++ w) (Text.byteSize u + k)
  | later {n k : Nat} {next : Clause} {more : List Clause} {u v w : List Char}
      (joint : JointText next.modifiers.operator u) (text : ClauseText next v)
      (joined : MoreText more w) (opens : MoreOpens n more w k) :
      MoreOpens n (next :: more) (u ++ v ++ w) (Text.byteSize (u ++ v) + k)

end

/-- A group of a query at a level is opened at a place in a text of the query. -/
def Opens (n : Nat) (q : Query) (text : List Char) (o : Nat) : Prop :=
  ∃ u v w k, IsGap u ∧ SequenceOpens n q v k ∧ IsGap w ∧ text = u ++ v ++ w ∧
    o = Text.byteSize u + k

mutual

/-- A group is opened at a parenthesis. -/
theorem SequenceOpens.openParen {n k : Nat} {q : Query} {w : List Char} :
    SequenceOpens n q w k → ∃ front back, w = front ++ '(' :: back ∧ Text.byteSize front = k
  | @SequenceOpens.first n k first more u v unjoined text opens joined => by
    obtain ⟨front, back, rfl, hk⟩ := opens.openParen
    exact ⟨front, back ++ v, by simp, hk⟩
  | @SequenceOpens.more n k first more u v unjoined text joined opens => by
    obtain ⟨front, back, rfl, rfl⟩ := opens.openParen
    exact ⟨u ++ front, back, by simp, by simp⟩

theorem ClauseOpens.openParen {n k : Nat} {clause : Clause} {w : List Char} :
    ClauseOpens n clause w k → ∃ front back, w = front ++ '(' :: back ∧ Text.byteSize front = k
  | @ClauseOpens.here body m u v w x y z marker field before text after boost =>
    ⟨u ++ v, w ++ x ++ y ++ [')'] ++ z, by simp, rfl⟩
  | @ClauseOpens.inside n k body m u v w x y z marker field before text opens after boost => by
    obtain ⟨front, back, rfl, rfl⟩ := opens.openParen
    refine ⟨u ++ v ++ ('(' :: w) ++ front, back ++ y ++ [')'] ++ z, by simp, ?_⟩
    rw [Text.byteSize_append _ front]

theorem MoreOpens.openParen {n k : Nat} {more : List Clause} {w : List Char} :
    MoreOpens n more w k → ∃ front back, w = front ++ '(' :: back ∧ Text.byteSize front = k
  | @MoreOpens.first n k next more u v w joint text opens joined => by
    obtain ⟨front, back, rfl, rfl⟩ := opens.openParen
    exact ⟨u ++ front, back ++ w, by simp, by simp⟩
  | @MoreOpens.later n k next more u v w joint text joined opens => by
    obtain ⟨front, back, rfl, rfl⟩ := opens.openParen
    exact ⟨u ++ v ++ front, back, by simp, by simp [Nat.add_assoc]⟩

end

lemma Opens.openParen {n o : Nat} {q : Query} {text : List Char} (h : Opens n q text o) :
    ∃ front back, text = front ++ '(' :: back ∧ Text.byteSize front = o := by
  obtain ⟨u, v, w, k, -, opens, -, rfl, rfl⟩ := h
  obtain ⟨front, back, rfl, rfl⟩ := opens.openParen
  exact ⟨u ++ front, back ++ w, by simp, Text.byteSize_append u front⟩

/-! ## Reaching the limit -/

/-- When a production is begun while `e` groups are open and no lookaheads are counted, it leaves
only states in which the limit on nesting was reached at a place. -/
def Hits {α : Type} (c : Setting) (e place limit : Nat) (p : Production α) : Prop :=
  ∀ s, s.depth = e → (∀ n, s.Has n) → ∀ s', (p c s).state? = some s' →
    s'.reached = some (.nesting place limit)

/-- The coupling that says nothing.  With it, a production is coupled if it only leaves states that
are later. -/
lemma idle_coupling (c : Setting) : Coupling c c (fun _ _ => False) fun _ _ => True :=
  ⟨rfl, fun _ _ _ => trivial, fun _ _ h => h.elim, fun _ h => h.elim, fun _ _ h => h.elim⟩

section rules

variable {α β : Type} {c : Setting} {e k o place limit : Nat} {p : Production α}
  {f : α → Production β} {a : α}

/-- What comes after does not undo it. -/
lemma Hits.bind (hp : Hits c e place limit p)
    (hf : ∀ a, Coupled c c (fun _ _ => False) (fun _ _ => True) (f a)) :
    Hits c e place limit (p >>= f) := by
  intro s hs has s' hs'
  rcases state?_bind hs' with ⟨a, s₁, hr, hs'⟩ | hr
  · have reached := hp s hs has s₁ (by rw [hr]; rfl)
    exact ((hf a).later c s₁ s' hs').reached _ reached
  · exact hp s hs has s' (by rw [hr]; rfl)

/-- Where lookaheads are not counted, a value is taken without counting them. -/
lemma Takes.uncounted (hp : Takes c e k p a) {s : State} (hs : s.depth = e) (has : ∀ n, s.Has n) :
    ∃ s', p c s = .took a s' ∧ s'.depth = e ∧ ∀ n, s'.Has n := by
  obtain ⟨s₁, hr, hs₁, -⟩ := hp s 0 hs (has _)
  refine ⟨s₁, hr, hs₁, fun n => ?_⟩
  obtain ⟨s₂, hr₂, -, hn⟩ := hp s n hs (has _)
  obtain ⟨-, rfl⟩ := Reply.took.inj (hr.symm.trans hr₂)
  exact hn

lemma Takes.bind_hits (hp : Takes c e k p a) (hf : Hits c e place limit (f a)) :
    Hits c e place limit (p >>= f) := by
  intro s hs has s' hs'
  obtain ⟨s₁, hr, hs₁, has₁⟩ := hp.uncounted hs has
  rw [Production.bind_of_took hr] at hs'
  exact hf s₁ hs₁ has₁ s' hs'

lemma hits_lookAt_bind {f : Kind → Production β} {kind : Kind} (h : c.kindAt o = kind)
    (hf : Hits c e place limit (f kind)) : Hits c e place limit (OnDemand.lookAt o >>= f) :=
  takes_lookAt.bind_hits (h ▸ hf)

lemma hits_next_bind {f : Nat → Production β} {o' : Nat} (h : c.next o = o')
    (hf : Hits c e place limit (f o')) : Hits c e place limit (OnDemand.next o >>= f) := by
  rw [← h] at hf
  exact hf

lemma hits_miss {expected : KindSet} (hp : Hits c e place limit p) :
    Hits c e place limit (OnDemand.miss o expected >>= fun _ => p) :=
  fun s hs has => hp (s.recordAt o expected) hs has

/-- The limit is reached where no further group may be opened. -/
lemma hits_nested_of_full (full : c.fullAt e = some limit) :
    Hits c e o limit (Production.nestedAt o p) := by
  intro s hs has s' hs'
  rw [Production.nestedAt_of_full (hs.symm ▸ full)] at hs'
  obtain rfl := Option.some.inj hs'
  unfold State.reach
  rw [(has 0).1]

lemma hits_nested (opens : c.fullAt e = none) (hp : Hits c (e + 1) place limit p) :
    Hits c e place limit (Production.nestedAt o p) := by
  rintro s rfl has s' hs'
  rw [Production.nestedAt_of_free opens] at hs'
  obtain ⟨s₁, hs₁, rfl⟩ := state?_closed hs'
  exact hp { s with depth := s.depth + 1 } rfl has s₁ hs₁

end rules

variable {c : Setting} {e o : Nat}

/-- In every reading of a text of a clause, the limit is reached at a place if it is one less than
the level `n`. -/
def ClauseHits (n : Nat) (clause : Clause) (w : List Char) (k : Nat) : Prop :=
  ∀ {c : Setting} {e o steps limit : Nat} {back : List Char}, c.nestingLimit = some limit →
    limit + 1 = e + n → c.rest o = w ++ back → Stops [')'] back → Text.byteSize w ≤ steps →
      Hits c e (o + k) limit
          (OnDemand.clause (OnDemand.sequence steps) clause.modifiers.operator o) ∧
        Production.operatorOf? (c.kindAt o) = none

def SequenceHits (n : Nat) (w : List Char) (k : Nat) : Prop :=
  ∀ {c : Setting} {e o steps limit : Nat} {gap back : List Char}, c.nestingLimit = some limit →
    limit + 1 = e + n → c.rest o = w ++ (gap ++ back) → IsGap gap → Closing back →
    Text.byteSize w < steps → Hits c e (o + k) limit (OnDemand.sequence steps o)

def MoreHits (n : Nat) (w : List Char) (k : Nat) : Prop :=
  ∀ {c : Setting} {e o steps left limit : Nat} {found : List Clause} {gap back : List Char},
    c.nestingLimit = some limit → limit + 1 = e + n → c.rest o = w ++ (gap ++ back) → IsGap gap →
    Closing back → Text.byteSize w ≤ steps → Text.byteSize w < left →
      Hits c e (o + k) limit
        (Production.moreClauses (OnDemand.joinedClause (OnDemand.sequence steps)) left found o)

/-! ### Groups -/

section group

variable {body : Query} {m : Modifiers} {u v w x y z : List Char} {n k : Nat}

/-- A clause with a group hits where its group does. -/
lemma hits_clause {inner : Nat → Production (Production.Taken Query)} {back : List Char}
    {place limit : Nat} (marker : PartText MarkerText m.marker u)
    (field : PartText FieldText m.field v) (h : c.rest o = u ++ (v ++ ('(' :: back)))
    (group : Hits c e place limit (OnDemand.group inner (o + Text.byteSize (u ++ v)))) :
    Hits c e place limit (OnDemand.clause inner m.operator o) ∧
      Production.operatorOf? (c.kindAt o) = none := by
  have idle := idle_coupling c
  have h₁ := Setting.rest_add h
  have hopen := (Setting.at_punctuation (Setting.rest_add h₁) rfl).1
  have start : ValueStart c (o + Text.byteSize u + Text.byteSize v) false :=
    .other (by simp [hopen])
  obtain ⟨tookField, hstart⟩ := takes_fieldPart (e := e) field start h₁
  obtain ⟨tookMarker, hoperator⟩ := takes_markerPart (e := e) marker hstart h
  rw [Text.byteSize_append, ← Nat.add_assoc] at group
  have value : Hits c e place limit (OnDemand.value inner m.field m.marker
      (o + Text.byteSize u + Text.byteSize v)) := by
    unfold OnDemand.value Reader.value
    exact hits_lookAt_bind hopen (group.bind fun _ => coupled_pure _)
  refine ⟨?_, hoperator⟩
  unfold OnDemand.clause Reader.clause
  refine tookMarker.bind_hits (tookField.bind_hits (value.bind fun a => ?_))
  exact (boost_coupled idle a.2).bind idle fun _ => coupled_pure _

lemma clauseHits_here (marker : PartText MarkerText m.marker u)
    (field : PartText FieldText m.field v) :
    ClauseHits 1 (.group body m) (u ++ v ++ ('(' :: w ++ x ++ y ++ [')']) ++ z)
      (Text.byteSize (u ++ v)) := by
  intro c e o steps limit back hlimit level h hback hsteps
  simp only [List.append_assoc, List.cons_append] at h
  obtain rfl : limit = e := by omega
  have full : c.fullAt limit = some limit := by
    unfold Setting.fullAt
    simp [hlimit]
  exact hits_clause marker field h (hits_nested_of_full full)

/-- A group that may be opened hits where the sequence in it does. -/
lemma hits_group {inner : Nat → Production (Production.Taken Query)} {back : List Char}
    {place limit : Nat} (before : IsGap w) (inked : Inked x) (opens : c.fullAt e = none)
    (h : c.rest o = '(' :: (w ++ (x ++ back)))
    (hinner : Hits c (e + 1) place limit (inner (o + Text.byteSize ('(' :: w)))) :
    Hits c e place limit (OnDemand.group inner o) := by
  have idle := idle_coupling c
  obtain ⟨hopen, hnext⟩ := Setting.at_punctuation h rfl
  rw [Text.byteSize_cons, ← Nat.add_assoc, ← hnext] at hinner
  have h₁ : c.rest (c.next o) = w ++ (x ++ back) := by
    rw [hnext]
    exact @Setting.rest_add c o ['('] _ h
  unfold OnDemand.group Reader.group
  refine hits_nested opens ((takes_expect hopen).bind_hits ?_)
  refine (takes_skipBlank before (inked.head _) h₁).bind_hits (hinner.bind fun a => ?_)
  exact (coupled_skipBlank idle a.2).bind idle fun o =>
    (coupled_expect idle o _).bind idle fun _ => coupled_pure _

lemma clauseHits_inside (marker : PartText MarkerText m.marker u)
    (field : PartText FieldText m.field v) (before : IsGap w) (text : SequenceText body x)
    (after : IsGap y) (hn : 1 ≤ n) (hits : SequenceHits n x k) :
    ClauseHits (n + 1) (.group body m) (u ++ v ++ ('(' :: w ++ x ++ y ++ [')']) ++ z)
      (Text.byteSize (u ++ v ++ ('(' :: w)) + k) := by
  intro c e o steps limit back hlimit level h hback hsteps
  simp only [List.append_assoc, List.cons_append, List.nil_append] at h
  have h₂ := Setting.rest_add (Setting.rest_add h)
  rw [Nat.add_assoc, ← Text.byteSize_append] at h₂
  have h₃ := Setting.rest_add (@Setting.rest_add c _ ['('] _ h₂)
  have opens : c.fullAt e = none := by
    unfold Setting.fullAt
    rw [hlimit]
    exact if_neg (by omega)
  have hsize : Text.byteSize x < steps := by
    simp only [Text.byteSize_append, Text.byteSize_cons] at hsteps
    have := '('.utf8Size_pos
    omega
  have inner := hits hlimit (by omega : limit + 1 = e + 1 + n) h₃ after (Or.inr ⟨_, rfl⟩) hsize
  have hplace : o + Text.byteSize (u ++ v) + Text.byteSize ['('] + Text.byteSize w + k =
      o + (Text.byteSize (u ++ v ++ ('(' :: w)) + k) := by
    simp only [Text.byteSize_append, Text.byteSize_cons, Text.byteSize_nil]
    omega
  rw [hplace, Nat.add_assoc _ (Text.byteSize ['(']), ← Text.byteSize_append] at inner
  exact hits_clause marker field h (hits_group before text.inked opens h₂ inner)

end group

/-! ### Sequences -/

section sequence

variable {first next : Clause} {more : List Clause} {u v w : List Char} {n k : Nat}

/-- What is nested less deep than the level fits within the limit. -/
lemma fits_of_lt {limit d : Nat} (h : c.nestingLimit = some limit) (level : limit + 1 = e + n)
    (hd : d < n) : c.Fits (e + d) := by
  intro l hl
  rw [h] at hl
  obtain rfl := Option.some.inj hl
  omega

/-- A clause that is joined hits where the clause itself does. -/
lemma hits_joinedClause {steps limit : Nat} {back : List Char}
    (joint : JointText next.modifiers.operator u) (text : ClauseText next v)
    (hits : ClauseHits n next v k) (hlimit : c.nestingLimit = some limit)
    (level : limit + 1 = e + n) (hback : Stops [')'] back) (hsize : Text.byteSize v ≤ steps)
    (h : c.rest o = u ++ (v ++ back)) :
    Hits c e (o + (Text.byteSize u + k)) limit
      (OnDemand.joinedClause (OnDemand.sequence steps) o) := by
  obtain ⟨clause, hnone⟩ := hits hlimit level (Setting.rest_add h) hback hsize
  rw [← Nat.add_assoc]
  unfold OnDemand.joinedClause Reader.joinedClause Reader.afterBlank
  generalize next.modifiers.operator = part at joint clause
  cases joint with
  | blank blanks =>
    refine (takes_blank blanks (text.inked.head _) h).bind_hits (hits_lookAt_bind rfl ?_)
    simp only [hnone]
    exact hits_miss clause
  | @keyword operator x y z before keyword after =>
    simp only [List.append_assoc] at h
    have h₁ := Setting.rest_add h
    have h₂ := Setting.rest_add h₁
    obtain ⟨hkeyword, hnext⟩ := kindAt_keyword keyword h₁ fun d more hd =>
      (not_startsWord_of_isBlank (after.head _ d more hd)).2
    have hstart : o + Text.byteSize (x ++ y ++ z) =
        o + Text.byteSize x + Text.byteSize y + Text.byteSize z := by
      simp only [Text.byteSize_append]
      omega
    rw [hstart] at clause ⊢
    refine (takes_blank before ?_ h).bind_hits (hits_lookAt_bind rfl ?_)
    · cases keyword <;> (rintro d more ⟨⟩; decide)
    simp only [hkeyword]
    exact hits_next_bind hnext ((takes_blank after (text.inked.head _) h₂).bind_hits clause)

lemma moreHits_first (joint : JointText next.modifiers.operator u) (text : ClauseText next v)
    (joined : MoreText more w) (hits : ClauseHits n next v k) :
    MoreHits n (u ++ v ++ w) (Text.byteSize u + k) := by
  intro c e o steps left limit found gap back hlimit level h hgap hback hsteps hleft s hs has s' hs'
  simp only [List.append_assoc] at h
  simp only [Text.byteSize_append] at hsteps hleft
  obtain ⟨left, rfl⟩ : ∃ l, left = l + 1 := ⟨left - 1, by omega⟩
  have idle := idle_coupling c
  have clause := hits_joinedClause joint text hits hlimit level (joined.stops hgap hback)
    (by omega : Text.byteSize v ≤ steps) h s hs has
  rcases state?_moreClauses hs' with ⟨a, s₁, hr, hs'⟩ | hr
  · have later := later_moreClauses (joinedClause_coupled idle (sequence_coupled idle steps)) left
      _ _ c s₁ s' hs'
    exact later.reached _ (clause s₁ (by rw [hr]; rfl))
  · exact clause s' (by rw [hr]; rfl)

lemma moreHits_later {j : Nat} (joint : JointText next.modifiers.operator u)
    (text : ClauseText next v) (joined : MoreText more w) (took : ClauseTakes next v j)
    (shallow : next.depth < n) (hits : MoreHits n w k) :
    MoreHits n (u ++ v ++ w) (Text.byteSize (u ++ v) + k) := by
  intro c e o steps left limit found gap back hlimit level h hgap hback hsteps hleft s hs has s' hs'
  simp only [List.append_assoc] at h
  simp only [Text.byteSize_append] at hsteps hleft
  obtain ⟨left, rfl⟩ : ∃ l, left = l + 1 := ⟨left - 1, by omega⟩
  have hv := text.inked.byteSize_pos
  have hw : c.rest (o + Text.byteSize (u ++ v)) = w ++ (gap ++ back) :=
    Setting.rest_add (by rw [h, List.append_assoc])
  have clause := takes_joinedClause joint text took (joined.stops hgap hback)
    (fits_of_lt hlimit level shallow) (by omega : Text.byteSize v ≤ steps) h
  obtain ⟨s₁, hr, hs₁, has₁⟩ := clause.uncounted hs has
  have rest := @hits c e _ steps left limit (next :: found) gap back hlimit level hw hgap hback
    (by omega) (by omega)
  rw [Production.moreClauses, hr] at hs'
  rw [← Nat.add_assoc]
  exact rest s₁ hs₁ has₁ s' hs'

lemma sequenceHits_first (unjoined : first.modifiers.operator = none)
    (joined : MoreText more v) (hits : ClauseHits n first u k) : SequenceHits n (u ++ v) k := by
  intro c e o steps limit gap back hlimit level h hgap hback hsteps
  simp only [List.append_assoc] at h
  simp only [Text.byteSize_append] at hsteps
  obtain ⟨steps, rfl⟩ : ∃ l, steps = l + 1 := ⟨steps - 1, by omega⟩
  have idle := idle_coupling c
  have clause := (hits hlimit level h (joined.stops hgap hback)
    (by omega : Text.byteSize u ≤ steps)).1
  rw [unjoined] at clause
  unfold OnDemand.sequence Reader.sequence
  refine clause.bind fun a => ?_
  exact (moreClauses_coupled idle (joinedClause_coupled idle (sequence_coupled idle steps)) steps
    [] a.2).bind idle fun _ => coupled_pure _

lemma sequenceHits_more {j : Nat} (unjoined : first.modifiers.operator = none)
    (text : ClauseText first u) (joined : MoreText more v) (took : ClauseTakes first u j)
    (shallow : first.depth < n) (hits : MoreHits n v k) :
    SequenceHits n (u ++ v) (Text.byteSize u + k) := by
  intro c e o steps limit gap back hlimit level h hgap hback hsteps
  simp only [List.append_assoc] at h
  simp only [Text.byteSize_append] at hsteps
  obtain ⟨steps, rfl⟩ : ∃ l, steps = l + 1 := ⟨steps - 1, by omega⟩
  have idle := idle_coupling c
  have hu := text.inked.byteSize_pos
  have clause := (took h (joined.stops hgap hback) (fits_of_lt hlimit level shallow)
    (by omega : Text.byteSize u ≤ steps)).1
  have rest := @hits c e _ steps steps limit [] gap back hlimit level (Setting.rest_add h) hgap
    hback (by omega) (by omega)
  rw [← Nat.add_assoc]
  rw [unjoined] at clause
  unfold OnDemand.sequence Reader.sequence
  exact clause.bind_hits (rest.bind fun _ => coupled_pure _)

end sequence

/-! ## Texts that are nested too deep -/

mutual

/-- **The limit is reached in a text that is nested too deep**, at a parenthesis of a group that is
one level too deep. -/
theorem SequenceText.hits {n : Nat} (hn : 1 ≤ n) {q : Query} {w : List Char} :
    SequenceText q w → n ≤ q.depth →
      ∃ k < Text.byteSize w, SequenceOpens n q w k ∧ SequenceHits n w k
  | @SequenceText.collapse first more u v unjoined text joined => by
    intro deep
    rw [depth_collapse] at deep
    by_cases shallow : first.depth < n
    · obtain ⟨j, -, took⟩ := text.takes
      obtain ⟨k, hk, opens, hits⟩ := joined.hits hn (by omega)
      refine ⟨Text.byteSize u + k, ?_, .more unjoined text joined opens,
        sequenceHits_more unjoined text joined took shallow hits⟩
      rw [Text.byteSize_append]
      omega
    · obtain ⟨k, hk, opens, hits⟩ := text.hits hn (not_lt.1 shallow)
      refine ⟨k, ?_, .first unjoined text opens joined, sequenceHits_first unjoined joined hits⟩
      rw [Text.byteSize_append]
      omega

theorem ClauseText.hits {n : Nat} (hn : 1 ≤ n) {clause : Clause} {w : List Char} :
    ClauseText clause w → n ≤ clause.depth →
      ∃ k < Text.byteSize w, ClauseOpens n clause w k ∧ ClauseHits n clause w k
  | .atom marker field text boost => by
    intro deep
    simp only [Clause.depth] at deep
    omega
  | @ClauseText.group body m u v w x y z marker field before text after boost => by
    intro deep
    simp only [Clause.depth] at deep
    by_cases outermost : n = 1
    · subst outermost
      refine ⟨Text.byteSize (u ++ v), ?_, .here marker field before text after boost,
        clauseHits_here marker field⟩
      have := '('.utf8Size_pos
      simp only [Text.byteSize_append, Text.byteSize_cons]
      omega
    · obtain ⟨n, rfl⟩ : ∃ l, n = l + 1 := ⟨n - 1, by omega⟩
      have hn : 1 ≤ n := by omega
      obtain ⟨k, hk, opens, hits⟩ := text.hits hn (by omega)
      refine ⟨Text.byteSize (u ++ v ++ ('(' :: w)) + k, ?_,
        .inside marker field before text opens after boost,
        clauseHits_inside marker field before text after hn hits⟩
      simp only [Text.byteSize_append, Text.byteSize_cons]
      omega

theorem MoreText.hits {n : Nat} (hn : 1 ≤ n) {more : List Clause} {w : List Char} :
    MoreText more w → n ≤ Clause.depths more →
      ∃ k < Text.byteSize w, MoreOpens n more w k ∧ MoreHits n w k
  | .nil => by
    intro deep
    simp only [Clause.depths] at deep
    omega
  | @MoreText.cons next more u v w joint text joined => by
    intro deep
    simp only [Clause.depths] at deep
    by_cases shallow : next.depth < n
    · obtain ⟨j, -, took⟩ := text.takes
      obtain ⟨k, hk, opens, hits⟩ := joined.hits hn (by omega)
      refine ⟨Text.byteSize (u ++ v) + k, ?_, .later joint text joined opens,
        moreHits_later joint text joined took shallow hits⟩
      rw [Text.byteSize_append (u ++ v)]
      omega
    · obtain ⟨k, hk, opens, hits⟩ := text.hits hn (not_lt.1 shallow)
      refine ⟨Text.byteSize u + k, ?_, .first joint text opens joined,
        moreHits_first joint text joined hits⟩
      simp only [Text.byteSize_append]
      omega

end

mutual

/-- **No group one level too deep comes before the place where the limit is reached.** -/
theorem SequenceOpens.hits {n k : Nat} {q : Query} {w : List Char} :
    SequenceOpens n q w k → 1 ≤ n ∧ ∃ k' ≤ k, SequenceHits n w k'
  | .first unjoined text opens joined => by
    obtain ⟨hn, k', hk, hits⟩ := opens.hits
    exact ⟨hn, k', hk, sequenceHits_first unjoined joined hits⟩
  | @SequenceOpens.more n k first more u v unjoined text joined opens => by
    obtain ⟨hn, k', hk, hits⟩ := opens.hits
    refine ⟨hn, ?_⟩
    by_cases shallow : first.depth < n
    · obtain ⟨j, -, took⟩ := text.takes
      refine ⟨Text.byteSize u + k', by omega, ?_⟩
      exact sequenceHits_more unjoined text joined took shallow hits
    · obtain ⟨k'', hk', -, hits⟩ := text.hits hn (not_lt.1 shallow)
      exact ⟨k'', by omega, sequenceHits_first unjoined joined hits⟩

theorem ClauseOpens.hits {n k : Nat} {clause : Clause} {w : List Char} :
    ClauseOpens n clause w k → 1 ≤ n ∧ ∃ k' ≤ k, ClauseHits n clause w k'
  | .here marker field before text after boost =>
    ⟨le_rfl, _, le_rfl, clauseHits_here marker field⟩
  | .inside marker field before text opens after boost => by
    obtain ⟨hn, k', hk, hits⟩ := opens.hits
    exact ⟨by omega, _, Nat.add_le_add_left hk _,
      clauseHits_inside marker field before text after hn hits⟩

theorem MoreOpens.hits {n k : Nat} {more : List Clause} {w : List Char} :
    MoreOpens n more w k → 1 ≤ n ∧ ∃ k' ≤ k, MoreHits n w k'
  | .first joint text opens joined => by
    obtain ⟨hn, k', hk, hits⟩ := opens.hits
    exact ⟨hn, _, Nat.add_le_add_left hk _, moreHits_first joint text joined hits⟩
  | @MoreOpens.later n k next more u v w joint text joined opens => by
    obtain ⟨hn, k', hk, hits⟩ := opens.hits
    refine ⟨hn, ?_⟩
    by_cases shallow : next.depth < n
    · obtain ⟨j, -, took⟩ := text.takes
      exact ⟨_, Nat.add_le_add_left hk _, moreHits_later joint text joined took shallow hits⟩
    · obtain ⟨k'', hk', -, hits⟩ := text.hits hn (not_lt.1 shallow)
      refine ⟨Text.byteSize u + k'', ?_, moreHits_first joint text joined hits⟩
      rw [Text.byteSize_append]
      omega

end

/-- A query hits where its sequence does. -/
lemma query_hits {n k limit start steps : Nat} {u v w : List Char} (before : IsGap u)
    (inked : Inked v) (after : IsGap w) (hits : SequenceHits n v k)
    (hlimit : c.nestingLimit = some limit) (level : limit + 1 = n)
    (h : c.rest start = u ++ v ++ w) (hsteps : Text.byteSize v < steps) :
    Hits c 0 (start + (Text.byteSize u + k)) limit (OnDemand.query steps start) := by
  have idle := idle_coupling c
  have h₁ : c.rest start = u ++ (v ++ (w ++ [])) := by simpa using h
  have sequence := @hits c 0 _ steps limit w [] hlimit (by omega) (Setting.rest_add h₁) after
    (Or.inl rfl) hsteps
  rw [← Nat.add_assoc]
  unfold OnDemand.query Reader.query
  refine (takes_skipBlank before (inked.head _) h₁).bind_hits (sequence.bind fun a => ?_)
  refine (coupled_skipBlank idle a.2).bind idle fun o =>
    (coupled_lookAt idle o).bind idle fun seen => ?_
  split_ifs
  · exact coupled_pure _
  · exact coupled_refuseAt idle o _

end SearchQuery
