import SearchQuery.Proofs.OnDemand
import SearchQuery.Query.Canonical

/-!
# What reading a query asks for

Two numbers of a query: how deep its groups nest, and how many lookaheads it takes at least to read
a text of it.  The second counts, for each part, the lookaheads of the productions that read it.  A
clause with a field, or with a term for its value, starts with a word, and a word costs one
lookahead more, because a colon might follow.

Two predicates say that a limit allows for such a number.  `Setting.Fits` is about nesting.
`State.Has` is about lookaheads, and since it asks that no limit was reached, a state that has any
left, however few, is one that every step before it had enough for.

Only one thing is not counted: where a blank stands between a sequence and its end, a further clause
is looked for after the blank, in vain, which takes four lookaheads more.  No canonical text has
such blanks.
-/

namespace SearchQuery

/-! ## Numbers of a query -/

mutual

/-- How deep the groups in a query nest. -/
def Query.depth : Query → Nat
  | .single clause => clause.depth
  | .list clauses => Clause.depths clauses

/-- How deep groups nest in a clause, itself included. -/
def Clause.depth : Clause → Nat
  | .atom _ _ => 0
  | .group body _ => body.depth + 1

/-- How deep groups nest in any of the clauses. -/
def Clause.depths : List Clause → Nat
  | [] => 0
  | clause :: more => max clause.depth (Clause.depths more)

end

/-- The lookaheads that a value takes, once its first token is seen. -/
def Atom.lookaheads : Atom → Nat
  | .term _ _ => 1
  | .phrase _ _ => 1
  | .range _ _ _ => 7

/-- The lookaheads for the field of a clause, given whether the clause starts with a word. -/
def Modifiers.fieldLookaheads (m : Modifiers) (word : Bool) : Nat :=
  if m.field.isSome || word then 2 else 1

/-- Whether a value starts with a word. -/
def Atom.isTerm : Atom → Bool
  | .term _ _ => true
  | _ => false

/-- The lookaheads for what joins a clause to the one before it. -/
def Modifiers.jointLookaheads (m : Modifiers) : Nat := if m.operator.isSome then 3 else 2

mutual

/-- The lookaheads that a sequence takes, with the one that finds its end. -/
def Query.lookaheads : Query → Nat
  | .single clause => clause.lookaheads + 1
  | .list [] => 1
  | .list (first :: more) => first.lookaheads + Clause.joinedLookaheads more + 1

/-- The lookaheads that a clause takes: for its marker, its field, its value and its boost. -/
def Clause.lookaheads : Clause → Nat
  | .atom value m => 1 + m.fieldLookaheads value.isTerm + (1 + value.lookaheads) + 1
  | .group body m => 1 + m.fieldLookaheads false + (1 + (2 + body.lookaheads + 2)) + 1

/-- The lookaheads that the clauses after the first one of a sequence take. -/
def Clause.joinedLookaheads : List Clause → Nat
  | [] => 0
  | clause :: more =>
    clause.modifiers.jointLookaheads + clause.lookaheads + Clause.joinedLookaheads more

end

section collapse

variable (first : Clause) (more : List Clause)

@[simp] lemma depth_collapse :
    (Query.collapse first more).depth = max first.depth (Clause.depths more) := by
  cases more <;> simp [Query.collapse, Query.depth, Clause.depths]

@[simp] lemma lookaheads_collapse :
    (Query.collapse first more).lookaheads =
      first.lookaheads + Clause.joinedLookaheads more + 1 := by
  cases more <;> simp [Query.collapse, Query.lookaheads, Clause.joinedLookaheads]

@[simp] lemma render_collapse :
    (Query.collapse first more).render = first.render ++ Clause.renderJoined more := by
  cases more <;> simp [Query.collapse, Query.render, Clause.renderJoined]

end collapse

/-! ## Nesting -/

/-- Groups may nest as deep as this. -/
def Setting.Fits (c : Setting) (depth : Nat) : Prop := ∀ limit ∈ c.nestingLimit, depth ≤ limit

lemma Setting.Fits.mono {c : Setting} {d e : Nat} (h : c.Fits e) (hd : d ≤ e) : c.Fits d :=
  fun limit hl => le_trans hd (h limit hl)

lemma Setting.fullAt_eq_none_iff {c : Setting} {depth : Nat} :
    c.fullAt depth = none ↔ c.Fits (depth + 1) := by
  unfold Setting.fullAt Setting.Fits
  cases hl : c.nestingLimit with
  | none => simp
  | some limit =>
    by_cases hd : limit ≤ depth
    · simp only [if_pos hd, Option.mem_def, Option.some.injEq, reduceCtorEq, false_iff]
      intro h
      have := h limit rfl
      omega
    · simp only [if_neg hd, Option.mem_def, Option.some.injEq, true_iff]
      rintro _ rfl
      omega

/-- What keeps a group from being opened is the limit on nesting. -/
lemma Setting.nestingLimit_of_fullAt {c : Setting} {depth limit : Nat}
    (h : c.fullAt depth = some limit) : c.nestingLimit = some limit := by
  unfold Setting.fullAt at h
  cases hl : c.nestingLimit with
  | none =>
    rw [hl] at h
    cases h
  | some bound =>
    simp only [hl] at h
    split_ifs at h
    exact h

/-! ## Lookaheads -/

namespace State

/-- No limit was reached, and there are so many lookaheads left. -/
def Has (s : State) (n : Nat) : Prop := s.reached = none ∧ ∀ left ∈ s.lookaheads, n ≤ left

variable {s : State} {n o : Nat}

lemma not_has_reach {cause : LimitReached} : ¬ (s.reach cause).Has n := by
  rintro ⟨hreached, -⟩
  unfold State.reach at hreached
  cases hr : s.reached with
  | none => simp [hr] at hreached
  | some cause => simp [hr] at hreached

/-- A lookahead takes exactly one of those that are left. -/
lemma has_spendAt : (s.spendAt o).Has n ↔ s.Has (n + 1) := by
  unfold spendAt
  cases hl : s.lookaheads with
  | none => simp [Has, hl]
  | some left =>
    cases left with
    | zero =>
      simp only [not_has_reach, false_iff]
      rintro ⟨-, h⟩
      have := h 0 hl
      omega
    | succ left => simp [Has, hl]

@[simp] lemma depth_reach {cause : LimitReached} : (s.reach cause).depth = s.depth := by
  unfold State.reach
  cases s.reached <;> rfl

@[simp] lemma depth_spendAt : (s.spendAt o).depth = s.depth := by
  unfold spendAt
  cases s.lookaheads with
  | none => rfl
  | some left =>
    cases left with
    | zero => exact depth_reach
    | succ left => rfl

end State

/-- What a lookahead sees, which is what stands there unless a limit was reached, and what it leaves
of the lookaheads. -/
lemma lookAt_eq (c : Setting) (s : State) (o : Nat) :
    ∃ s', OnDemand.lookAt o c s = .took (OnDemand.kindSeen c s' o) s' ∧ s'.depth = s.depth ∧
      ∀ n, s'.Has n ↔ s.Has (n + 1) :=
  ⟨{ s.spendAt o with log := .lookedAt o (OnDemand.kindSeen c (s.spendAt o) o) ::
      (s.spendAt o).log }, rfl, State.depth_spendAt, fun _ => State.has_spendAt⟩

lemma kindSeen_of_has {c : Setting} {s : State} {o n : Nat} (h : s.Has n) :
    OnDemand.kindSeen c s o = c.kindAt o := by
  unfold OnDemand.kindSeen
  rw [h.1]

end SearchQuery
