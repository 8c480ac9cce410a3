import SearchQuery.Proofs.Progress
import SearchQuery.Proofs.Simulation

/-!
# Reading on demand as the reference

`OnDemand.read` reads a source from its first place to its end without ever cutting it up, and
reports a dead end by what stands there.  `readTokens_eq_onDemand` says that reading the tokens of a
source comes to the same, lookahead by lookahead, whatever the limits are.

## Steps

The bound on the steps is no part of the grammar.  Given more steps, a production replies the same
unless it met a fault before, which is `Approximates`.  By `query_leads` there is no fault once the
steps reach beyond the end of the source, and so one step more than the source has bytes is as good
as any larger number.  In particular the steps that a run over tokens is granted, which depend on
the limits, can be forgotten.
-/

namespace SearchQuery

/-! ## Steps -/

/-- A production replies as another one does, unless it meets a fault. -/
def Approximates {α : Type} (p q : Production α) : Prop :=
  ∀ c s, (∃ cause, p c s = .fault cause) ∨ p c s = q c s

namespace Approximates

variable {α β : Type} {p q r : Production α} {f g : α → Production β} {o : Nat}

lemma refl (p : Production α) : Approximates p p := fun _ _ => Or.inr rfl

lemma trans (hpq : Approximates p q) (hqr : Approximates q r) : Approximates p r := by
  intro c s
  rcases hpq c s with fault | heq
  · exact Or.inl fault
  · rw [heq]
    exact hqr c s

lemma bind (hp : Approximates p q) (hf : ∀ a, Approximates (f a) (g a)) :
    Approximates (p >>= f) (q >>= g) := by
  intro c s
  rw [Production.bind_apply, Production.bind_apply]
  rcases hp c s with ⟨cause, fault⟩ | heq
  · exact Or.inl ⟨cause, by rw [fault]⟩
  · rw [heq]
    cases q c s with
    | took a s' => exact hf a c s'
    | refused s' => exact Or.inr rfl
    | fault cause => exact Or.inr rfl

lemma nested (hp : Approximates p q) :
    Approximates (Production.nestedAt o p) (Production.nestedAt o q) := by
  intro c s
  cases hfull : c.fullAt s.depth with
  | some limit =>
    rw [Production.nestedAt_of_full hfull, Production.nestedAt_of_full hfull]
    exact Or.inr rfl
  | none =>
    rw [Production.nestedAt_of_free hfull, Production.nestedAt_of_free hfull]
    rcases hp c { s with depth := s.depth + 1 } with ⟨cause, fault⟩ | heq
    · exact Or.inl ⟨cause, by simp only [fault, Reply.closed]⟩
    · exact Or.inr (by simp only [heq])

end Approximates

section inner

variable {inner inner' : Nat → Production (Production.Taken Query)} {o : Nat}

lemma group_approximates (h : ∀ o, Approximates (inner o) (inner' o)) :
    Approximates (OnDemand.group inner o) (OnDemand.group inner' o) := by
  unfold OnDemand.group Reader.group
  refine Approximates.nested ?_
  exact (Approximates.refl _).bind fun _ => (Approximates.refl _).bind fun o => (h o).bind fun _ =>
    Approximates.refl _

lemma value_approximates (h : ∀ o, Approximates (inner o) (inner' o)) (field : Option String)
    (marker : Option Marker) :
    Approximates (OnDemand.value inner field marker o) (OnDemand.value inner' field marker o) := by
  unfold OnDemand.value Reader.value
  refine (Approximates.refl _).bind fun seen => ?_
  cases seen
  case openParen => exact (group_approximates h).bind fun _ => Approximates.refl _
  -- only with a field does a bracket start a value
  case openBracket => cases field <;> exact Approximates.refl _
  case openBrace => cases field <;> exact Approximates.refl _
  all_goals exact Approximates.refl _

lemma clause_approximates (h : ∀ o, Approximates (inner o) (inner' o))
    (operator : Option Operator) :
    Approximates (OnDemand.clause inner operator o) (OnDemand.clause inner' operator o) := by
  unfold OnDemand.clause Reader.clause
  refine (Approximates.refl _).bind fun _ => (Approximates.refl _).bind fun _ => ?_
  exact (value_approximates h _ _).bind fun _ => Approximates.refl _

lemma joinedClause_approximates (h : ∀ o, Approximates (inner o) (inner' o)) :
    Approximates (OnDemand.joinedClause inner o) (OnDemand.joinedClause inner' o) := by
  unfold OnDemand.joinedClause Reader.joinedClause Reader.afterBlank
  refine (Approximates.refl _).bind fun _ => (Approximates.refl _).bind fun seen => ?_
  cases Production.operatorOf? seen with
  | none => exact (Approximates.refl _).bind fun _ => clause_approximates h none
  | some operator =>
    refine (Approximates.refl _).bind fun _ => (Approximates.refl _).bind fun _ => ?_
    exact clause_approximates h (some operator)

end inner

/-- One step more and closer clauses to join on change nothing but faults. -/
lemma moreClauses_approximates {joined joined' : Nat → Production (Production.Taken Clause)}
    (h : ∀ o, Approximates (joined o) (joined' o)) (steps : Nat) (found : List Clause) (o : Nat) :
    Approximates (Production.moreClauses joined steps found o)
      (Production.moreClauses joined' (steps + 1) found o) := by
  induction steps generalizing found o with
  | zero => exact fun c s => Or.inl ⟨.endless, rfl⟩
  | succ steps ih =>
    intro c s
    rw [Production.moreClauses, Production.moreClauses]
    rcases h o c s with ⟨cause, fault⟩ | heq
    · exact Or.inl ⟨cause, by rw [fault]⟩
    · rw [heq]
      cases joined' o c s with
      | took a s' => exact ih (a.1 :: found) a.2 c s'
      | refused s' => exact Or.inr rfl
      | fault cause => exact Or.inr rfl

lemma sequence_approximates_succ (steps o : Nat) :
    Approximates (OnDemand.sequence steps o) (OnDemand.sequence (steps + 1) o) := by
  induction steps generalizing o with
  | zero => exact fun c s => Or.inl ⟨.endless, rfl⟩
  | succ steps ih =>
    rw [OnDemand.sequence, OnDemand.sequence]
    refine (clause_approximates ih none).bind fun _ => ?_
    refine (moreClauses_approximates (fun _ => joinedClause_approximates ih) steps [] _).bind ?_
    exact fun _ => Approximates.refl _

lemma sequence_approximates {few many : Nat} (h : few ≤ many) (o : Nat) :
    Approximates (OnDemand.sequence few o) (OnDemand.sequence many o) := by
  induction many, h using Nat.le_induction with
  | base => exact Approximates.refl _
  | succ many h ih => exact ih.trans (sequence_approximates_succ many o)

lemma query_approximates {few many : Nat} (h : few ≤ many) (start : Nat) :
    Approximates (OnDemand.query few start) (OnDemand.query many start) := by
  unfold OnDemand.query Reader.query
  refine (Approximates.refl _).bind fun o => (sequence_approximates h o).bind ?_
  exact fun _ => Approximates.refl _

/-- **More steps than the source has bytes are as good as any larger number.** -/
theorem query_eq_of_le {c : Setting} {s : State} {few many start : Nat} (placed : s.Placed c)
    (hb : Text.IsBoundary c.source start) (room : Text.byteSize c.source < start + few)
    (h : few ≤ many) : OnDemand.query few start c s = OnDemand.query many start c s := by
  rcases query_approximates h start c s with ⟨cause, fault⟩ | heq
  · have led := query_leads hb room s placed
    rw [fault] at led
    exact led.elim
  · exact heq

/-! ## Reading a source -/

namespace OnDemand

/-- What stands at a place, as it is shown to the reader of a report. -/
def found (c : Setting) (o : Nat) : String :=
  match c.kindAt o with
  | .endOfInput => Kind.endOfInput.description
  | .blank => Kind.blank.description
  | _ => "`" ++ String.ofList (c.textAt o) ++ "`"

/-- The place of a dead end, or the end of the source if none was recorded. -/
def deadEnd (c : Setting) (f : Furthest) : Nat :=
  (f.place.map Prod.snd).getD (Text.byteSize c.source)

/-- The report of a dead end by what stands there. -/
def report (c : Setting) (f : Furthest) : Unexpected where
  span := ⟨deadEnd c f, Text.byteSize (c.textAt (deadEnd c f))⟩
  position := Position.ofOffset c.source (deadEnd c f)
  found := found c (deadEnd c f)
  expected := f.expected

/-- What a reply of the reference comes to. -/
def conclude (c : Setting) : Reply Query → Reading
  | .took query s =>
    let outcome :=
      match s.reached with
      | some cause => .rejected (.limit cause)
      | none => .accepted query
    ⟨outcome, s.log.reverse⟩
  | .refused s =>
    let outcome :=
      match s.reached with
      | some cause => .rejected (.limit cause)
      | none => .rejected (.unexpected (report c s.furthest))
    ⟨outcome, s.log.reverse⟩
  | .fault cause => ⟨.fault cause, []⟩

/-- What the reference replies to a text.  Each step takes at least a byte. -/
def reply (limits : Limits) (text : String) : Reply Query :=
  query (Text.byteSize text.toList + 1) 0 (limits.setting text) (start limits)

/-- Reads a text on demand. -/
def read (limits : Limits) (text : String) : Reading :=
  conclude (limits.setting text) (reply limits text)

/-- Reads a source on demand from a place on. -/
def readFrom (limits : Limits) (source : List Char) (o : Nat) : Reading :=
  let c : Setting := ⟨source, limits.nesting⟩
  conclude c (query (Text.byteSize source + 1) o c (start limits))

end OnDemand

/-- Where and what the lookaheads of a reading saw, in order. -/
def Reading.lookaheads (reading : Reading) : List (Nat × Kind) :=
  reading.events.filterMap fun
    | .lookedAt offset kind => some (offset, kind)
    | _ => none

lemma placed_start (c : Setting) (limits : Limits) : (OnDemand.start limits).Placed c :=
  ⟨nofun, nofun, nofun, nofun⟩

/-- The reference meets no fault, and it ends in a state that points between characters. -/
lemma reply_leads (limits : Limits) (text : String) :
    (OnDemand.reply limits text).Leads (limits.setting text) fun _ => True := by
  have boundary := Text.isBoundary_zero (limits.setting text).source
  refine query_leads boundary ?_ _ (placed_start _ limits)
  rw [Nat.zero_add]
  exact Nat.lt_succ_self _

lemma exists_state_reply (limits : Limits) (text : String) :
    ∃ s, (OnDemand.reply limits text).state? = some s := by
  have led := reply_leads limits text
  cases hr : OnDemand.reply limits text with
  | took q s => exact ⟨s, rfl⟩
  | refused s => exact ⟨s, rfl⟩
  | fault cause =>
    rw [hr] at led
    exact led.elim

/-! ## The same conclusion -/

/-- What is known of the token at a place. -/
lemma Setting.of_tokenAt? {c : Setting} {o : Nat} {token : Token} (h : c.tokenAt? o = some token) :
    token.kind = c.kindAt o ∧ token.span = ⟨o, Text.byteSize (c.textAt o)⟩ ∧
      token.span.slice? c.source = some (c.textAt o) := by
  have hk : c.kindAt o = token.kind := by rw [Setting.kindAt, h]
  rw [Setting.tokenAt?, Setting.lexFrom_eq] at h
  cases hs : Lexeme.scan (c.rest o) with
  | nil =>
    rw [hs] at h
    cases h
  | cons l more =>
    obtain ⟨form, back, hrest, rfl⟩ := Lexeme.scan_eq_cons hs
    obtain ⟨-, ht, -⟩ := Setting.at_lexeme hrest form.ne_nil (hrest ▸ hs)
    rw [hs] at h
    obtain rfl := Option.some.inj h
    have boundary : Text.IsBoundary c.source o :=
      Setting.isBoundary_of_rest_ne_nil (by simp [hrest, form.ne_nil])
    refine ⟨hk.symm, by rw [ht], ?_⟩
    simp [Span.slice?, Setting.dropBytes?_eq_rest boundary, hrest, Text.takeBytes?_append, ht]

lemma OnDemand.found_of_tokenAt? {c : Setting} {o : Nat} {token : Token}
    (h : c.tokenAt? o = some token) : token.shown? c.source = some (OnDemand.found c o) := by
  obtain ⟨hk, -, hslice⟩ := Setting.of_tokenAt? h
  have hend : c.kindAt o ≠ .endOfInput := by
    intro he
    rw [Setting.tokenAt?, Setting.lexFrom_eq, Setting.rest_eq_nil_of_kindAt he] at h
    cases h
  unfold Token.shown? OnDemand.found
  rw [hk, hslice]
  cases hkind : c.kindAt o
  case endOfInput => exact absurd hkind hend
  all_goals rfl

/-- At the end of the source no token stands. -/
lemma Setting.at_of_tokenAt?_eq_none {c : Setting} {o : Nat} (h : c.tokenAt? o = none) :
    c.kindAt o = .endOfInput ∧ c.textAt o = [] := by
  simp [kindAt, textAt, h]

lemma Setting.tokenAt?_byteSize (c : Setting) : c.tokenAt? (Text.byteSize c.source) = none := by
  have whole : c.rest 0 = c.source ++ [] := by simp
  have hrest : c.rest (Text.byteSize c.source) = [] := by simpa using rest_add whole
  rw [tokenAt?, lexFrom_eq, hrest]
  rfl

/-- An index that shows what stands at a place is reported as that place. -/
lemma report?_eq {c : Setting} {tokens : Array Token} {f : Furthest} {pos o : Nat}
    (hplace : f.place.getD (tokens.size, Text.byteSize c.source) = (pos, o))
    (htoken : tokens[pos]? = c.tokenAt? o) :
    f.report? c.source tokens = some
      ⟨⟨o, Text.byteSize (c.textAt o)⟩, Position.ofOffset c.source o, OnDemand.found c o,
        f.expected⟩ := by
  unfold Furthest.report?
  rw [hplace]
  dsimp only
  rw [htoken]
  cases ht : c.tokenAt? o with
  | none =>
    obtain ⟨hk, htext⟩ := Setting.at_of_tokenAt?_eq_none ht
    simp [OnDemand.found, hk, htext, Span.emptyAt]
  | some token =>
    obtain ⟨-, hspan, -⟩ := Setting.of_tokenAt? ht
    simp [OnDemand.found_of_tokenAt? ht, hspan]

/-- **The same dead end is reported the same**, by the index of a token and by a place. -/
lemma report_eq {c : Setting} {tokens : Array Token} {f g : Furthest}
    (h : SameDeadEnd c tokens f g) :
    f.report? c.source tokens = some (OnDemand.report c g) := by
  obtain ⟨hexpected, hplace⟩ := h
  unfold OnDemand.report OnDemand.deadEnd
  rw [← hexpected]
  cases hf : f.place with
  | none =>
    cases hg : g.place with
    | some place => simp [hf, hg] at hplace
    | none =>
      have past : tokens[tokens.size]? = c.tokenAt? (Text.byteSize c.source) := by
        rw [c.tokenAt?_byteSize]
        simp
      exact report?_eq (by rw [hf]; rfl) past
  | some place =>
    obtain ⟨pos, x⟩ := place
    cases hg : g.place with
    | none => simp [hf, hg] at hplace
    | some place =>
      obtain ⟨y, z⟩ := place
      simp only [hf, hg] at hplace
      obtain ⟨-, rfl, faces⟩ := hplace
      exact report?_eq (by rw [hf]; rfl) faces.token

/-- Agreeing replies come to the same outcome, with the same events but for the cuts. -/
lemma conclude_eq {c : Setting} {x y : Reply Query}
    (h : Reply.Both (fun q s q' t => q = q' ∧ Agrees c s t) (Agrees c) x y) :
    (Limits.conclude c.source x).outcome = (OnDemand.conclude c y).outcome ∧
      (Limits.conclude c.source x).events.filter (!·.isRecut) = (OnDemand.conclude c y).events := by
  cases x <;> cases y
  case took.took q s q' t =>
    obtain ⟨rfl, agrees⟩ := h
    unfold Limits.conclude OnDemand.conclude
    refine ⟨?_, ?_⟩
    · cases hr : s.reached <;> simp only [agrees.reached, hr]
    · simp only [agrees.log, List.filter_reverse]
  case refused.refused s t =>
    unfold Limits.conclude OnDemand.conclude
    refine ⟨?_, ?_⟩
    · cases hr : s.reached <;> simp only [Agrees.reached h, report_eq (Agrees.furthest h), hr]
    · simp only [Agrees.log h, List.filter_reverse]
  case fault.fault cause cause' =>
    obtain rfl := h
    exact ⟨rfl, rfl⟩
  all_goals exact h.elim

lemma Reading.lookaheads_eq {r t : Reading} (h : r.events.filter (!·.isRecut) = t.events) :
    r.lookaheads = t.lookaheads := by
  unfold Reading.lookaheads
  rw [← h, List.filterMap_filter]
  congr 1
  funext event
  cases event <;> rfl

/-- **Reading the tokens from a place on is reading on demand from there**, but for the cuts in the
log.  The steps that the run over tokens is granted are more than enough. -/
lemma readTokens_lexFrom (limits : Limits) {source : List Char} {o : Nat}
    (hb : Text.IsBoundary source o) :
    (limits.readTokens source (Token.lexFrom source o)).outcome =
        (OnDemand.readFrom limits source o).outcome ∧
      (limits.readTokens source (Token.lexFrom source o)).events.filter (!·.isRecut) =
        (OnDemand.readFrom limits source o).events := by
  let c : Setting := ⟨source, limits.nesting⟩
  let tokens := (Token.lexFrom source o).toArray
  let s : State := { tokens, lookaheads := limits.lookaheads }
  have agrees : Agrees c s (OnDemand.start limits) :=
    ⟨rfl, rfl, rfl, rfl, ⟨rfl, trivial⟩, o, Setting.tiles_lexFrom (c := c) hb⟩
  have both := query_both agrees (limits.steps source tokens) o hb rfl nofun
  have enough : OnDemand.query (Text.byteSize source + 1) o c (OnDemand.start limits) =
      OnDemand.query (limits.steps source tokens) o c (OnDemand.start limits) := by
    refine query_eq_of_le (placed_start c limits) hb ?_ ?_
    · exact Nat.lt_of_lt_of_le (Nat.lt_succ_self _) (Nat.le_add_left _ _)
    · unfold Limits.steps
      omega
  rw [← enough] at both
  exact conclude_eq both

lemma readTokens_both (limits : Limits) (text : String) :
    (limits.readTokens text.toList (Token.lex text.toList)).outcome =
        (OnDemand.read limits text).outcome ∧
      (limits.readTokens text.toList (Token.lex text.toList)).events.filter (!·.isRecut) =
        (OnDemand.read limits text).events :=
  readTokens_lexFrom limits (Text.isBoundary_zero _)

/-- Reading on demand comes to an answer or to a reason why there is none. -/
lemma outcome_readFrom_ne_fault (limits : Limits) {source : List Char} {o : Nat}
    (hb : Text.IsBoundary source o) (cause : Fault) :
    (OnDemand.readFrom limits source o).outcome ≠ .fault cause := by
  have led : (OnDemand.query (Text.byteSize source + 1) o ⟨source, limits.nesting⟩
      (OnDemand.start limits)).Leads ⟨source, limits.nesting⟩ fun _ => True :=
    query_leads hb (Nat.lt_of_lt_of_le (Nat.lt_succ_self _) (Nat.le_add_left _ _)) _
      (placed_start _ limits)
  unfold OnDemand.readFrom OnDemand.conclude
  dsimp only
  cases hr : OnDemand.query (Text.byteSize source + 1) o ⟨source, limits.nesting⟩
      (OnDemand.start limits) with
  | took q s => cases hs : s.reached <;> simp [hs]
  | refused s => cases hs : s.reached <;> simp [hs]
  | fault cause =>
    rw [hr] at led
    exact led.elim

lemma outcome_read_ne_fault (limits : Limits) (text : String) (cause : Fault) :
    (OnDemand.read limits text).outcome ≠ .fault cause :=
  outcome_readFrom_ne_fault limits (Text.isBoundary_zero _) cause

lemma read_of_le {limits : Limits} {text : String} (h : Text.byteSize text.toList ≤ maxOffset) :
    limits.read text = limits.readTokens text.toList (Token.lex text.toList) :=
  if_neg (not_lt.2 h)

lemma read_of_tooLarge {limits : Limits} {text : String}
    (h : maxOffset < Text.byteSize text.toList) :
    limits.read text = ⟨.rejected (.tooLarge (Text.byteSize text.toList)), []⟩ :=
  if_pos h

/-- A text that is not too large is read on demand. -/
lemma parse_eq_onDemand {limits : Limits} {text : String}
    (h : Text.byteSize text.toList ≤ maxOffset) :
    limits.parse text = (OnDemand.read limits text).outcome := by
  unfold Limits.parse
  rw [read_of_le h, (readTokens_both limits text).1]

lemma parse_of_tooLarge {limits : Limits} {text : String}
    (h : maxOffset < Text.byteSize text.toList) :
    limits.parse text = .rejected (.tooLarge (Text.byteSize text.toList)) := by
  unfold Limits.parse
  rw [read_of_tooLarge h]

/-- How a text that is not too large comes to be rejected: a limit was reached, or there is a dead
end, and the state points between characters in either case. -/
lemma exists_state_of_rejected {limits : Limits} {text : String} {cause : Rejection}
    (hsize : Text.byteSize text.toList ≤ maxOffset) (h : limits.parse text = .rejected cause) :
    ∃ s, (OnDemand.reply limits text).state? = some s ∧ s.Placed (limits.setting text) ∧
      ((∃ limit, s.reached = some limit ∧ cause = .limit limit) ∨
        (s.furthest.place.isSome ∧
          cause = .unexpected (OnDemand.report (limits.setting text) s.furthest))) := by
  have led := reply_leads limits text
  rw [parse_eq_onDemand hsize] at h
  unfold OnDemand.read OnDemand.conclude at h
  cases hr : OnDemand.reply limits text with
  | took q s =>
    rw [hr] at led h
    cases hreached : s.reached with
    | none => simp [hreached] at h
    | some limit =>
      simp only [hreached, Outcome.rejected.injEq] at h
      exact ⟨s, rfl, led.1, Or.inl ⟨limit, hreached, h.symm⟩⟩
  | refused s =>
    rw [hr] at led h
    obtain ⟨placed, stuck⟩ := led
    cases hreached : s.reached with
    | none =>
      simp only [hreached, Outcome.rejected.injEq] at h
      have recorded : s.furthest.place.isSome := stuck.resolve_right (by simp [hreached])
      exact ⟨s, rfl, placed, Or.inr ⟨recorded, h.symm⟩⟩
    | some limit =>
      simp only [hreached, Outcome.rejected.injEq] at h
      exact ⟨s, rfl, placed, Or.inl ⟨limit, hreached, h.symm⟩⟩
  | fault cause =>
    rw [hr] at led
    exact led.elim

/-- How a text comes to be rejected for its grammar: reading refuses without having reached a limit,
and what is reported is its furthest dead end. -/
lemma reply_of_unexpected {limits : Limits} {text : String} {e : Unexpected}
    (h : limits.parse text = .rejected (.unexpected e)) :
    Text.byteSize text.toList ≤ maxOffset ∧
      ∃ s, OnDemand.reply limits text = .refused s ∧ s.Placed (limits.setting text) ∧
        s.reached = none ∧ s.furthest.place.isSome ∧
        e = OnDemand.report (limits.setting text) s.furthest := by
  by_cases hsize : Text.byteSize text.toList ≤ maxOffset
  case neg =>
    rw [parse_of_tooLarge (not_le.1 hsize)] at h
    cases h
  have led := reply_leads limits text
  rw [parse_eq_onDemand hsize] at h
  unfold OnDemand.read OnDemand.conclude at h
  refine ⟨hsize, ?_⟩
  cases hr : OnDemand.reply limits text with
  | took q s =>
    rw [hr] at h
    cases hreached : s.reached <;> simp [hreached] at h
  | refused s =>
    rw [hr] at led h
    obtain ⟨placed, stuck⟩ := led
    cases hreached : s.reached with
    | none =>
      simp only [hreached, Outcome.rejected.injEq, Rejection.unexpected.injEq] at h
      exact ⟨s, rfl, placed, hreached, stuck.resolve_right (by simp [hreached]), h.symm⟩
    | some limit => simp [hreached] at h
  | fault cause =>
    rw [hr] at led
    exact led.elim

/-- A text is rejected for its grammar if reading refuses without having reached a limit. -/
lemma parse_of_refused {limits : Limits} {text : String} {s : State}
    (hsize : Text.byteSize text.toList ≤ maxOffset)
    (h : OnDemand.reply limits text = .refused s) (hreached : s.reached = none) :
    limits.parse text =
      .rejected (.unexpected (OnDemand.report (limits.setting text) s.furthest)) := by
  rw [parse_eq_onDemand hsize]
  simp only [OnDemand.read, h, OnDemand.conclude, hreached]

/-- A text is rejected for the limit that was reached, whatever the reply is. -/
lemma parse_of_reached {limits : Limits} {text : String} {s : State} {cause : LimitReached}
    (hsize : Text.byteSize text.toList ≤ maxOffset)
    (h : (OnDemand.reply limits text).state? = some s) (hreached : s.reached = some cause) :
    limits.parse text = .rejected (.limit cause) := by
  rw [parse_eq_onDemand hsize]
  unfold OnDemand.read OnDemand.conclude
  cases hr : OnDemand.reply limits text with
  | fault cause =>
    rw [hr] at h
    cases h
  | took q s' =>
    rw [hr] at h
    obtain rfl := Option.some.inj h
    simp only [hreached]
  | refused s' =>
    rw [hr] at h
    obtain rfl := Option.some.inj h
    simp only [hreached]

/-- **Reading tokens that were cut beforehand is reading on demand.**  The outcome is the same, up
to the last detail of a report, and so is every lookahead on the way, for all limits; and reading
does come to an outcome. -/
theorem readTokens_eq_onDemand (limits : Limits) (text : String) :
    (limits.readTokens text.toList (Token.lex text.toList)).outcome =
        (OnDemand.read limits text).outcome ∧
      (limits.readTokens text.toList (Token.lex text.toList)).lookaheads =
        (OnDemand.read limits text).lookaheads ∧
      ∀ cause, (limits.readTokens text.toList (Token.lex text.toList)).outcome ≠ .fault cause := by
  obtain ⟨outcome, events⟩ := readTokens_both limits text
  refine ⟨outcome, Reading.lookaheads_eq events, ?_⟩
  rw [outcome]
  exact outcome_read_ne_fault limits text

end SearchQuery
