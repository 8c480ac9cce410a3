import Mathlib.Algebra.Group.Nat.Defs
import SearchQuery.Proofs.Acceptance
import SearchQuery.Proofs.Continuations
import SearchQuery.Proofs.Reference

/-!
# What is expected could have stood there

Wherever a rule cannot go on, what it looked for is recorded, and the records at the furthest place
are reported together.  They come from different rules, some of which were given up long before.
`expected_continues` says that every one of them is nevertheless a real way to go on from there.

`Hints` is the judgement for it: a production that is begun where its part of the grammar is awaited
records only kinds that continue the text.  Nothing is said about its values, since `Ensures` and
`Leads` do so already, and the rule for a bind takes them along.  What was read then goes to the
front of what is awaited next.  That is why giving up a rule does no harm: what a rule records
depends on what is awaited where it begins, and on nothing that is found later.

There are no limits here.  With a limit on lookaheads, a rule would see the end of the input where
there is none, and record what continues nothing.
-/

namespace SearchQuery

/-! ## Hints -/

/-- No limit was reached, and everything that was recorded at the furthest place continues the text
up to there. -/
structure State.Promising (c : Setting) (s : State) : Prop where
  reached : s.reached = none
  lookaheads : s.lookaheads = none
  continues : ∀ x y, s.furthest.place = some (x, y) → ∀ k ∈ s.furthest.expected, Continues c y k

/-- A production that is begun while `e` groups are open records only what continues the text. -/
def Hints {α : Type} (c : Setting) (e : Nat) (p : Production α) : Prop :=
  ∀ s : State, s.depth = e → s.Placed c → s.Promising c →
    ∀ s', (p c s).state? = some s' → s'.Promising c

section rules

variable {α β : Type} {c : Setting} {e o : Nat}

/-- No lookahead is ever lacking. -/
lemma State.Promising.has {s : State} (h : s.Promising c) : s.Has 0 :=
  ⟨h.reached, by simp [h.lookaheads]⟩

lemma State.Promising.recordAt {s : State} (h : s.Promising c) {expected : KindSet}
    (hk : ∀ k ∈ expected, Continues c o k) : (s.recordAt o expected).Promising c := by
  refine ⟨h.reached, h.lookaheads, ?_⟩
  intro x y hxy
  simp only [State.recordAt, Furthest.record] at hxy ⊢
  cases hf : s.furthest.place with
  | none =>
    simp only [hf, Option.some.injEq, Prod.mk.injEq] at hxy
    obtain ⟨-, rfl⟩ := hxy
    exact hk
  | some place =>
    obtain ⟨x', y'⟩ := place
    have before := h.continues x' y' hf
    simp only [hf] at hxy
    dsimp only
    by_cases hlt : o < y'
    · simp only [if_pos hlt] at hxy ⊢
      exact h.continues x y hxy
    · by_cases heq : o = y'
      · -- the same place, where both records hold
        simp only [if_neg hlt, if_pos heq, Option.some.injEq, Prod.mk.injEq] at hxy ⊢
        obtain ⟨-, rfl⟩ := hxy
        intro k mem
        rcases KindSet.mem_union.1 mem with mem | mem
        · exact before k mem
        · exact heq ▸ hk k mem
      · simp only [if_neg hlt, if_neg heq, Option.some.injEq, Prod.mk.injEq] at hxy ⊢
        obtain ⟨-, rfl⟩ := hxy
        exact hk

lemma hints_pure (a : α) : Hints c e (pure a) := by
  intro s _ _ hs s' hs'
  obtain rfl := Option.some.inj hs'
  exact hs

/-- After a production that ensures what it read and leads on, the next one may rely on that. -/
lemma Hints.bind {p : Production α} {f : α → Production β} {P : α → Nat → Prop} {Q : α → Prop}
    (hp : Hints c e p) (sound : Ensures c e p P) (leads : Leads c p Q)
    (hf : ∀ a k, P a k → Q a → Hints c e (f a)) : Hints c e (p >>= f) := by
  intro s depth placed hs s' hs'
  have promising := hp s depth placed hs
  have paid := sound s depth
  have led := leads s placed
  rcases state?_bind hs' with ⟨a, s₁, hr, hs'⟩ | hr
  · rw [hr] at promising paid led
    have hs₁ := promising s₁ rfl
    obtain ⟨k, -, ha⟩ := paid.2 0 hs₁.has
    exact hf a k ha led.2 s₁ paid.1 led.1 hs₁ s' hs'
  · exact promising s' (by rw [hr]; rfl)

/-- What follows a production may leave the state alone. -/
lemma Hints.silent {p : Production α} {f : α → Production β} (hp : Hints c e p)
    (hf : ∀ a s, (f a c s).state? = some s) : Hints c e (p >>= f) := by
  intro s depth placed hs s' hs'
  have promising := hp s depth placed hs
  rcases state?_bind hs' with ⟨a, s₁, hr, hs'⟩ | hr
  · rw [hf a s₁] at hs'
    exact promising s' (by rw [hr]; exact hs')
  · exact promising s' (by rw [hr]; rfl)

/-- Without limits, a lookahead sees what stands there and changes nothing but the log. -/
lemma hints_lookAt_bind {f : Kind → Production α}
    (hf : ∀ kind, c.kindAt o = kind → Hints c e (f kind)) :
    Hints c e (OnDemand.lookAt o >>= f) := by
  intro s depth placed hs s' hs'
  have spent : s.spendAt o = s := by
    unfold State.spendAt
    rw [hs.lookaheads]
  have seen : OnDemand.kindSeen c s o = c.kindAt o := by
    unfold OnDemand.kindSeen
    rw [hs.reached]
  have looked : OnDemand.lookAt o c s =
      .took (c.kindAt o) { s with log := .lookedAt o (c.kindAt o) :: s.log } := by
    unfold OnDemand.lookAt
    rw [spent]
    simp only [seen]
  rw [Production.bind_of_took looked] at hs'
  exact hf _ rfl { s with log := .lookedAt o (c.kindAt o) :: s.log } depth
    ⟨placed.furthest, placed.expected, placed.lookaheads, placed.nesting⟩
    ⟨hs.reached, hs.lookaheads, hs.continues⟩ s' hs'

lemma hints_next_bind {f : Nat → Production α} (h : Hints c e (f (c.next o))) :
    Hints c e (OnDemand.next o >>= f) := h

lemma hints_next : Hints c e (OnDemand.next o) := by
  intro s _ _ hs s' hs'
  obtain rfl := Option.some.inj hs'
  exact hs

lemma hints_textAt_bind {f : List Char → Production α} (h : Hints c e (f (c.textAt o))) :
    Hints c e (OnDemand.textAt o >>= f) := h

lemma hints_miss {expected : KindSet} {p : Production α} (he : ∃ k, k ∈ expected)
    (hk : ∀ k ∈ expected, Continues c o k) (hp : Hints c e p) :
    Hints c e (OnDemand.miss o expected >>= fun _ => p) := by
  obtain ⟨k, mem⟩ := he
  obtain ⟨u, upto, -⟩ := hk k mem
  intro s depth placed hs s' hs'
  exact hp (s.recordAt o expected) depth (placed.recordAt upto.boundary ⟨k, mem⟩) (hs.recordAt hk)
    s' hs'

lemma hints_missOnly {kind : Kind} {p : Production α} (hk : Continues c o kind)
    (hp : Hints c e p) : Hints c e (OnDemand.miss o (.only kind) >>= fun _ => p) := by
  refine hints_miss (exists_mem_only kind) ?_ hp
  intro k mem
  rwa [KindSet.mem_only.1 mem]

lemma hints_refuseAt {expected : KindSet} (hk : ∀ k ∈ expected, Continues c o k) :
    Hints c e (OnDemand.refuseAt o expected : Production α) := by
  intro s _ _ hs s' hs'
  obtain rfl := Option.some.inj hs'
  exact hs.recordAt hk

lemma hints_refuseOnly {kind : Kind} (hk : Continues c o kind) :
    Hints c e (OnDemand.refuseAt o (.only kind) : Production α) := by
  refine hints_refuseAt ?_
  intro k mem
  rwa [KindSet.mem_only.1 mem]

lemma hints_expect {kind : Kind} (hk : c.kindAt o ≠ kind → Continues c o kind) :
    Hints c e (OnDemand.expect o kind) := by
  unfold OnDemand.expect Cursor.expect
  refine hints_lookAt_bind fun seen hseen => ?_
  split_ifs with h
  · exact hints_next
  · exact hints_refuseOnly (hk (by rwa [hseen]))

lemma hints_skipBlank : Hints c e (OnDemand.skipBlank o) := by
  unfold OnDemand.skipBlank Cursor.skipBlank
  refine hints_lookAt_bind fun seen _ => ?_
  split_ifs
  · exact hints_next
  · exact hints_pure o

/-- Where nothing limits nesting, a group is opened. -/
lemma hints_nested {p : Production α} (hc : c.nestingLimit = none) (hp : Hints c (e + 1) p) :
    Hints c e (Production.nestedAt o p) := by
  intro s depth placed hs s' hs'
  have room : c.fullAt s.depth = none := by
    unfold Setting.fullAt
    rw [hc]
  have opened : State.Promising c { s with depth := s.depth + 1 } :=
    ⟨hs.reached, hs.lookaheads, hs.continues⟩
  have promising := hp { s with depth := s.depth + 1 } (by rw [depth]) (placed.withDepth _) opened
  rw [Production.nestedAt_of_free room] at hs'
  obtain ⟨s₁, h₁, rfl⟩ := state?_closed hs'
  have hs₁ := promising s₁ h₁
  exact ⟨hs₁.reached, hs₁.lookaheads, hs₁.continues⟩

end rules

/-! ## Values -/

variable {c : Setting} {e o : Nat}

lemma term_hints {field : Option String} (h : Awaits c e o (IsValue field))
    (hk : c.kindAt o = .word) : Hints c e (OnDemand.term o) := by
  obtain ⟨form, after⟩ := h.token hk (by simp)
  unfold OnDemand.term Cursor.term
  refine hints_textAt_bind (hints_next_bind (hints_lookAt_bind fun seen _ => ?_))
  split_ifs
  · exact hints_textAt_bind (hints_next_bind (hints_pure _))
  · refine hints_missOnly ?_ (hints_pure _)
    have scanned : Lexeme.scan ['~'] = [⟨.fuzzy, ['~']⟩] := by decide
    have similar : IsValue field (c.textAt o ++ (['~'] ++ [])) :=
      .atom (.term_ofList form (.present .default))
    exact after.continues (by simp) scanned similar (by decide)

lemma phrase_hints {field : Option String} (h : Awaits c e o (IsValue field))
    (hk : c.kindAt o = .phrase) : Hints c e (OnDemand.phrase o) := by
  obtain ⟨⟨text, htext, quoted⟩, after⟩ := h.token hk (by simp)
  have near : IsValue field (c.textAt o ++ (['~', '1'] ++ [])) := by
    rw [htext]
    exact .atom (.phrase_ofList quoted
      (.present (⟨isDigits_of_all (by simp) (by decide), rfl⟩ : DistanceText "1" ['~', '1'])))
  have fuzzy : Continues c (c.next o) .fuzzy := by
    have scanned : Lexeme.scan ['~', '1'] = [⟨.fuzzy, ['~', '1']⟩] := by decide
    exact after.continues (by simp) scanned near (by decide)
  have distance : Continues c (c.next o) .distance :=
    after.continues (by simp) ⟨['1'], isDigits_of_all (by simp) (by decide), rfl⟩ near (by decide)
  unfold OnDemand.phrase Cursor.phrase
  refine hints_textAt_bind (hints_next_bind (hints_lookAt_bind fun seen _ => ?_))
  split_ifs
  · refine hints_textAt_bind ?_
    dsimp only
    split_ifs
    · exact hints_next_bind (hints_pure _)
    · exact hints_missOnly distance (hints_pure _)
  · exact hints_missOnly fuzzy (hints_pure _)

lemma bound_hints (h : Continues c o .rangeBound) : Hints c e (OnDemand.bound o) := by
  intro s depth placed hs s' hs'
  cases hw : (c.rest o).takeWhile (!endsBound ·) with
  | nil =>
    rw [OnDemand.bound_of_nil hw] at hs'
    exact hints_refuseOnly h s depth placed hs s' hs'
  | cons first more =>
    rw [OnDemand.bound_of_cons hw] at hs'
    obtain rfl := Option.some.inj hs'
    exact hs

lemma rangeTo_hints (h : Continues c o .rangeTo) : Hints c e (OnDemand.rangeTo o) := by
  unfold OnDemand.rangeTo Cursor.rangeTo
  refine hints_lookAt_bind fun seen _ => ?_
  split_ifs
  · refine hints_textAt_bind ?_
    split_ifs
    · exact hints_next
    · exact hints_refuseOnly h
  · exact hints_refuseOnly h

/-- At a place in a range after `z`, a range that goes on from there is awaited. -/
def AwaitsRange (c : Setting) (e o : Nat) (field : Option String) (opening : Char)
    (z : List Char) : Prop :=
  Awaits c e o fun x => IsValue field (opening :: (z ++ x))

section range

variable {field : Option String} {opening closing : Char} {z w : List Char} {o' : Nat}

lemma AwaitsRange.advance (h : AwaitsRange c e o field opening z) (hw : c.Between o w o')
    (hb : Text.IsBoundary c.source o') : AwaitsRange c e o' field opening (z ++ w) := by
  refine Awaits.advance h hw hb ?_
  intro x hx
  rwa [List.append_assoc] at hx

lemma AwaitsRange.token (h : AwaitsRange c e o field opening z) {k : Kind} (hk : c.kindAt o = k)
    (hne : k ≠ .endOfInput) : k.Form (c.textAt o) ∧
      AwaitsRange c e (c.next o) field opening (z ++ c.textAt o) := by
  obtain ⟨between, form⟩ := Setting.Between.token hk hne
  exact ⟨form, h.advance between (Setting.isBoundary_next (Awaits.boundary h))⟩

/-- A lexeme continues a range if a few characters complete it. -/
lemma AwaitsRange.continues (h : AwaitsRange c e o field opening z) {k : Kind} {t : List Char}
    (hk : k ≠ .endOfInput) (hw : k.IsLexeme w) (one : closing.utf8Size = 1)
    (hrange : IsValue field (opening :: (z ++ (w ++ t) ++ [closing])))
    (hsize : Text.byteSize (w ++ t) ≤ 7) : Continues c o k := by
  have whole : IsValue field (opening :: (z ++ (w ++ (t ++ [closing])))) := by simpa using hrange
  refine Awaits.continues h hk hw whole ?_
  rw [← List.append_assoc, Text.byteSize_append, Text.byteSize_cons, one, Text.byteSize_nil]
  omega

lemma Brackets.utf8Size {inclusive : Bool} (h : Brackets inclusive opening closing) :
    closing.utf8Size = 1 := by
  cases h <;> decide

/-- At each place in a range, bounds `a` and single blanks complete what was read. -/
lemma rangeAfter_hints (hasField : field ≠ none) {inclusive : Bool}
    (brackets : Brackets inclusive opening closing) {kind : Kind} (hne : kind ≠ .endOfInput)
    (lexeme : kind.IsLexeme [closing]) (h : AwaitsRange c e o field opening []) :
    Hints c e (OnDemand.rangeAfter o inclusive kind) := by
  have one := brackets.utf8Size
  unfold OnDemand.rangeAfter Reader.rangeAfter
  refine hints_skipBlank.bind ensures_skipBlank (leads_skipBlank (Awaits.boundary h)) ?_
  rintro o₁ - ⟨-, u, gap, hu⟩ ahead₁
  have h₁ := h.advance hu ahead₁.boundary
  refine (bound_hints ?_).bind bound_sound (bound_leads ahead₁.boundary) ?_
  · refine h₁.continues (by simp) isBound_a one (t := [' ', 'T', 'O', ' ', 'a']) ?_ (by decide)
    simpa using isValue_range hasField brackets gap isBound_a isBlanks_blank isBlanks_blank
      isBound_a isGap_nil
  rintro ⟨low, o₂⟩ - ⟨hlow, blow⟩ ahead₂
  have h₂ := h₁.advance blow ahead₂.boundary
  refine (hints_expect fun _ => ?_).bind ensures_expect (leads_expect (by simp) ahead₂.boundary) ?_
  · refine h₂.continues (by simp) isLexeme_space one (t := ['T', 'O', ' ', 'a']) ?_ (by decide)
    simpa using isValue_range hasField brackets gap hlow isBlanks_blank isBlanks_blank isBound_a
      isGap_nil
  rintro _ - ⟨-, hblank, rfl⟩ ahead₃
  obtain ⟨blanks, h₃⟩ := h₂.token hblank (by simp)
  refine (rangeTo_hints ?_).bind rangeTo_sound (rangeTo_leads ahead₃.boundary) ?_
  · refine h₃.continues (by simp) rfl one (t := [' ', 'a']) ?_ (by decide)
    simpa using isValue_range hasField brackets gap hlow blanks isBlanks_blank isBound_a isGap_nil
  rintro o₄ - ⟨-, bto⟩ ahead₄
  have h₄ := h₃.advance bto ahead₄.boundary
  refine (hints_expect fun _ => ?_).bind ensures_expect (leads_expect (by simp) ahead₄.boundary) ?_
  · refine h₄.continues (by simp) isLexeme_space one (t := ['a']) ?_ (by decide)
    simpa using isValue_range hasField brackets gap hlow blanks isBlanks_blank isBound_a isGap_nil
  rintro _ - ⟨-, hblank', rfl⟩ ahead₅
  obtain ⟨blanks', h₅⟩ := h₄.token hblank' (by simp)
  refine (bound_hints ?_).bind bound_sound (bound_leads ahead₅.boundary) ?_
  · refine h₅.continues (by simp) isBound_a one (t := []) ?_ (by decide)
    simpa using isValue_range hasField brackets gap hlow blanks blanks' isBound_a isGap_nil
  rintro ⟨high, o₆⟩ - ⟨hhigh, bhigh⟩ ahead₆
  have h₆ := h₅.advance bhigh ahead₆.boundary
  refine hints_skipBlank.bind ensures_skipBlank (leads_skipBlank ahead₆.boundary) ?_
  rintro o₇ - ⟨-, x, gap', hx⟩ ahead₇
  have h₇ := h₆.advance hx ahead₇.boundary
  refine (hints_expect fun _ => ?_).silent fun _ _ => rfl
  refine Awaits.continues h₇ hne lexeme (t := []) ?_ ?_
  · simpa using isValue_range hasField brackets gap hlow blanks blanks' hhigh gap'
  · simp [one]

lemma Awaits.openBracket (hasField : field ≠ none) (h : Awaits c e o (IsValue field)) :
    Continues c o .openBracket := by
  have scanned : Lexeme.scan ['['] = [⟨.openBracket, ['[']⟩] := by decide
  exact h.continues (by simp) scanned (t := ['a', ' ', 'T', 'O', ' ', 'a', ']'])
    (isValue_range hasField .inclusive isGap_nil isBound_a isBlanks_blank isBlanks_blank isBound_a
      isGap_nil) (by decide)

lemma Awaits.openBrace (hasField : field ≠ none) (h : Awaits c e o (IsValue field)) :
    Continues c o .openBrace := by
  have scanned : Lexeme.scan ['\x7b'] = [⟨.openBrace, ['\x7b']⟩] := by decide
  exact h.continues (by simp) scanned (t := ['a', ' ', 'T', 'O', ' ', 'a', '\x7d'])
    (isValue_range hasField .exclusive isGap_nil isBound_a isBlanks_blank isBlanks_blank isBound_a
      isGap_nil) (by decide)

lemma range_hints (hasField : field ≠ none) (h : Awaits c e o (IsValue field)) :
    Hints c e (OnDemand.range o) := by
  -- never reached from a clause, which sees the bracket first
  have neither : Hints c e (OnDemand.refuseAt o (.ofList [.openBracket, .openBrace]) :
      Production (Production.Taken Atom)) := by
    refine hints_refuseAt ?_
    simp only [KindSet.mem_ofList, List.forall_mem_cons]
    exact ⟨h.openBracket hasField, h.openBrace hasField, List.forall_mem_nil _⟩
  unfold OnDemand.range Reader.range
  refine hints_lookAt_bind fun seen hseen => ?_
  cases seen
  case openBracket =>
    have closing : Lexeme.scan [']'] = [⟨.closeBracket, [']']⟩] := by decide
    obtain ⟨form, after⟩ := h.token hseen (by simp)
    rw [show c.textAt o = ['['] from form] at after
    exact hints_next_bind (rangeAfter_hints hasField .inclusive (by simp) closing after)
  case openBrace =>
    have closing : Lexeme.scan ['\x7d'] = [⟨.closeBrace, ['\x7d']⟩] := by decide
    obtain ⟨form, after⟩ := h.token hseen (by simp)
    rw [show c.textAt o = ['\x7b'] from form] at after
    exact hints_next_bind (rangeAfter_hints hasField .exclusive (by simp) closing after)
  all_goals exact neither

end range

/-! ## Groups and clauses -/

/-- What is known of the production for the sequence in a group that is opened after a place. -/
structure InnerHints (c : Setting) (o : Nat) (inner : Nat → Production (Production.Taken Query)) :
    Prop where
  sound : InnerSound c inner
  leads : InnerLeads c o inner
  hints : ∀ {e o' : Nat}, c.Past o o' → Awaits c e o' IsBody → Hints c e (inner o')

lemma InnerHints.onward {inner : Nat → Production (Production.Taken Query)} {o' : Nat}
    (h : InnerHints c o inner) (ho : c.Onward o o') : InnerHints c o' inner :=
  ⟨h.sound, h.leads.onward ho, fun past => h.hints (ho.trans_past past)⟩

section inner

variable {inner : Nat → Production (Production.Taken Query)} (hc : c.nestingLimit = none)

include hc

lemma group_hints (hinner : InnerHints c o inner) {field : Option String}
    (h : Awaits c e o (IsValue field)) (hk : c.kindAt o = .openParen) :
    Hints c e (OnDemand.group inner o) := by
  unfold OnDemand.group Reader.group
  refine hints_nested hc ?_
  refine (hints_expect fun hne => absurd hk hne).bind ensures_expect
    (leads_expect (by simp) h.boundary) ?_
  rintro _ - ⟨-, -, rfl⟩ ahead₁
  refine hints_skipBlank.bind ensures_skipBlank (leads_skipBlank ahead₁.boundary) ?_
  rintro o₂ - ⟨-, u, gap, hu⟩ ahead₂
  have past := ahead₁.trans_onward ahead₂
  have h₂ : Awaits c (e + 1) o₂ IsBody :=
    (h.enter hk).advance hu ahead₂.boundary fun x hx => ⟨u, x, gap, hx, rfl⟩
  refine (hinner.hints past h₂).bind (hinner.sound _ _) (hinner.leads o₂ past) ?_
  rintro ⟨body, o₃⟩ - ⟨v, hv, text, -, -⟩ ahead₃
  have h₃ := h₂.advance hv ahead₃.boundary fun _ hx => hx
  refine hints_skipBlank.bind ensures_skipBlank (leads_skipBlank ahead₃.boundary) ?_
  rintro o₄ - ⟨-, w, gap', hw⟩ ahead₄
  have h₄ := h₃.advance hw ahead₄.boundary fun _ hx => hx
  have closed : IsBody (v ++ (w ++ [])) := ⟨body, v, w, text, gap', by simp⟩
  exact (hints_expect fun _ => h₄.closes closed).silent fun _ _ => rfl

omit hc in
lemma marker_hints : Hints c e (OnDemand.marker o) := by
  unfold OnDemand.marker Cursor.marker
  refine hints_lookAt_bind fun seen _ => ?_
  cases seen
  case plus => exact hints_next_bind (hints_pure _)
  case minus => exact hints_next_bind (hints_pure _)
  all_goals exact hints_pure _

omit hc in
lemma field_hints : Hints c e (OnDemand.field o) := by
  unfold OnDemand.field Cursor.field
  refine hints_lookAt_bind fun seen _ => ?_
  split_ifs
  · refine hints_next_bind (hints_lookAt_bind fun seen' _ => ?_)
    split_ifs
    · refine hints_textAt_bind ?_
      split_ifs
      · exact hints_pure _
      · exact hints_next_bind (hints_pure _)
    · exact hints_pure _
  · exact hints_pure _

omit hc in
lemma boost_hints (h : Continues c o .boost) : Hints c e (OnDemand.boost o) := by
  unfold OnDemand.boost Cursor.boost
  refine hints_lookAt_bind fun seen _ => ?_
  split_ifs
  · exact hints_textAt_bind (hints_next_bind (hints_pure _))
  · exact hints_missOnly h (hints_pure _)

omit hc in
/-- Whatever may start a value continues the text where one is awaited. -/
lemma continues_valueStart {field : Option String} {marker : Option Marker}
    (h : Awaits c e o (IsValue field))
    (hsign : field = none → marker = none → Continues c o .plus ∧ Continues c o .minus) :
    ∀ k ∈ Production.valueStart field marker, Continues c o k := by
  have paren : Lexeme.scan ['('] = [⟨.openParen, ['(']⟩] := by decide
  have quotes : Lexeme.scan ['"', '"'] = [⟨.phrase, ['"', '"']⟩] := by decide
  have letter : Lexeme.scan ['a'] = [⟨.word, ['a']⟩] := by decide
  have openParen : Continues c o .openParen :=
    h.continues (by simp) paren (t := ['a', ')']) (isValue_group field) (by decide)
  have phrase : Continues c o .phrase :=
    h.continues (by simp) quotes (t := []) (isValue_phrase field) (by decide)
  have word : Continues c o .word :=
    h.continues (by simp) letter (t := []) (isValue_a field) (by decide)
  cases field with
  | some name =>
    have hasField := Option.some_ne_none name
    simp only [Production.valueStart, KindSet.fieldValueStart, KindSet.mem_ofList,
      List.forall_mem_cons]
    exact ⟨openParen, h.openBracket hasField, h.openBrace hasField, phrase, word,
      List.forall_mem_nil _⟩
  | none =>
    cases marker with
    | some marker =>
      simp only [Production.valueStart, KindSet.coreStart, KindSet.mem_ofList, List.forall_mem_cons]
      exact ⟨openParen, phrase, word, List.forall_mem_nil _⟩
    | none =>
      obtain ⟨plus, minus⟩ := hsign rfl rfl
      simp only [Production.valueStart, KindSet.clauseStart, KindSet.mem_ofList,
        List.forall_mem_cons]
      exact ⟨openParen, plus, minus, phrase, word, List.forall_mem_nil _⟩

lemma value_hints (hinner : InnerHints c o inner) {field : Option String} {marker : Option Marker}
    (h : Awaits c e o (IsValue field))
    (hsign : field = none → marker = none → Continues c o .plus ∧ Continues c o .minus) :
    Hints c e (OnDemand.value inner field marker o) := by
  have refuses : Hints c e (OnDemand.refuseAt o (Production.valueStart field marker) :
      Production (Production.Taken (Modifiers → Clause))) :=
    hints_refuseAt (continues_valueStart h hsign)
  unfold OnDemand.value Reader.value
  refine hints_lookAt_bind fun seen hseen => ?_
  cases seen
  case word => exact (term_hints h hseen).silent fun _ _ => rfl
  case phrase => exact (phrase_hints h hseen).silent fun _ _ => rfl
  case openParen => exact (group_hints hc hinner h hseen).silent fun _ _ => rfl
  case openBracket =>
    cases field with
    | none => exact refuses
    | some name => exact (range_hints (Option.some_ne_none name) h).silent fun _ _ => rfl
  case openBrace =>
    cases field with
    | none => exact refuses
    | some name => exact (range_hints (Option.some_ne_none name) h).silent fun _ _ => rfl
  all_goals exact refuses

omit hc in
lemma ValueRead.text {field : Option String} {a : Production.Taken (Modifiers → Clause)} {k : Nat}
    (h : ValueRead c e o field a k) : ∃ w, c.Between o w a.2 ∧ IsValue field w := by
  cases h with
  | atom read =>
    obtain ⟨w, between, text⟩ := read.text
    exact ⟨w, between, .atom text⟩
  | group read =>
    obtain ⟨u, v, w, gap, text, gap', between, -, -⟩ := read
    exact ⟨_, between, .group gap text gap'⟩

lemma clause_hints (hinner : InnerHints c o inner) {operator : Option Operator}
    (h : Awaits c e o (IsClause operator)) : Hints c e (OnDemand.clause inner operator o) := by
  unfold OnDemand.clause Reader.clause
  refine marker_hints.bind marker_sound (marker_leads h.boundary) ?_
  rintro ⟨marker, o₁⟩ - ⟨-, u, hu, tu⟩ ahead₁
  have h₁ := h.advance hu ahead₁.boundary fun _ hx => hx
  refine field_hints.bind field_sound (field_leads ahead₁.boundary) ?_
  rintro ⟨field, o₂⟩ - ⟨-, -, v, hv, tv⟩ ahead₂
  have h₂ := h₁.advance hv ahead₂.boundary fun _ hx => hx
  have onward := ahead₁.trans ahead₂
  have value : Awaits c e o₂ (IsValue field) := by
    refine h₂.mono fun x hx => ?_
    have clause := hx.clause tu tv (@PartText.absent String _) operator
    simpa using clause
  -- a sign is expected only if nothing of the clause was read, and the clause is awaited whole
  have signs : field = none → marker = none → Continues c o₂ .plus ∧ Continues c o₂ .minus := by
    rintro rfl rfl
    cases tu
    cases tv
    have plus : Lexeme.scan ['+'] = [⟨.plus, ['+']⟩] := by decide
    have minus : Lexeme.scan ['-'] = [⟨.minus, ['-']⟩] := by decide
    exact ⟨h₂.continues (by simp) plus (t := ['a'])
        ((isValue_a none).clause (.present .required) .absent (@PartText.absent String _) operator)
        (by decide),
      h₂.continues (by simp) minus (t := ['a'])
        ((isValue_a none).clause (.present .prohibited) .absent (@PartText.absent String _)
          operator) (by decide)⟩
  have inner₂ := hinner.onward onward
  refine (value_hints hc inner₂ value signs).bind (value_sound hinner.sound field marker)
    (value_leads inner₂.leads ahead₂.boundary field marker) ?_
  rintro ⟨make, o₃⟩ k read ahead₃
  obtain ⟨w, hw, tw⟩ := read.text
  have h₃ := h₂.advance hw ahead₃.boundary fun _ hx => hx
  refine (boost_hints ?_).silent fun _ _ => rfl
  have scanned : Lexeme.scan ['^', '1'] = [⟨.boost, ['^', '1']⟩] := by decide
  have boosted : BoostText "1" ['^', '1'] := ⟨isNumber_one, rfl⟩
  have clause := tw.clause tu tv (.present boosted) operator
  exact h₃.continues (by simp) scanned (t := []) (by simpa using clause) (by decide)

/-! ## Sequences -/

lemma afterBlank_hints (hinner : InnerHints c o inner) {b : List Char} (blanks : IsBlanks b)
    (h : Awaits c e o fun x => IsTail (b ++ x)) : Hints c e (OnDemand.afterBlank inner o) := by
  unfold OnDemand.afterBlank Reader.afterBlank
  refine hints_lookAt_bind fun seen hseen => ?_
  cases hop : Production.operatorOf? seen with
  | none =>
    have keywordAnd : Lexeme.scan ['A', 'N', 'D'] = [⟨.keywordAnd, ['A', 'N', 'D']⟩] := by decide
    have keywordOr : Lexeme.scan ['O', 'R'] = [⟨.keywordOr, ['O', 'R']⟩] := by decide
    have keywordNot : Lexeme.scan ['N', 'O', 'T'] = [⟨.keywordNot, ['N', 'O', 'T']⟩] := by decide
    have joined : ∀ {operator : Operator} {w : List Char}, KeywordText operator w →
        IsTail (b ++ (w ++ [' ', 'a'])) := by
      intro operator w keyword
      simpa using isTail_of_isClause (.keyword blanks keyword isBlanks_blank)
        (isClause_a (some operator))
    refine hints_miss ⟨.keywordAnd, by decide⟩ ?_ (clause_hints hc hinner (h.mono ?_))
    · simp only [KindSet.keywords, KindSet.mem_ofList, List.forall_mem_cons]
      exact ⟨h.continues (by simp) keywordAnd (joined .and) (by decide),
        h.continues (by simp) keywordOr (joined .or) (by decide),
        h.continues (by simp) keywordNot (joined .not) (by decide), List.forall_mem_nil _⟩
    · exact fun x hx => isTail_of_isClause (.blank blanks) hx
  | some operator =>
    have hend : seen ≠ .endOfInput := OnDemand.ne_of_operatorOf? hop rfl
    obtain ⟨form, h₁⟩ := h.token hseen hend
    have keyword := keywordText_of_form hop form
    have ahead₁ := Setting.past_next h.boundary (by rw [hseen]; exact hend)
    refine hints_next_bind ((hints_expect fun _ => ?_).bind ensures_expect
      (leads_expect (by simp) ahead₁.boundary) ?_)
    · refine h₁.continues (by simp) isLexeme_space (t := ['a']) ?_ (by decide)
      simpa using isTail_of_isClause (.keyword blanks keyword isBlanks_blank)
        (isClause_a (some operator))
    · rintro _ - ⟨-, hblank, rfl⟩ ahead₂
      obtain ⟨blanks', h₂⟩ := h₁.token hblank (by simp)
      refine clause_hints hc (hinner.onward (ahead₁.trans ahead₂).onward) (h₂.mono fun x hx => ?_)
      simpa using isTail_of_isClause (.keyword blanks keyword blanks') hx

lemma joinedClause_hints (hinner : InnerHints c o inner) (h : Awaits c e o IsTail) :
    Hints c e (OnDemand.joinedClause inner o) := by
  unfold OnDemand.joinedClause Reader.joinedClause
  refine (hints_expect fun _ => ?_).bind ensures_expect (leads_expect (by simp) h.boundary) ?_
  · exact h.continues (by simp) isLexeme_space (t := ['a'])
      (isTail_of_isClause (.blank isBlanks_blank) (isClause_a none)) (by decide)
  · rintro _ - ⟨-, hblank, rfl⟩ ahead
    obtain ⟨blanks, after⟩ := h.token hblank (by simp)
    exact afterBlank_hints hc (hinner.onward ahead.onward) blanks after

/-- Every further clause that was read goes to the front of what may follow. -/
lemma moreClauses_hints {start : Nat} (hinner : InnerHints c start inner) (steps : Nat)
    (found : List Clause) (ho : c.Onward start o) (h : Awaits c e o IsTail) :
    Hints c e (Production.moreClauses (OnDemand.joinedClause inner) steps found o) := by
  induction steps generalizing found o with
  | zero =>
    intro s _ _ _ s' hs'
    cases hs'
  | succ steps ih =>
    intro s depth placed hs s' hs'
    have inner_o := hinner.onward ho
    have promising := joinedClause_hints hc inner_o h s depth placed hs
    have paid := @joinedClause_sound c e o inner hinner.sound s depth
    have led := joinedClause_leads inner_o.leads ho.boundary s placed
    rcases state?_moreClauses hs' with ⟨a, s₁, hr, hs'⟩ | hr
    · rw [hr] at promising paid led
      have hs₁ := promising s₁ rfl
      obtain ⟨k, -, ⟨u, v, huv, joint, text⟩, -, -⟩ := paid.2 0 hs₁.has
      have after : Awaits c e a.2 IsTail :=
        h.advance huv led.2.boundary fun x hx => hx.cons joint ⟨a.1, rfl, text⟩
      exact ih (a.1 :: found) (ho.trans led.2.onward) after s₁ paid.1 led.1 hs₁ s' hs'
    · exact promising s' (by rw [hr]; rfl)

/-- **A sequence records only what continues the text**, where a sequence is awaited. -/
theorem sequence_hints (steps : Nat) (room : Text.byteSize c.source < o + steps)
    (h : Awaits c e o IsBody) : Hints c e (OnDemand.sequence steps o) := by
  induction steps generalizing e o with
  | zero =>
    intro s _ _ _ s' hs'
    cases hs'
  | succ steps ih =>
    have inner : InnerHints c o (OnDemand.sequence steps) := by
      refine ⟨sequence_sound c steps, ?_, ?_⟩
      · intro o' past
        have := past.lt
        exact sequence_leads steps past.boundary (by omega)
      · intro e' o' past
        have := past.lt
        exact ih (by omega)
    have first : Awaits c e o (IsClause none) := by
      refine h.mono fun x hx => ?_
      have body := hx.body (isTail_of_isGap isGap_nil)
      rwa [List.append_nil] at body
    unfold OnDemand.sequence Reader.sequence
    refine (clause_hints hc inner first).bind (clause_sound inner.sound none)
      (clause_leads inner.leads h.boundary none) ?_
    rintro ⟨clause, o₁⟩ - ⟨unjoined, ⟨v, hv, text⟩, -, -⟩ ahead
    have tail : Awaits c e o₁ IsTail :=
      h.advance hv ahead.boundary fun x hx => IsClause.body ⟨clause, unjoined, text⟩ hx
    exact (moreClauses_hints hc inner steps [] ahead.onward tail).silent fun _ _ => rfl

/-- **A query records only what continues the text.** -/
theorem query_hints (steps : Nat) (room : Text.byteSize c.source < steps) :
    Hints c 0 (OnDemand.query steps 0) := by
  have start : Awaits c 0 0 IsInner := by
    refine ⟨le_rfl, [], ⟨by simp, rfl⟩, fun x hx => ?_⟩
    simpa using hx.derives
  unfold OnDemand.query Reader.query
  refine hints_skipBlank.bind ensures_skipBlank (leads_skipBlank start.boundary) ?_
  rintro o₁ - ⟨-, u, gap, hu⟩ ahead₁
  have h₁ : Awaits c 0 o₁ IsBody :=
    start.advance hu ahead₁.boundary fun x hx => ⟨u, x, gap, hx, rfl⟩
  have room₁ : Text.byteSize c.source < o₁ + steps := by omega
  refine (sequence_hints hc steps room₁ h₁).bind (sequence_sound c steps 0 o₁)
    (sequence_leads steps ahead₁.boundary room₁) ?_
  rintro ⟨q, o₂⟩ - ⟨v, hv, text, -, -⟩ ahead₂
  have h₂ := h₁.advance hv ahead₂.boundary fun _ hx => hx
  refine hints_skipBlank.bind ensures_skipBlank (leads_skipBlank ahead₂.boundary) ?_
  rintro o₃ - ⟨-, w, gap', hw⟩ ahead₃
  have h₃ := h₂.advance hw ahead₃.boundary fun _ hx => hx
  have closed : IsBody (v ++ (w ++ [])) := ⟨q, v, w, text, gap', by simp⟩
  refine hints_lookAt_bind fun seen _ => ?_
  split_ifs
  · exact hints_pure q
  · exact hints_refuseOnly (h₃.ends closed)

end inner

/-! ## The report -/

/-- The report of a dead end without limits is of the furthest place that was recorded, and what is
expected there continues the text. -/
lemma continues_of_rejected {text : String} {e : Unexpected}
    (h : Limits.unlimited.parse text = .rejected (.unexpected e)) :
    (∃ k, k ∈ e.expected) ∧
      ∀ k ∈ e.expected, Continues (Limits.unlimited.setting text) e.span.start k := by
  by_cases hsize : Text.byteSize text.toList ≤ maxOffset
  · obtain ⟨s, hs, placed, ⟨limit, -, heq⟩ | ⟨recorded, heq⟩⟩ := exists_state_of_rejected hsize h
    · cases heq
    have promising := query_hints (rfl : (Limits.unlimited.setting text).nestingLimit = none)
      (Text.byteSize text.toList + 1) (Nat.lt_succ_self _) (OnDemand.start Limits.unlimited) rfl
      (placed_start _ _) ⟨rfl, rfl, nofun⟩ s hs
    obtain ⟨⟨x, y⟩, hplace⟩ := Option.isSome_iff_exists.1 recorded
    rw [Rejection.unexpected.inj heq]
    have start : (OnDemand.report (Limits.unlimited.setting text) s.furthest).span.start = y := by
      simp [OnDemand.report, OnDemand.deadEnd, hplace]
    rw [start]
    exact ⟨placed.expected recorded, promising.continues x y hplace⟩
  · rw [parse_of_tooLarge (not_le.1 hsize)] at h
    cases h

/-- **What is expected could have stood there.**  Where a text of moderate size is rejected for its
grammar, something is expected, and for each kind that is expected some lexeme of that kind after
the text before the dead end, perhaps with more text after it, makes a text that is accepted.  In
particular the text before a dead end is the front of a query. -/
theorem expected_continues {text : String} {e : Unexpected}
    (hsize : Text.byteSize text.toList ≤ 2 ^ 30)
    (h : Limits.unlimited.parse text = .rejected (.unexpected e)) :
    ∃ front, Text.takeBytes? e.span.start text.toList = some front ∧
      (∃ k, k ∈ e.expected) ∧
      (∀ k ∈ e.expected, ∃ w t q, k.IsLexeme w ∧ (k = .endOfInput → t = []) ∧
        Limits.unlimited.parse (String.ofList (front ++ w ++ t)) = .accepted q) ∧
      ∃ back q, Limits.unlimited.parse (String.ofList (front ++ back)) = .accepted q := by
  obtain ⟨⟨k, mem⟩, continues⟩ := continues_of_rejected h
  obtain ⟨front, upto, -⟩ := continues k mem
  have accepts : ∀ k ∈ e.expected, ∃ w t q, k.IsLexeme w ∧ (k = .endOfInput → t = []) ∧
      Limits.unlimited.parse (String.ofList (front ++ w ++ t)) = .accepted q := by
    intro k mem
    obtain ⟨u, upto', w, t, q, lexeme, hend, small, derives⟩ := continues k mem
    obtain rfl := upto.unique upto'
    refine ⟨w, t, q, lexeme, hend, Derives.accepted ?_ ?_⟩
    · rwa [String.toList_ofList]
    · have within := Setting.le_byteSize upto.boundary
      have source : (Limits.unlimited.setting text).source = text.toList := rfl
      rw [source] at within
      rw [String.toList_ofList, List.append_assoc, Text.byteSize_append, upto.size]
      unfold maxOffset
      omega
  refine ⟨front, upto.takeBytes?, ⟨k, mem⟩, accepts, ?_⟩
  obtain ⟨w, t, q, -, -, accepted⟩ := accepts k mem
  exact ⟨w ++ t, q, by rwa [← List.append_assoc]⟩

/-- A range that lacks the word between its bounds, in a group that is not closed. -/
theorem expected_continues_openRange :
    let e : Unexpected := ⟨⟨6, 2⟩, ⟨1, 7⟩, "`to`", .only .rangeTo⟩
    Limits.unlimited.parse "(a:[b to c" = .rejected (.unexpected e) ∧
      ∃ w t q,
        Limits.unlimited.parse (String.ofList ("(a:[b ".toList ++ w ++ t)) = .accepted q := by
  intro e
  have h : Limits.unlimited.parse "(a:[b to c" = .rejected (.unexpected e) := by decide +kernel
  obtain ⟨front, hfront, -, accepts, -⟩ := expected_continues (by decide) h
  obtain ⟨w, t, q, -, -, accepted⟩ := accepts .rangeTo (by decide)
  have before : Text.takeBytes? 6 "(a:[b to c".toList = some "(a:[b ".toList := by decide
  obtain rfl := Option.some.inj (hfront.symm.trans before)
  exact ⟨h, w, t, q, accepted⟩

end SearchQuery
