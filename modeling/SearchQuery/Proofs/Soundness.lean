import SearchQuery.Proofs.Grammar
import SearchQuery.Proofs.Rules

/-!
# What is read on demand is derived

Whatever reading on demand takes, the text that it passed over spells in the grammar.  Along with
this goes what it cost: the lookaheads that are gone cover those of the query, and the nesting limit
covers the depth of the query.

Each production ensures that a relation of the grammar holds between its value and the text up to
where it stops.  What it ensures is a structure of its own where more than one production asks for
it, and `sequence_sound` closes the circle by induction on the steps.
-/

namespace SearchQuery

variable {c : Setting} {e o : Nat}

/-! ## Values -/

lemma AtomText.term_ofList {field : Option String} {similarity : Option Similarity}
    {w x : List Char} (word : IsTermText w) (suffix : PartText SimilarityText similarity x) :
    AtomText field (.term (String.ofList w) similarity) (w ++ x) := by
  have text := @AtomText.term field (String.ofList w) similarity x (by simpa using word) suffix
  rwa [String.toList_ofList] at text

lemma AtomText.phrase_ofList {field distance : Option String} {w x : List Char}
    (quoted : IsPhraseText w) (suffix : PartText DistanceText distance x) :
    AtomText field (.phrase (String.ofList w) distance) ('"' :: (w ++ ['"']) ++ x) := by
  have text := @AtomText.phrase field (String.ofList w) distance x (by simpa using quoted) suffix
  rwa [String.toList_ofList] at text

lemma similarityText_ofList {number : List Char} (h : number = [] ∨ IsNumber number) :
    SimilarityText (Production.similarityOf number) ('~' :: number) := by
  cases number with
  | nil => exact .default
  | cons digit more =>
    have text := @SimilarityText.value (String.ofList (digit :: more))
      (by simpa using h.resolve_left (by simp))
    rwa [String.toList_ofList] at text

/-- What is ensured of a value that holds no other clauses. -/
structure AtomRead (c : Setting) (o : Nat) (field : Option String) (a : Production.Taken Atom)
    (k : Nat) : Prop where
  text : ∃ w, c.Between o w a.2 ∧ AtomText field a.1 w
  cost : a.1.lookaheads ≤ k
  word : a.1.isTerm = true → c.kindAt o = .word

lemma term_sound (field : Option String) :
    Ensures c e (OnDemand.term o) fun a k =>
      c.kindAt o = .word → AtomRead c o field a k := by
  unfold OnDemand.term Cursor.term
  refine ensures_textAt_bind (ensures_next_bind (ensures_lookAt.bind ?_))
  intro seen
  split_ifs with hseen
  · refine ensures_textAt_bind (ensures_next_bind (Ensures.pure ?_))
    rintro k ⟨rfl, hkind⟩ hword
    obtain ⟨between, form⟩ := Setting.Between.token hword (by simp)
    obtain ⟨between', number, htext, hnumber⟩ := Setting.Between.token (hkind.trans hseen) (by simp)
    rw [htext] at between'
    rw [htext, Production.numberAfterSign_cons (by decide)]
    exact ⟨⟨_, between.append between',
      .term_ofList form (.present (similarityText_ofList hnumber))⟩, le_rfl, fun _ => hword⟩
  · refine ensures_miss (Ensures.pure ?_)
    rintro k ⟨rfl, -⟩ hword
    obtain ⟨between, form⟩ := Setting.Between.token hword (by simp)
    refine ⟨⟨_, between, ?_⟩, le_rfl, fun _ => hword⟩
    have read := @AtomText.term_ofList field none (c.textAt o) [] form .absent
    rwa [List.append_nil] at read

lemma phrase_sound (field : Option String) :
    Ensures c e (OnDemand.phrase o) fun a k => c.kindAt o = .phrase → AtomRead c o field a k := by
  unfold OnDemand.phrase Cursor.phrase
  refine ensures_textAt_bind (ensures_next_bind (ensures_lookAt.bind ?_))
  have undistanced : ∀ k, c.kindAt o = .phrase →
      AtomRead c o field
        (.phrase (String.ofList (Production.unquote (c.textAt o))) none, c.next o) (1 + k) := by
    intro k hphrase
    obtain ⟨between, text, htext, hquoted⟩ := Setting.Between.token hphrase (by simp)
    refine ⟨⟨_, between, ?_⟩, by simp [Atom.lookaheads], nofun⟩
    have read := @AtomText.phrase_ofList field none text [] hquoted .absent
    rw [List.append_nil] at read
    rwa [htext, Production.unquote_quoted]
  intro seen
  split_ifs with hseen
  · refine ensures_textAt_bind ?_
    dsimp only
    split_ifs with hnumber
    · refine ensures_next_bind (Ensures.pure ?_)
      rintro k ⟨rfl, hkind⟩ hphrase
      obtain ⟨between, text, htext, hquoted⟩ := Setting.Between.token hphrase (by simp)
      obtain ⟨between', number, htext', hform⟩ :=
        Setting.Between.token (hkind.trans hseen) (by simp)
      rw [htext] at between
      rw [htext'] at between'
      rw [htext', Production.numberAfterSign_cons (by decide)] at hnumber ⊢
      rw [htext, Production.unquote_quoted]
      have digits : IsDigits number := ⟨hnumber.1, by simpa using hnumber.2⟩
      have distance : DistanceText (String.ofList number) ('~' :: number) := by
        simpa [DistanceText] using digits
      exact ⟨⟨_, between.append between', .phrase_ofList hquoted (.present distance)⟩, le_rfl,
        nofun⟩
    · refine ensures_miss (Ensures.pure ?_)
      rintro k ⟨rfl, -⟩ hphrase
      exact undistanced 0 hphrase
  · refine ensures_miss (Ensures.pure ?_)
    rintro k ⟨rfl, -⟩ hphrase
    exact undistanced 0 hphrase

/-- A bound is what stands up to the first character that ends one. -/
lemma bound_sound :
    Ensures c e (OnDemand.bound o) fun a _ => IsBound a.1.toList ∧ c.Between o a.1.toList a.2 := by
  intro s hs
  cases hw : (c.rest o).takeWhile (!endsBound ·) with
  | nil =>
    rw [OnDemand.bound_of_nil hw]
    exact ensures_refuseAt s hs
  | cons first more =>
    rw [OnDemand.bound_of_cons hw]
    refine ⟨hs, fun n hn => ⟨0, hn, ?_⟩⟩
    have hrest : c.rest o = (first :: more) ++ (c.rest o).dropWhile (!endsBound ·) := by
      rw [← hw, List.takeWhile_append_dropWhile]
    simp only [String.toList_ofList]
    refine ⟨⟨by simp, ?_⟩, ?_⟩
    · intro d hd
      rw [← hw] at hd
      simpa using List.mem_takeWhile_imp hd
    · unfold Setting.Between
      rw [Setting.rest_add hrest]
      exact hrest

lemma rangeTo_sound :
    Ensures c e (OnDemand.rangeTo o) fun o' k => k = 1 ∧ c.Between o ['T', 'O'] o' := by
  unfold OnDemand.rangeTo Cursor.rangeTo
  refine ensures_lookAt.bind ?_
  intro seen
  split_ifs with hseen
  · refine ensures_textAt_bind ?_
    split_ifs with hto
    · refine ensures_next ?_
      rintro k ⟨rfl, hkind⟩
      obtain ⟨between, -⟩ := Setting.Between.token (hkind.trans hseen) (by simp)
      rw [hto] at between
      exact ⟨rfl, between⟩
    · exact ensures_refuseAt
  · exact ensures_refuseAt

lemma rangeAfter_sound {field : Option String} (hasField : field ≠ none) {inclusive : Bool}
    {opening closing : Char} (brackets : Brackets inclusive opening closing) {kind : Kind}
    (hne : kind ≠ .endOfInput) (hkind : ∀ w, kind.Form w → w = [closing]) :
    Ensures c e (OnDemand.rangeAfter o inclusive kind) fun a k =>
      6 ≤ k ∧ (∃ low high, a.1 = .range low high inclusive) ∧
        ∃ w, c.Between o w a.2 ∧ AtomText field a.1 (opening :: w) := by
  unfold OnDemand.rangeAfter Reader.rangeAfter
  refine ensures_skipBlank.bind fun o₁ => bound_sound.bind ?_
  rintro ⟨low, o₂⟩
  refine ensures_expect.bind fun o₃ => rangeTo_sound.bind fun o₄ => ensures_expect.bind fun o₅ =>
    bound_sound.bind ?_
  rintro ⟨high, o₆⟩
  refine ensures_skipBlank.bind fun o₇ => ensures_expect.bind fun o₈ => Ensures.pure ?_
  rintro k₈ ⟨rfl, hclosing, rfl⟩ k₇ ⟨rfl, x, gap', hx⟩ k₆ ⟨hhigh, bhigh⟩ k₅ ⟨rfl, hb', rfl⟩ k₄
    ⟨rfl, bto⟩ k₃ ⟨rfl, hb, rfl⟩ k₂ ⟨hlow, blow⟩ k₁ ⟨rfl, u, gap, hu⟩
  obtain ⟨bblank, blanks⟩ := Setting.Between.token hb (by simp)
  obtain ⟨bblank', blanks'⟩ := Setting.Between.token hb' (by simp)
  obtain ⟨bclosing, form⟩ := Setting.Between.token hclosing hne
  rw [hkind _ form] at bclosing
  have between := ((((((hu.append blow).append bblank).append bto).append bblank').append
    bhigh).append hx).append bclosing
  refine ⟨by omega, ⟨low, high, rfl⟩, _, between, ?_⟩
  have text := AtomText.range hasField brackets gap hlow blanks blanks' hhigh gap'
  simpa using text

lemma range_sound {field : Option String} (hasField : field ≠ none) :
    Ensures c e (OnDemand.range o) (AtomRead c o field) := by
  unfold OnDemand.range Reader.range
  refine ensures_lookAt.bind ?_
  intro seen
  cases seen
  case openBracket =>
    refine ensures_next_bind ((rangeAfter_sound hasField .inclusive (by simp) ?_).mono ?_)
    · exact fun w form => form
    · rintro ⟨_, o'⟩ k ⟨hk, ⟨low, high, rfl⟩, w, between, text⟩ k₁ ⟨rfl, hkind⟩
      obtain ⟨bracket, form⟩ := Setting.Between.token hkind (by simp)
      rw [show c.textAt o = ['['] from form] at bracket
      exact ⟨⟨_, bracket.append between, text⟩, by simp only [Atom.lookaheads]; omega, nofun⟩
  case openBrace =>
    refine ensures_next_bind ((rangeAfter_sound hasField .exclusive (by simp) ?_).mono ?_)
    · exact fun w form => form
    · rintro ⟨_, o'⟩ k ⟨hk, ⟨low, high, rfl⟩, w, between, text⟩ k₁ ⟨rfl, hkind⟩
      obtain ⟨bracket, form⟩ := Setting.Between.token hkind (by simp)
      rw [show c.textAt o = ['\x7b'] from form] at bracket
      exact ⟨⟨_, bracket.append between, text⟩, by simp only [Atom.lookaheads]; omega, nofun⟩
  all_goals exact ensures_refuseAt

/-! ## Groups -/

/-- What is ensured of a sequence that is read while `e` groups are open. -/
def SequenceRead (c : Setting) (e o : Nat) (a : Production.Taken Query) (k : Nat) : Prop :=
  ∃ w, c.Between o w a.2 ∧ SequenceText a.1 w ∧ a.1.lookaheads ≤ k ∧
    (c.Fits e → c.Fits (e + a.1.depth))

/-- What is ensured of the sequences in groups. -/
def InnerSound (c : Setting) (inner : Nat → Production (Production.Taken Query)) : Prop :=
  ∀ e o, Ensures c e (inner o) (SequenceRead c e o)

/-- What is ensured of a group: its text, parenthesis to parenthesis. -/
def GroupRead (c : Setting) (e o : Nat) (a : Production.Taken Query) (k : Nat) : Prop :=
  ∃ u v w, IsGap u ∧ SequenceText a.1 v ∧ IsGap w ∧
    c.Between o ('(' :: u ++ v ++ w ++ [')']) a.2 ∧ 2 + a.1.lookaheads + 2 ≤ k ∧
      c.Fits (e + (a.1.depth + 1))

lemma group_sound {inner : Nat → Production (Production.Taken Query)}
    (hinner : InnerSound c inner) :
    Ensures c e (OnDemand.group inner o) (GroupRead c e o) := by
  have body : Ensures c (e + 1) (OnDemand.expect o .openParen >>= fun o =>
      OnDemand.skipBlank o >>= fun o => inner o >>= fun a => OnDemand.skipBlank a.2 >>= fun o =>
        OnDemand.expect o .closeParen >>= fun o => pure (a.1, o))
      fun a k => c.Fits (e + 1) → GroupRead c e o a k := by
    refine ensures_expect.bind fun o₁ => ensures_skipBlank.bind fun o₂ => (hinner _ _).bind ?_
    rintro ⟨body, o₃⟩
    refine ensures_skipBlank.bind fun o₄ => ensures_expect.bind fun o₅ => Ensures.pure ?_
    rintro k₅ ⟨rfl, hclose, rfl⟩ k₄ ⟨rfl, w, gap', hw⟩ k₃ ⟨v, hv, text, hcost, fits⟩ k₂
      ⟨rfl, u, gap, hu⟩ k₁ ⟨rfl, hopen, rfl⟩ fits₁
    obtain ⟨bopen, fopen⟩ := Setting.Between.token hopen (by simp)
    obtain ⟨bclose, fclose⟩ := Setting.Between.token hclose (by simp)
    rw [show c.textAt o = ['('] from fopen] at bopen
    rw [show c.textAt o₄ = [')'] from fclose] at bclose
    refine ⟨u, v, w, gap, text, gap', ?_, by dsimp only at hcost ⊢; omega, ?_⟩
    · simpa using (((bopen.append hu).append hv).append hw).append bclose
    · rw [Nat.add_comm body.depth, ← Nat.add_assoc]
      exact fits fits₁
  refine (ensures_nested body).mono ?_
  rintro a k ⟨fits, read⟩
  exact read fits

/-! ## Clauses -/

lemma marker_sound :
    Ensures c e (OnDemand.marker o) fun a k =>
      k = 1 ∧ ∃ w, c.Between o w a.2 ∧ PartText MarkerText a.1 w := by
  unfold OnDemand.marker Cursor.marker
  refine ensures_lookAt.bind ?_
  intro seen
  cases seen
  case plus =>
    refine ensures_next_bind (Ensures.pure ?_)
    rintro k ⟨rfl, hkind⟩
    obtain ⟨between, form⟩ := Setting.Between.token hkind (by simp)
    rw [show c.textAt o = ['+'] from form] at between
    exact ⟨rfl, _, between, .present .required⟩
  case minus =>
    refine ensures_next_bind (Ensures.pure ?_)
    rintro k ⟨rfl, hkind⟩
    obtain ⟨between, form⟩ := Setting.Between.token hkind (by simp)
    rw [show c.textAt o = ['-'] from form] at between
    exact ⟨rfl, _, between, .present .prohibited⟩
  all_goals
    refine Ensures.pure ?_
    rintro k ⟨rfl, -⟩
    exact ⟨rfl, [], Setting.Between.refl c o, .absent⟩

/-- A field is read with two lookaheads, and so is its absence before a word. -/
lemma field_sound :
    Ensures c e (OnDemand.field o) fun a k =>
      (if a.1.isSome ∨ c.kindAt o = .word then 2 else 1) ≤ k ∧ (a.1 = none → a.2 = o) ∧
        ∃ w, c.Between o w a.2 ∧ PartText FieldText a.1 w := by
  unfold OnDemand.field Cursor.field
  refine ensures_lookAt.bind ?_
  intro seen
  split_ifs with hseen
  · refine ensures_next_bind (ensures_lookAt.bind ?_)
    intro seen'
    split_ifs with hseen'
    · refine ensures_textAt_bind ?_
      split_ifs with hstar
      · refine Ensures.pure ?_
        rintro k₂ ⟨rfl, -⟩ k₁ ⟨rfl, -⟩
        exact ⟨by split_ifs <;> omega, fun _ => rfl, [], Setting.Between.refl c o, .absent⟩
      · refine ensures_next_bind (Ensures.pure ?_)
        rintro k₂ ⟨rfl, hcolon⟩ k₁ ⟨rfl, hword⟩
        obtain ⟨bword, form⟩ := Setting.Between.token (hword.trans hseen) (by simp)
        obtain ⟨bcolon, form'⟩ := Setting.Between.token (hcolon.trans hseen') (by simp)
        rw [show c.textAt (c.next o) = [':'] from form'] at bcolon
        have name : IsFieldName (c.textAt o) := ⟨form, by simpa using hstar⟩
        have text : FieldText (String.ofList (c.textAt o)) (c.textAt o ++ [':']) := by
          simpa [FieldText] using name
        refine ⟨by split_ifs <;> omega, ?_, _, bword.append bcolon, .present text⟩
        intro h
        cases h
    · refine Ensures.pure ?_
      rintro k₂ ⟨rfl, -⟩ k₁ ⟨rfl, -⟩
      exact ⟨by split_ifs <;> omega, fun _ => rfl, [], Setting.Between.refl c o, .absent⟩
  · refine Ensures.pure ?_
    rintro k ⟨rfl, hkind⟩
    have hword : c.kindAt o ≠ .word := by
      rw [hkind]
      exact hseen
    exact ⟨by simp [hword], fun _ => rfl, [], Setting.Between.refl c o, .absent⟩

lemma boost_sound :
    Ensures c e (OnDemand.boost o) fun a k =>
      k = 1 ∧ ∃ w, c.Between o w a.2 ∧ PartText BoostText a.1 w := by
  unfold OnDemand.boost Cursor.boost
  refine ensures_lookAt.bind ?_
  intro seen
  split_ifs with hseen
  · refine ensures_textAt_bind (ensures_next_bind (Ensures.pure ?_))
    rintro k ⟨rfl, hkind⟩
    obtain ⟨between, number, htext, hnumber⟩ := Setting.Between.token (hkind.trans hseen) (by simp)
    rw [htext] at between
    rw [htext, Production.numberAfterSign_cons (by decide)]
    have text : BoostText (String.ofList number) ('^' :: number) := by
      simpa [BoostText] using hnumber
    exact ⟨rfl, _, between, .present text⟩
  · refine ensures_miss (Ensures.pure ?_)
    rintro k ⟨rfl, -⟩
    exact ⟨rfl, [], Setting.Between.refl c o, .absent⟩

/-- What is ensured of the value of a clause with a field. -/
inductive ValueRead (c : Setting) (e o : Nat) (field : Option String) :
    Production.Taken (Modifiers → Clause) → Nat → Prop where
  | atom {value : Atom} {o' k : Nat} (read : AtomRead c o field (value, o') k) :
      ValueRead c e o field (.atom value, o') (1 + k)
  | group {body : Query} {o' k : Nat} (read : GroupRead c e o (body, o') k) :
      ValueRead c e o field (.group body, o') (1 + k)

lemma value_sound {inner : Nat → Production (Production.Taken Query)} (hinner : InnerSound c inner)
    (field : Option String) (marker : Option Marker) :
    Ensures c e (OnDemand.value inner field marker o) (ValueRead c e o field) := by
  unfold OnDemand.value Reader.value
  refine ensures_lookAt.bind ?_
  intro seen
  cases seen
  case word =>
    refine (term_sound field).bind ?_
    rintro ⟨value, o'⟩
    refine Ensures.pure ?_
    rintro k read k₁ ⟨rfl, hkind⟩
    exact .atom (read hkind)
  case phrase =>
    refine (phrase_sound field).bind ?_
    rintro ⟨value, o'⟩
    refine Ensures.pure ?_
    rintro k read k₁ ⟨rfl, hkind⟩
    exact .atom (read hkind)
  case openParen =>
    refine (group_sound hinner).bind ?_
    rintro ⟨body, o'⟩
    refine Ensures.pure ?_
    rintro k read k₁ ⟨rfl, -⟩
    exact .group read
  all_goals first
    | exact ensures_refuseAt
    | cases field with
      | none => exact ensures_refuseAt
      | some name =>
        refine (range_sound (Option.some_ne_none name)).bind ?_
        rintro ⟨value, o'⟩
        refine Ensures.pure ?_
        rintro k read k₁ ⟨rfl, -⟩
        exact .atom read

/-- What is ensured of a clause, without what joins it to the one before it. -/
structure ClauseRead (c : Setting) (e o : Nat) (a : Production.Taken Clause) (k : Nat) :
    Prop where
  text : ∃ w, c.Between o w a.2 ∧ ClauseText a.1 w
  cost : a.1.lookaheads ≤ k
  fits : c.Fits e → c.Fits (e + a.1.depth)

/-- Where a clause without a field starts with a word, both lookaheads were made. -/
lemma fieldLookaheads_le {m : Modifiers} {word : Bool} {seen : Prop} [Decidable seen] {k : Nat}
    (h : (if m.field.isSome ∨ seen then 2 else 1) ≤ k)
    (hword : m.field = none → word = true → seen) : m.fieldLookaheads word ≤ k := by
  unfold Modifiers.fieldLookaheads
  cases hm : m.field with
  | some name => simpa [hm] using h
  | none =>
    cases word with
    | true => simpa [hm, hword hm rfl] using h
    | false =>
      have : 1 ≤ k := le_trans (by split_ifs <;> omega) h
      simpa using this

lemma clause_sound {inner : Nat → Production (Production.Taken Query)} (hinner : InnerSound c inner)
    (operator : Option Operator) :
    Ensures c e (OnDemand.clause inner operator o) fun a k =>
      a.1.modifiers.operator = operator ∧ ClauseRead c e o a k := by
  unfold OnDemand.clause Reader.clause
  refine marker_sound.bind ?_
  rintro ⟨marker, o₁⟩
  refine field_sound.bind ?_
  rintro ⟨field, o₂⟩
  refine (value_sound hinner field marker).bind ?_
  rintro ⟨make, o₃⟩
  refine boost_sound.bind ?_
  rintro ⟨boost, o₄⟩
  refine Ensures.pure ?_
  rintro k₄ ⟨rfl, x, hx, tx⟩ k₃ read k₂ ⟨hk₂, hnone, v, hv, tv⟩ k₁ ⟨rfl, u, hu, tu⟩
  dsimp only at hk₂ hnone
  cases read with
  | @atom value _ k read =>
    obtain ⟨⟨w, hw, tw⟩, hcost, hword⟩ := read
    have hfield :
        Modifiers.fieldLookaheads { field, marker, boost, operator } value.isTerm ≤ k₂ := by
      refine fieldLookaheads_le hk₂ ?_
      rintro rfl hterm
      rw [← hnone rfl]
      exact hword hterm
    refine ⟨rfl, ⟨_, ((hu.append hv).append hw).append hx, .atom tu tv tw tx⟩, ?_, id⟩
    dsimp only at hcost
    simp only [Clause.lookaheads]
    omega
  | group read =>
    obtain ⟨w, y, z, gap, text, gap', between, hcost, fits⟩ := read
    refine ⟨rfl, ⟨_, ((hu.append hv).append between).append hx, .group tu tv gap text gap' tx⟩, ?_,
      fun _ => fits⟩
    have hfield : Modifiers.fieldLookaheads { field, marker, boost, operator } false ≤ k₂ :=
      fieldLookaheads_le hk₂ (by simp)
    dsimp only at hcost
    simp only [Clause.lookaheads]
    omega

/-! ## Sequences -/

lemma keywordText_of_form {kind : Kind} {operator : Operator} {w : List Char}
    (h : Production.operatorOf? kind = some operator) (form : kind.Form w) :
    KeywordText operator w := by
  cases kind <;> cases h <;> cases form
  · exact .and
  · exact .or
  · exact .not

/-- What is ensured of a clause after another one. -/
structure JoinedRead (c : Setting) (e o : Nat) (a : Production.Taken Clause) (k : Nat) :
    Prop where
  text : ∃ u v, c.Between o (u ++ v) a.2 ∧ JointText a.1.modifiers.operator u ∧ ClauseText a.1 v
  cost : a.1.modifiers.jointLookaheads + a.1.lookaheads ≤ k
  fits : c.Fits e → c.Fits (e + a.1.depth)

lemma afterBlank_sound {inner : Nat → Production (Production.Taken Query)}
    (hinner : InnerSound c inner) :
    Ensures c e (OnDemand.afterBlank inner o) fun a k =>
      ∀ start w, IsBlanks w → c.Between start w o → JoinedRead c e start a (1 + k) := by
  unfold OnDemand.afterBlank Reader.afterBlank
  refine ensures_lookAt.bind ?_
  intro seen
  cases hop : Production.operatorOf? seen with
  | some operator =>
    refine ensures_next_bind (ensures_expect.bind fun o₁ => (clause_sound hinner _).mono ?_)
    rintro ⟨clause, o'⟩ k ⟨hoperator, ⟨v, hv, text⟩, hcost, fits⟩ k₂ ⟨rfl, hblank, rfl⟩ k₁
      ⟨rfl, hkind⟩ start w blanks between
    obtain ⟨bkeyword, fkeyword⟩ :=
      Setting.Between.token hkind (OnDemand.ne_of_operatorOf? hop rfl)
    obtain ⟨bblank, fblank⟩ := Setting.Between.token hblank (by simp)
    dsimp only at hoperator hcost
    refine ⟨⟨_, v, ((between.append bkeyword).append bblank).append hv, ?_, text⟩, ?_, fits⟩
    · dsimp only
      rw [hoperator]
      exact .keyword blanks (keywordText_of_form hop fkeyword) fblank
    · simp only [Modifiers.jointLookaheads, hoperator, Option.isSome_some, if_true]
      omega
  | none =>
    refine ensures_miss ((clause_sound hinner _).mono ?_)
    rintro ⟨clause, o'⟩ k ⟨hoperator, ⟨v, hv, text⟩, hcost, fits⟩ k₁ ⟨rfl, -⟩ start w blanks
      between
    dsimp only at hoperator hcost
    refine ⟨⟨w, v, between.append hv, ?_, text⟩, ?_, fits⟩
    · dsimp only
      rw [hoperator]
      exact .blank blanks
    · simp only [Modifiers.jointLookaheads, hoperator, Option.isSome_none]
      simp only [Bool.false_eq_true, if_false]
      omega

lemma joinedClause_sound {inner : Nat → Production (Production.Taken Query)}
    (hinner : InnerSound c inner) :
    Ensures c e (OnDemand.joinedClause inner o) (JoinedRead c e o) := by
  unfold OnDemand.joinedClause Reader.joinedClause
  refine ensures_expect.bind fun o₁ => (afterBlank_sound hinner).mono ?_
  rintro a k read k₁ ⟨rfl, hblank, rfl⟩
  obtain ⟨between, form⟩ := Setting.Between.token hblank (by simp)
  exact read o _ form between

/-- Even looking for a further clause in vain takes a lookahead. -/
lemma joinedClause_refused {inner : Nat → Production (Production.Taken Query)}
    (hinner : InnerSound c inner) {s s' : State} (hs : s.depth = e)
    (h : OnDemand.joinedClause inner o c s = .refused s') {n : Nat} (hn : s'.Has n) :
    s.Has (n + 1) := by
  obtain ⟨s₁, hr, hdepth, has⟩ := lookAt_eq c s o
  unfold OnDemand.joinedClause Reader.joinedClause Cursor.expect at h
  rw [bind_assoc, Production.bind_of_took hr] at h
  split_ifs at h with hseen
  · have paid := @afterBlank_sound c e (c.next o) inner hinner s₁ (hdepth.trans hs)
    rw [show OnDemand.afterBlank inner (c.next o) c s₁ = .refused s' from h] at paid
    exact (has n).1 (paid.2 n hn)
  · cases h
    exact (has n).1 hn

/-- What is ensured of the clauses after the first one of a sequence. -/
structure MoreRead (c : Setting) (e o : Nat) (more : List Clause) (o' k : Nat) : Prop where
  text : ∃ w, c.Between o w o' ∧ MoreText more w
  cost : Clause.joinedLookaheads more + 1 ≤ k
  fits : c.Fits e → c.Fits (e + Clause.depths more)

lemma JoinedRead.cons {o₁ o' j k : Nat} {next : Clause} {more : List Clause}
    (h : JoinedRead c e o (next, o₁) j) (hmore : MoreRead c e o₁ more o' k) :
    MoreRead c e o (next :: more) o' (j + k) := by
  obtain ⟨⟨u, v, huv, joint, text⟩, hcost, fits⟩ := h
  obtain ⟨⟨w, hw, joined⟩, hcosts, fitss⟩ := hmore
  refine ⟨⟨_, huv.append hw, .cons joint text joined⟩, ?_, ?_⟩
  · dsimp only at hcost
    simp only [Clause.joinedLookaheads]
    omega
  · intro h limit hlimit
    have hfirst := fits h limit hlimit
    have hmore := fitss h limit hlimit
    dsimp only at hfirst
    simp only [Clause.depths]
    omega

/-- The sequence goes on for as long as clauses can be joined on, and the refusal that ends it is
paid for as well. -/
lemma moreClauses_sound {inner : Nat → Production (Production.Taken Query)}
    (hinner : InnerSound c inner) (steps : Nat) (found : List Clause) :
    Ensures c e (Production.moreClauses (OnDemand.joinedClause inner) steps found o) fun a k =>
      ∃ more, a.1 = found.reverse ++ more ∧ MoreRead c e o more a.2 k := by
  induction steps generalizing found o with
  | zero =>
    intro s hs
    trivial
  | succ steps ih =>
    intro s hs
    have paid := @joinedClause_sound c e o inner hinner s hs
    unfold Production.moreClauses
    cases hr : OnDemand.joinedClause inner o c s with
    | fault cause => trivial
    | refused s₁ =>
      rw [hr] at paid
      refine ⟨paid.1, ?_⟩
      intro n hn
      refine ⟨1, joinedClause_refused hinner hs hr hn, [], by simp, ?_⟩
      exact ⟨⟨[], Setting.Between.refl c o, .nil⟩, le_rfl, id⟩
    | took a s₁ =>
      obtain ⟨next, o₁⟩ := a
      rw [hr] at paid
      refine (@ih o₁ (next :: found) s₁ paid.1).after paid.2 ?_
      rintro ⟨clauses, o'⟩ j k ⟨more, rfl, hmore⟩ hnext
      exact ⟨next :: more, by simp, hnext.cons hmore⟩

/-- **A sequence that is read is derived.**  The induction is on the steps, which fall by one for
the groups in the sequence. -/
theorem sequence_sound (c : Setting) (steps : Nat) : InnerSound c (OnDemand.sequence steps) := by
  induction steps with
  | zero =>
    intro e o s hs
    trivial
  | succ steps ih =>
    intro e o
    unfold OnDemand.sequence Reader.sequence
    refine (clause_sound ih none).bind ?_
    rintro ⟨first, o₁⟩
    refine (moreClauses_sound ih steps []).bind ?_
    rintro ⟨more, o₂⟩
    refine Ensures.pure ?_
    rintro k₂ ⟨found, hfound, ⟨v, hv, joined⟩, hcosts, fitss⟩ k₁
      ⟨unjoined, ⟨u, hu, text⟩, hcost, fits⟩
    obtain rfl : more = found := by simpa using hfound
    dsimp only at hcost fits
    refine ⟨_, hu.append hv, .collapse unjoined text joined, ?_, ?_⟩
    · simp only [lookaheads_collapse]
      omega
    · intro h limit hlimit
      have hfirst := fits h limit hlimit
      have hmore := fitss h limit hlimit
      simp only [depth_collapse]
      omega

/-- **A query that is read is derived**, for no fewer lookaheads than it asks for. -/
theorem query_sound (c : Setting) (steps start : Nat) :
    Ensures c 0 (OnDemand.query steps start) fun q k =>
      Derives (c.rest start) q ∧ c.Fits q.depth ∧ q.lookaheads + 3 ≤ k := by
  unfold OnDemand.query Reader.query
  refine ensures_skipBlank.bind fun o₁ => (sequence_sound c steps 0 o₁).bind ?_
  rintro ⟨q, o₂⟩
  refine ensures_skipBlank.bind fun o₃ => ensures_lookAt.bind fun seen => ?_
  split_ifs with hseen
  · refine Ensures.pure ?_
    rintro k₄ ⟨rfl, hkind⟩ k₃ ⟨rfl, w, gap', hw⟩ k₂ ⟨v, hv, text, hcost, fits⟩ k₁ ⟨rfl, u, gap, hu⟩
    have hend := Setting.rest_eq_nil_of_kindAt (hkind.trans hseen)
    refine ⟨⟨u, v, w, gap, text, gap', ?_⟩, ?_, ?_⟩
    · have whole : c.Between start (u ++ v ++ w) o₃ := (hu.append hv).append hw
      rw [whole, hend, List.append_nil]
    · have unlimited : c.Fits 0 := fun limit _ => Nat.zero_le limit
      simpa using fits unlimited
    · dsimp only at hcost
      omega
  · exact ensures_refuseAt

end SearchQuery
