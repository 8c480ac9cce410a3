import SearchQuery.Proofs.Progress
import SearchQuery.Proofs.Rules
import SearchQuery.Proofs.Writing

/-!
# How a half-read query could go on

While a query is read, the text so far has not been seen to be wrong: there is always some way to go
on from it.  `Awaits c e o P` makes this precise.  After the text up to a place `o`, any text that
satisfies `P` makes a query, once the `e` groups that are open are closed.  What `P` is follows from
the part of the grammar that is being read.  It is changed in two ways only.  `Awaits.advance` goes
past some text, which becomes the front of what was awaited, and `Awaits.enter` goes into a group.

A kind is a real expectation at a place if some lexeme of the kind continues the text there,
perhaps with more text after it.  `Continues` says so, and `Awaits.continues` obtains it from what
is awaited.

## Sample texts

The continuations are all made of a term `a`, an empty phrase, a range of `a` and `a`, and the
number one.  Nothing but their membership in the grammar is used.
-/

namespace SearchQuery

/-! ## Lexemes of a kind -/

/-- The texts of a kind that is expected somewhere.  A token is a text that is cut up as one lexeme
of its kind.  The other kinds are told by the form of what could have stood there. -/
def Kind.IsLexeme : Kind → List Char → Prop
  | .rangeTo, w => w = ['T', 'O']
  | .distance, w => ∃ digits, IsDigits digits ∧ w = '~' :: digits
  | .rangeBound, w => IsBound w
  | .endOfInput, w => w = []
  | k, w => Lexeme.scan w = [⟨k, w⟩]

lemma isLexeme_space : Kind.blank.IsLexeme [' '] :=
  (by decide : Lexeme.scan [' '] = [⟨.blank, [' ']⟩])

/-! ## Parts of queries -/

/-- A text is a value of a clause that has this field. -/
inductive IsValue (field : Option String) : List Char → Prop
  | atom {value : Atom} {w : List Char} (text : AtomText field value w) : IsValue field w
  | group {body : Query} {u v w : List Char} (before : IsGap u) (text : SequenceText body v)
      (after : IsGap w) : IsValue field ('(' :: u ++ v ++ w ++ [')'])

/-- A text is a clause that is joined by a keyword, or by none. -/
def IsClause (operator : Option Operator) (w : List Char) : Prop :=
  ∃ clause : Clause, clause.modifiers.operator = operator ∧ ClauseText clause w

/-- A text is what may follow a clause in a sequence, up to where the sequence is closed. -/
def IsTail (w : List Char) : Prop :=
  ∃ more u v, MoreText more u ∧ IsGap v ∧ w = u ++ v

/-- A text is a sequence, up to where the sequence is closed. -/
def IsBody (w : List Char) : Prop :=
  ∃ q u v, SequenceText q u ∧ IsGap v ∧ w = u ++ v

/-- A text is a sequence with blanks around it. -/
def IsInner (w : List Char) : Prop := ∃ u v, IsGap u ∧ IsBody v ∧ w = u ++ v

lemma IsValue.clause {field : Option String} {marker : Option Marker} {boost : Option String}
    {u v w x : List Char} (h : IsValue field w) (hu : PartText MarkerText marker u)
    (hv : PartText FieldText field v) (hx : PartText BoostText boost x)
    (operator : Option Operator) : IsClause operator (u ++ v ++ w ++ x) := by
  cases h with
  | @atom value _ text =>
    exact ⟨.atom value { field, marker, boost, operator }, rfl, .atom hu hv text hx⟩
  | @group body _ _ _ before text after =>
    exact ⟨.group body { field, marker, boost, operator }, rfl, .group hu hv before text after hx⟩

lemma isTail_of_isGap {w : List Char} (h : IsGap w) : IsTail w := ⟨[], [], w, .nil, h, rfl⟩

lemma IsTail.cons {operator : Option Operator} {u v w : List Char} (h : IsTail w)
    (joint : JointText operator u) (clause : IsClause operator v) : IsTail (u ++ v ++ w) := by
  obtain ⟨more, x, y, joined, gap, rfl⟩ := h
  obtain ⟨next, rfl, text⟩ := clause
  exact ⟨next :: more, u ++ v ++ x, y, .cons joint text joined, gap, by simp⟩

/-- A clause may be joined on, with nothing after it. -/
lemma isTail_of_isClause {operator : Option Operator} {u v : List Char}
    (joint : JointText operator u) (clause : IsClause operator v) : IsTail (u ++ v) := by
  have tail := (isTail_of_isGap isGap_nil).cons joint clause
  rwa [List.append_nil] at tail

lemma IsClause.body {v w : List Char} (h : IsClause none v) (tail : IsTail w) :
    IsBody (v ++ w) := by
  obtain ⟨first, unjoined, text⟩ := h
  obtain ⟨more, x, y, joined, gap, rfl⟩ := tail
  exact ⟨.collapse first more, v ++ x, y, .collapse unjoined text joined, gap, by simp⟩

lemma IsInner.derives {w : List Char} (h : IsInner w) : ∃ q, Derives w q := by
  obtain ⟨u, v, gap, ⟨q, x, y, text, gap', rfl⟩, rfl⟩ := h
  exact ⟨q, u, x, y, gap, text, gap', by simp⟩

lemma IsInner.value {w : List Char} (h : IsInner w) (field : Option String) :
    IsValue field ('(' :: w ++ [')']) := by
  obtain ⟨u, v, gap, ⟨q, x, y, text, gap', rfl⟩, rfl⟩ := h
  simpa using IsValue.group gap text gap'

/-! ### Samples -/

lemma isTermText_a : IsTermText ['a'] := ⟨isWord_of_all (by decide) (by decide), by decide⟩

lemma isNumber_one : IsNumber ['1'] := (isDigits_of_all (by simp) (by decide)).isNumber

lemma isBound_a : IsBound ['a'] := isBound_of_all (by simp) (by decide)

lemma isValue_a (field : Option String) : IsValue field ['a'] :=
  .atom (@AtomText.term field "a" none [] isTermText_a .absent)

lemma isValue_phrase (field : Option String) : IsValue field ['"', '"'] :=
  .atom (@AtomText.phrase field "" none [] (by simp [IsPhraseText]) .absent)

lemma isClause_a (operator : Option Operator) : IsClause operator ['a'] :=
  (isValue_a none).clause .absent .absent (@PartText.absent String _) operator

lemma isValue_group (field : Option String) : IsValue field ['(', 'a', ')'] := by
  have body : IsBody ['a'] := (isClause_a none).body (isTail_of_isGap isGap_nil)
  exact IsInner.value ⟨[], ['a'], isGap_nil, body, rfl⟩ field

/-- A range, given by its parts. -/
lemma isValue_range {field : Option String} (hasField : field ≠ none) {inclusive : Bool}
    {opening closing : Char} (brackets : Brackets inclusive opening closing)
    {u low v w high x : List Char} (before : IsGap u) (lowBound : IsBound low)
    (blanksLow : IsBlanks v) (blanksHigh : IsBlanks w) (highBound : IsBound high)
    (after : IsGap x) :
    IsValue field (opening :: u ++ low ++ v ++ ['T', 'O'] ++ w ++ high ++ x ++ [closing]) := by
  have text := @AtomText.range field (String.ofList low) (String.ofList high) inclusive opening
    closing u v w x hasField brackets before (by simpa using lowBound) blanksLow blanksHigh
    (by simpa using highBound) after
  rw [String.toList_ofList, String.toList_ofList] at text
  exact .atom text

/-! ## Places and the text before them -/

/-- A text is what comes before a place. -/
structure Setting.Upto (c : Setting) (u : List Char) (o : Nat) : Prop where
  source : c.source = u ++ c.rest o
  size : Text.byteSize u = o

namespace Setting.Upto

variable {c : Setting} {u w : List Char} {o o' : Nat}

lemma boundary (h : c.Upto u o) : Text.IsBoundary c.source o :=
  Text.isBoundary_iff.2 ⟨u, c.rest o, h.source, h.size⟩

lemma takeBytes? (h : c.Upto u o) : Text.takeBytes? o c.source = some u :=
  Text.takeBytes?_eq_some_iff.2 ⟨h.size, c.rest o, h.source⟩

lemma unique {v : List Char} (h : c.Upto u o) (h' : c.Upto v o) : u = v :=
  Option.some.inj (h.takeBytes?.symm.trans h'.takeBytes?)

lemma advance (h : c.Upto u o) (hw : c.Between o w o') (hb : Text.IsBoundary c.source o') :
    c.Upto (u ++ w) o' := by
  have source : c.source = u ++ w ++ c.rest o' := by
    rw [List.append_assoc, ← show c.rest o = w ++ c.rest o' from hw]
    exact h.source
  refine ⟨source, ?_⟩
  have total := add_byteSize_rest hb
  have parts := congrArg Text.byteSize source
  rw [Text.byteSize_append] at parts
  omega

end Setting.Upto

/-! ## What is awaited -/

/-- After the text up to a place, anything that satisfies a condition makes a query once the groups
that are open are closed. -/
structure Awaits (c : Setting) (e o : Nat) (P : List Char → Prop) : Prop where
  opened : e ≤ o
  text : ∃ u, c.Upto u o ∧ ∀ x, P x → ∃ q, Derives (u ++ x ++ List.replicate e ')') q

/-- A lexeme of a kind continues the text up to a place, perhaps with more text after it.  Nothing
comes after the end of the input.  No more is added than the text before, but for a few bytes. -/
def Continues (c : Setting) (o : Nat) (k : Kind) : Prop :=
  ∃ u, c.Upto u o ∧ ∃ w t q, k.IsLexeme w ∧ (k = .endOfInput → t = []) ∧
    Text.byteSize (w ++ t) ≤ o + 8 ∧ Derives (u ++ w ++ t) q

lemma byteSize_closers (e : Nat) : Text.byteSize (List.replicate e ')') = e := by
  induction e with
  | zero => rfl
  | succ e ih =>
    have : (')' : Char).utf8Size = 1 := rfl
    rw [List.replicate_succ, Text.byteSize_cons, ih]
    omega

namespace Awaits

variable {c : Setting} {e o o' : Nat} {P P' : List Char → Prop}

lemma boundary (h : Awaits c e o P) : Text.IsBoundary c.source o := by
  obtain ⟨u, upto, -⟩ := h.text
  exact upto.boundary

lemma mono (h : Awaits c e o P) (hP : ∀ x, P' x → P x) : Awaits c e o P' := by
  obtain ⟨u, upto, derives⟩ := h.text
  exact ⟨h.opened, u, upto, fun x hx => derives x (hP x hx)⟩

/-- Going past some text, it becomes the front of what was awaited. -/
lemma advance {w : List Char} (h : Awaits c e o P) (hw : c.Between o w o')
    (hb : Text.IsBoundary c.source o') (hP : ∀ x, P' x → P (w ++ x)) : Awaits c e o' P' := by
  obtain ⟨u, upto, derives⟩ := h.text
  have upto' := upto.advance hw hb
  refine ⟨?_, u ++ w, upto', ?_⟩
  · have := upto'.size
    rw [Text.byteSize_append, upto.size] at this
    have := h.opened
    omega
  · intro x hx
    obtain ⟨q, hq⟩ := derives (w ++ x) (hP x hx)
    exact ⟨q, by rwa [List.append_assoc u w x]⟩

/-- Going past the token at a place. -/
lemma token (h : Awaits c e o P) {k : Kind} (hk : c.kindAt o = k) (hne : k ≠ .endOfInput) :
    k.Form (c.textAt o) ∧ Awaits c e (c.next o) fun x => P (c.textAt o ++ x) := by
  obtain ⟨between, form⟩ := Setting.Between.token hk hne
  exact ⟨form, h.advance between (Setting.isBoundary_next h.boundary) fun _ hx => hx⟩

/-- Going past a parenthesis, a sequence is awaited, and one group more is open. -/
lemma enter {field : Option String} (h : Awaits c e o (IsValue field))
    (hk : c.kindAt o = .openParen) : Awaits c (e + 1) (c.next o) IsInner := by
  obtain ⟨u, upto, derives⟩ := h.text
  obtain ⟨between, form⟩ := Setting.Between.token hk (by simp)
  rw [show c.textAt o = ['('] from form] at between
  have upto' := upto.advance between (Setting.isBoundary_next h.boundary)
  refine ⟨?_, u ++ ['('], upto', ?_⟩
  · have size := upto'.size
    have one : ('(' : Char).utf8Size = 1 := rfl
    rw [Text.byteSize_append, upto.size, Text.byteSize_cons, one] at size
    have := h.opened
    omega
  · intro x hx
    obtain ⟨q, hq⟩ := derives _ (hx.value field)
    exact ⟨q, by simpa [List.replicate_succ] using hq⟩

/-! ### Continuations -/

/-- A lexeme that is the front of what is awaited continues the text. -/
lemma continues {k : Kind} {w t : List Char} (h : Awaits c e o P) (hk : k ≠ .endOfInput)
    (hw : k.IsLexeme w) (hP : P (w ++ t)) (hsize : Text.byteSize (w ++ t) ≤ 8) :
    Continues c o k := by
  obtain ⟨u, upto, derives⟩ := h.text
  obtain ⟨q, hq⟩ := derives _ hP
  refine ⟨u, upto, w, t ++ List.replicate e ')', q, hw, fun heq => absurd heq hk, ?_, ?_⟩
  · have := h.opened
    rw [← List.append_assoc, Text.byteSize_append, byteSize_closers]
    omega
  · simpa using hq

/-- A group may be closed where nothing more is awaited in it. -/
lemma closes (h : Awaits c (e + 1) o P) (hP : P []) : Continues c o .closeParen := by
  obtain ⟨u, upto, derives⟩ := h.text
  obtain ⟨q, hq⟩ := derives _ hP
  have scanned : Lexeme.scan [')'] = [⟨.closeParen, [')']⟩] := by decide
  refine ⟨u, upto, [')'], List.replicate e ')', q, scanned, nofun, ?_, ?_⟩
  · have one : (')' : Char).utf8Size = 1 := rfl
    have := h.opened
    rw [Text.byteSize_append, byteSize_closers, Text.byteSize_cons, Text.byteSize_nil, one]
    omega
  · simpa [List.replicate_succ] using hq

/-- The query may end where nothing more is awaited and no group is open. -/
lemma ends (h : Awaits c 0 o P) (hP : P []) : Continues c o .endOfInput := by
  obtain ⟨u, upto, derives⟩ := h.text
  obtain ⟨q, hq⟩ := derives _ hP
  refine ⟨u, upto, [], [], q, rfl, fun _ => rfl, by simp, ?_⟩
  simpa using hq

end Awaits

end SearchQuery
