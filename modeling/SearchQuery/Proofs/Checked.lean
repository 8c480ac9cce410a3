import SearchQuery.Proofs.Reference
import SearchQuery.Proofs.Soundness

/-!
# Reading with every partial operation checked

Some operations of reading make sense only within bounds: a piece of the source is cut out by two
places that have to lie between characters and in order, the bytes after a place are counted by
subtraction, a token is ended at a place that must not lie before its start, and the counter of open
groups has 32 bits.  The steps of `Reader.checked` look before each of these whether it is within
its bounds, and meet a fault if it is not.  They also look for the end of a bound byte by byte, so
that nothing is taken for granted about characters.  The grammar is the same for this reader, so
that a bound of a range and the opening of a group are all that can differ.  `readTokens_checked`
says that no check ever fails, whatever the limits are and also while reading winds down after one
was reached.

## How this is shown

Bounds of ranges need no invariant: once the source can be cut where the bound starts, the first
byte that ends it is where a character starts (`getD_findIdx?_bytes`), and so the checked production
is the same function as the other (`bound_eq`).  The counter does need one, since it is the place
that keeps it small.  Each open group has taken a parenthesis, so that there are never more of them
than bytes in front.  `Stands` ties the state of a reader over tokens to a place, along with the
state of the reader on demand, about which the rest is known already.
-/

namespace SearchQuery

/-! ## Bytes -/

/-- The bytes of a text in UTF-8. -/
def Text.bytes (text : List Char) : List UInt8 := text.flatMap String.utf8EncodeChar

/-- The bytes that end a bound of a range: space, tab, return, newline, form feed and the two
closing brackets. -/
def endsBoundByte (byte : UInt8) : Bool :=
  [0x20, 0x09, 0x0d, 0x0a, 0x0c, 0x5d, 0x7d].contains byte

namespace Checked

open Production

/-! ## Steps with checks -/

/-- Goes to the token at a place.  A token is ended only at a place that is not before its start. -/
def seek (offset : Nat) : Production Nat := fun c s =>
  let i := Token.countEndingBy s.tokens offset
  match s.tokens[i]? with
  | none => .took i s
  | some token =>
    if offset ≤ token.span.start then .took i s
    else
      match Span.between? token.span.start offset with
      | none => .fault .notInSource
      | some span =>
        let kept := (s.tokens.extract 0 i).push { token with span }
        .took (i + 1)
          { s with
            tokens := kept ++ (Token.lexFrom c.source offset).toArray
            log := .recut offset :: s.log }

/-- A bound of a range.  It ends at the first byte that ends one, or after as many bytes as are
left. -/
def bound (pos : Nat) : Production (Taken String) := do
  let start ← view fun c s => s.offsetAt c.source pos
  let size ← view fun c _ => Text.byteSize c.source
  match ← view fun c _ => Text.dropBytes? start c.source with
  | none => abort .notInSource
  | some rest =>
    if size < start then abort .notInSource
    else
      let length := ((Text.bytes rest).findIdx? endsBoundByte).getD (size - start)
      if length = 0 then refuseAt pos (.only .rangeBound)
      else
        let next ← seek (start + length)
        match ← view fun c _ => Span.slice? ⟨start, length⟩ c.source with
        | none => abort .notInSource
        | some text => pure (String.ofList text, next)

/-- Goes on unless the counter of open groups is past its largest value. -/
def counted {α : Type} (body : Production α) : Production α := fun c s =>
  if maxOffset < s.depth then .fault .endless else body c s

/-- Opens a group and counts it. -/
def nested (pos : Nat) (body : Production (Taken Query)) : Production (Taken Query) :=
  Production.nested pos (counted body)

end Checked

/-- Over an array of tokens, with every partial operation checked. -/
@[reducible] def Reader.checked : Reader where
  toCursor := .overTokens
  bound := Checked.bound
  nested := Checked.nested

namespace Checked

/-- Reads the tokens of a source with every partial operation checked. -/
def readTokens (limits : Limits) (source : List Char) (tokens : List Token) : Reading :=
  let tokens := tokens.toArray
  let setting : Setting := ⟨source, limits.nesting⟩
  let state : State := { tokens, lookaheads := limits.lookaheads }
  Limits.conclude source (Reader.checked.query (limits.steps source tokens) 0 setting state)

/-- The query in a text, or why there is none, with every partial operation checked. -/
def parse (limits : Limits) (text : String) : Outcome :=
  let source := text.toList
  let size := Text.byteSize source
  if maxOffset < size then .rejected (.tooLarge size)
  else (readTokens limits source (Token.lex source)).outcome

end Checked

/-! ## The bytes of a bound -/

lemma toNat_lt_of_endsBound {ch : Char} (h : endsBound ch = true) : ch.toNat < 128 := by
  simp only [endsBound, Bool.or_eq_true, isBlank_iff, beq_iff_eq] at h
  rcases h with ((rfl | rfl | rfl | rfl | rfl) | rfl) | rfl <;> decide

/-- A byte of the first half is a character by itself. -/
lemma utf8EncodeChar_of_lt {ch : Char} (h : ch.toNat < 128) :
    String.utf8EncodeChar ch = [UInt8.ofNat ch.toNat] :=
  if_pos (Nat.le_of_lt_succ h)

/-- Of the other characters, every byte is from the second half. -/
lemma le_toNat_of_mem_utf8EncodeChar {ch : Char} (h : 128 ≤ ch.toNat) {byte : UInt8}
    (mem : byte ∈ String.utf8EncodeChar ch) : 128 ≤ byte.toNat := by
  have large : ¬ch.val.toNat ≤ 127 := not_le.2 h
  simp only [String.utf8EncodeChar, if_neg large] at mem
  split_ifs at mem
  all_goals
    simp only [List.mem_cons, List.not_mem_nil, or_false] at mem
    rcases mem with rfl | rfl | rfl | rfl
    all_goals simp only [UInt8.toNat_ofNat']; omega

/-- Bytes that end a bound are the characters that do. -/
lemma endsBoundByte_of_lt {ch : Char} (h : ch.toNat < 128) :
    endsBoundByte (UInt8.ofNat ch.toNat) = endsBound ch := by
  have all : ∀ n : Fin 128, endsBoundByte (UInt8.ofNat n) = endsBound (Char.ofNat n) := by decide
  have one := all ⟨ch.toNat, h⟩
  rwa [Char.ofNat_toNat] at one

/-- No byte of a character ends a bound, unless the character does. -/
lemma findIdx?_utf8EncodeChar {ch : Char} (h : endsBound ch = false) :
    (String.utf8EncodeChar ch).findIdx? endsBoundByte = none := by
  rw [List.findIdx?_eq_none_iff]
  intro byte mem
  by_cases hlt : ch.toNat < 128
  · rw [utf8EncodeChar_of_lt hlt, List.mem_singleton] at mem
    rw [mem, endsBoundByte_of_lt hlt, h]
  · have large := le_toNat_of_mem_utf8EncodeChar (not_lt.1 hlt) mem
    by_contra hends
    have small : ∀ byte : UInt8, endsBoundByte byte = true → byte.toNat < 128 := by
      intro byte hbyte
      simp only [endsBoundByte, List.contains_iff_mem, List.mem_cons, List.not_mem_nil,
        or_false] at hbyte
      rcases hbyte with rfl | rfl | rfl | rfl | rfl | rfl | rfl <;> decide
    have := small byte (by simpa using hends)
    omega

/-- **Looking for the end of a bound byte by byte finds the character that ends it**, or else the
end of the text. -/
lemma getD_findIdx?_bytes (text : List Char) :
    ((Text.bytes text).findIdx? endsBoundByte).getD (Text.byteSize text) =
      Text.byteSize (text.takeWhile (!endsBound ·)) := by
  induction text with
  | nil => rfl
  | cons ch more ih =>
    have split : Text.bytes (ch :: more) = String.utf8EncodeChar ch ++ Text.bytes more :=
      List.flatMap_cons
    rw [split, List.findIdx?_append]
    cases hends : endsBound ch with
    | true =>
      have hlt := toNat_lt_of_endsBound hends
      have found : (String.utf8EncodeChar ch).findIdx? endsBoundByte = some 0 := by
        rw [utf8EncodeChar_of_lt hlt, List.findIdx?_cons, endsBoundByte_of_lt hlt, hends]
        rfl
      rw [found, List.takeWhile_cons_of_neg (by simp [hends])]
      rfl
    | false =>
      rw [findIdx?_utf8EncodeChar hends, Option.none_or, String.length_utf8EncodeChar,
        List.takeWhile_cons_of_pos (by simp [hends]), Text.byteSize_cons, Text.byteSize_cons, ← ih,
        Nat.add_comm ch.utf8Size, Nat.add_comm ch.utf8Size]
      exact Option.getD_map (· + ch.utf8Size) _ _

namespace Checked

open Production

/-! ## Ranges -/

lemma seek_eq (offset : Nat) : seek offset = Production.seek offset := by
  funext c s
  unfold seek Production.seek
  dsimp only
  cases s.tokens[Token.countEndingBy s.tokens offset]? with
  | none => rfl
  | some token =>
    dsimp only
    by_cases h : offset ≤ token.span.start
    · rw [if_pos h, if_pos h]
    · have ordered : Span.between? token.span.start offset = some (token.span.cutAt offset) :=
        if_pos (le_of_lt (not_le.1 h))
      rw [if_neg h, if_neg h, ordered]

/-- **No check in a bound fails**, once the source can be cut where it starts. -/
lemma bound_eq (pos : Nat) : bound pos = Production.bound pos := by
  funext c s
  unfold bound Production.bound
  simp only [seek_eq, bind_apply, view]
  cases hd : Text.dropBytes? (s.offsetAt c.source pos) c.source with
  | none => rfl
  | some rest =>
    obtain ⟨front, hsource, hstart⟩ := Text.dropBytes?_eq_some_iff.1 hd
    have hsize : Text.byteSize c.source = s.offsetAt c.source pos + Text.byteSize rest := by
      rw [← hstart, ← Text.byteSize_append, ← hsource]
    have left : Text.byteSize c.source - s.offsetAt c.source pos = Text.byteSize rest := by omega
    have ordered : ¬Text.byteSize c.source < s.offsetAt c.source pos := by omega
    dsimp only
    rw [if_neg ordered, left, getD_findIdx?_bytes]
    cases hw : rest.takeWhile (!endsBound ·) with
    | nil => rfl
    | cons first more =>
      have hpos := Text.byteSize_pos (List.cons_ne_nil first more)
      have slice : Span.slice? ⟨s.offsetAt c.source pos, Text.byteSize (first :: more)⟩ c.source =
          some (first :: more) := by
        have parts : rest = (first :: more) ++ rest.dropWhile (!endsBound ·) := by
          rw [← hw, List.takeWhile_append_dropWhile]
        have whole := Span.slice?_append front (first :: more) (rest.dropWhile (!endsBound ·))
        rwa [← parts, ← hsource, hstart] at whole
      rw [if_neg (Nat.ne_of_gt hpos)]
      simp only [bind_apply]
      cases Production.seek (s.offsetAt c.source pos + Text.byteSize (first :: more)) c s with
      | took next s' => simp only [view, slice]
      | refused s' => rfl
      | fault cause => rfl

lemma range_eq (pos : Nat) : Reader.checked.range pos = Production.range pos := by
  unfold Production.range Reader.range Reader.rangeAfter
  rw [show Reader.checked.bound = Reader.overTokens.bound from funext bound_eq]

/-! ## Where a reader stands -/

/-- A reader over tokens is at an index from which it can go on with `e` groups open, and a reader
on demand is at the same place. -/
structure Stands (c : Setting) (e : Nat) (s : State) (pos : Nat) (t : State) (o : Nat) : Prop where
  ready : Ready c s pos pos s t pos o
  placed : t.Placed c
  depth : s.depth = e

variable {c : Setting} {e : Nat} {s t : State} {pos o : Nat}

lemma Stands.boundary (h : Stands c e s pos t o) : Text.IsBoundary c.source o :=
  h.ready.aligned.boundary

lemma Stands.withDepth (h : Stands c e s pos t o) (d : Nat) :
    Stands c d { s with depth := d } pos { t with depth := d } o :=
  ⟨(h.ready.withDepth d).rebase, h.placed.withDepth d, rfl⟩

/-- Going on in the same way after the same reply. -/
lemma bind_same {α β : Type} {p q : Production α} {f : α → Production β} (h : p c s = q c s) :
    (p >>= f) c s = (q >>= f) c s := by
  rw [bind_apply, bind_apply, h]

section rules

variable {α β γ : Type} {q : Production α} {r : Production β} {place : α → Nat} {place' : β → Nat}
  {L : β → Prop} {P : β → Nat → Prop} {R : State → State → Prop}

/-- After a production that both readers take, they stand at the places after it. -/
lemma Stands.took {a : α} {s' : State} (h : Stands c e s pos t o)
    (both : Reply.Both (fun a s' b t' => ∃ s₀ base k, Ready c s₀ base k s' t' (place a) (place' b))
      R (q c s) (r c t)) (leads : Leads c r L) (depth : Ensures c e r P)
    (hq : q c s = .took a s') : ∃ t' b, Stands c e s' (place a) t' (place' b) ∧ L b := by
  have led := leads t h.placed
  have paid := depth t (h.ready.agrees.depth.trans h.depth)
  rw [hq] at both
  cases hr : r c t with
  | took b t' =>
    rw [hr] at both led paid
    obtain ⟨s₀, base, k, ready⟩ := both
    exact ⟨t', b, ⟨ready.rebase, led.1, ready.agrees.depth.symm.trans paid.1⟩, led.2⟩
  | refused t' =>
    rw [hr] at both
    exact both.elim
  | fault cause =>
    rw [hr] at both
    exact both.elim

/-- Two ways to go on after a production are the same if they are wherever it leads. -/
lemma Stands.bind {f g : α → Production γ} (h : Stands c e s pos t o)
    (both : Reply.Both (fun a s' b t' => ∃ s₀ base k, Ready c s₀ base k s' t' (place a) (place' b))
      R (q c s) (r c t)) (leads : Leads c r L) (depth : Ensures c e r P)
    (next : ∀ a s' t' b, Stands c e s' (place a) t' (place' b) → L b → f a c s' = g a c s') :
    (q >>= f) c s = (q >>= g) c s := by
  rw [bind_apply, bind_apply]
  cases hq : q c s with
  | took a s' =>
    obtain ⟨t', b, stands, hb⟩ := h.took both leads depth hq
    exact next a s' t' b stands hb
  | refused s' => rfl
  | fault cause => rfl

/-- The same after a lookahead, for each kind that can be seen. -/
lemma Stands.lookAt_bind {f g : Kind → Production γ} (h : Stands c e s pos t o)
    (next : ∀ kind s' t', Stands c e s' pos t' o → (kind ≠ .endOfInput → c.kindAt o = kind) →
      f kind c s' = g kind c s') : (lookAt pos >>= f) c s = (lookAt pos >>= g) c s := by
  obtain ⟨s', t', hs, ht, agrees, tokens, furthest, -⟩ := lookAt_both h.ready.agrees h.ready.faces
  have led := leads_lookAt h.boundary t h.placed
  have paid := ensures_lookAt (c := c) (o := o) t (h.ready.agrees.depth.trans h.depth)
  rw [ht] at led paid
  rw [bind_of_took hs, bind_of_took hs]
  have ready := h.ready.of_same agrees tokens furthest
  exact next _ s' t' ⟨ready.rebase, led.1, agrees.depth.symm.trans paid.1⟩ fun hk => (led.2 hk).1

lemma Stands.expect_bind {kind : Kind} {f g : Nat → Production γ} (h : Stands c e s pos t o)
    (hk : kind ≠ .endOfInput)
    (next : ∀ p s' t' o', Stands c e s' p t' o' → c.Past o o' → f p c s' = g p c s') :
    (expect pos kind >>= f) c s = (expect pos kind >>= g) c s :=
  h.bind ((expect_both h.ready hk).mono (fun _ _ _ _ both => ⟨_, _, _, both.1⟩) fun _ _ h => h)
    (leads_expect hk h.boundary) ensures_expect next

lemma Stands.skipBlank_bind {f g : Nat → Production γ} (h : Stands c e s pos t o)
    (next : ∀ p s' t' o', Stands c e s' p t' o' → c.Onward o o' → f p c s' = g p c s') :
    (skipBlank pos >>= f) c s = (skipBlank pos >>= g) c s :=
  h.bind ((skipBlank_both h.ready).mono (fun _ _ _ _ both => ⟨_, _, _, both.1⟩) fun _ _ h => h)
    (leads_skipBlank h.boundary) ensures_skipBlank next

end rules

lemma Stands.record (h : Stands c e s pos t o) (expected : KindSet) (he : ∃ k, k ∈ expected) :
    Stands c e (s.record c.source pos expected) pos (t.recordAt o expected) o :=
  ⟨(h.ready.record expected).rebase, h.placed.recordAt h.boundary he, h.depth⟩

lemma Stands.next (h : Stands c e s pos t o) (hk : c.kindAt o ≠ .endOfInput) :
    Stands c e s (pos + 1) t (c.next o) :=
  ⟨(h.ready.next hk).rebase, h.placed, h.depth⟩

/-! ## Groups -/

/-- What is asked of the sequences in groups: that they are the same as those without checks from
every place after one on, as long as no more groups are open than there are bytes in front. -/
def InnerSame (c : Setting) (o : Nat) (inner inner' : Nat → Production (Taken Query)) : Prop :=
  ∀ {e : Nat} {s : State} {pos : Nat} {t : State} {o' : Nat}, Stands c e s pos t o' → e ≤ o' →
    c.Past o o' → inner pos c s = inner' pos c s

lemma InnerSame.onward {inner inner' : Nat → Production (Taken Query)}
    (h : InnerSame c o inner inner') {o₁ : Nat} (ho : c.Onward o o₁) :
    InnerSame c o₁ inner inner' :=
  fun stands room past => h stands room (ho.trans_past past)

section inner

variable {inner inner' : Nat → Production (Taken Query)}

/-- A group is opened the same as long as the counter is not full. -/
lemma nested_same {p q : Production (Taken Query)} (below : s.depth < maxOffset)
    (same : p c { s with depth := s.depth + 1 } = q c { s with depth := s.depth + 1 }) :
    nested pos p c s = Production.nested pos q c s := by
  unfold nested
  rw [nested_apply, nested_apply]
  cases hfull : c.fullAt s.depth with
  | some limit => rw [nestedAt_of_full hfull, nestedAt_of_full hfull]
  | none =>
    rw [nestedAt_of_free hfull, nestedAt_of_free hfull, counted, if_neg (not_lt.2 below), same]

/-- **The counter of open groups is not full where a group is opened**, since no more groups are
open than there are bytes in front. -/
lemma group_eq (hsize : Text.byteSize c.source ≤ maxOffset) (hinner : InnerSame c o inner inner')
    (h : Stands c e s pos t o) (room : e ≤ o) (hk : c.kindAt o = .openParen) :
    Reader.checked.group inner pos c s = Production.group inner' pos c s := by
  have below : s.depth < maxOffset := by
    have := (Setting.past_next h.boundary (by simp [hk])).lt
    have := Setting.le_byteSize (Setting.isBoundary_next h.boundary)
    have := h.depth
    omega
  refine nested_same below ?_
  apply (h.withDepth (s.depth + 1)).expect_bind (by simp)
  intro p₁ s₁ t₁ o₁ h₁ past
  apply h₁.skipBlank_bind
  intro p₂ s₂ t₂ o₂ h₂ onward
  have later := past.trans_onward onward
  have := later.lt
  have := h.depth
  exact bind_same (hinner h₂ (by omega) later)

lemma value_eq (hsize : Text.byteSize c.source ≤ maxOffset) (hinner : InnerSame c o inner inner')
    (field : Option String) (marker : Option Marker) (h : Stands c e s pos t o) (room : e ≤ o) :
    Reader.checked.value inner field marker pos c s =
      Production.value inner' field marker pos c s := by
  unfold Production.value Reader.value
  apply h.lookAt_bind
  intro kind s' t' h' stands
  cases kind
  case openParen =>
    exact bind_same (group_eq hsize hinner h' room (stands (by simp)))
  case openBracket =>
    cases field with
    | none => rfl
    | some name => rw [range_eq]
  case openBrace =>
    cases field with
    | none => rfl
    | some name => rw [range_eq]
  all_goals rfl

/-! ## Clauses -/

lemma clause_eq (hsize : Text.byteSize c.source ≤ maxOffset) (hinner : InnerSame c o inner inner')
    (operator : Option Operator) (h : Stands c e s pos t o) (room : e ≤ o) :
    Reader.checked.clause inner operator pos c s = Production.clause inner' operator pos c s := by
  unfold Production.clause Reader.clause
  apply h.bind ((marker_both h.ready).mono (fun _ _ _ _ both => ⟨_, _, _, both.2⟩) fun _ _ h => h)
    (marker_leads h.boundary) marker_sound
  rintro ⟨marker, p₁⟩ s₁ t₁ ⟨marker', o₁⟩ h₁ onward₁
  apply h₁.bind ((field_both h₁.ready).mono (fun _ _ _ _ both => ⟨_, _, _, both.2⟩) fun _ _ h => h)
    (field_leads h₁.boundary) field_sound
  rintro ⟨field, p₂⟩ s₂ t₂ ⟨field', o₂⟩ h₂ onward₂
  have onward := onward₁.trans onward₂
  exact bind_same (value_eq hsize (hinner.onward onward) field marker h₂ (le_trans room onward.le))

lemma joinedClause_eq (hsize : Text.byteSize c.source ≤ maxOffset)
    (hinner : InnerSame c o inner inner') (h : Stands c e s pos t o) (room : e ≤ o) :
    Reader.checked.joinedClause inner pos c s = Production.joinedClause inner' pos c s := by
  unfold Production.joinedClause Reader.joinedClause Reader.afterBlank
  apply h.expect_bind (by simp)
  intro p₁ s₁ t₁ o₁ h₁ past₁
  apply h₁.lookAt_bind
  intro kind s₂ t₂ h₂ stands
  cases hop : operatorOf? kind with
  | none =>
    have missed := h₂.record .keywords ⟨.keywordAnd, by decide⟩
    exact clause_eq hsize (hinner.onward past₁.onward) none missed (le_trans room past₁.onward.le)
  | some operator =>
    have hend : kind ≠ .endOfInput := OnDemand.ne_of_operatorOf? hop rfl
    have there := stands hend
    have keyword := Setting.past_next h₂.boundary (by rwa [there])
    apply (h₂.next (by rwa [there])).expect_bind (by simp)
    intro p₃ s₃ t₃ o₃ h₃ past₃
    have onward := (past₁.trans (keyword.trans past₃)).onward
    exact clause_eq hsize (hinner.onward onward) (some operator) h₃ (le_trans room onward.le)

end inner

/-! ## Sequences -/

/-- Clauses that are joined on in the same way come to the same. -/
lemma moreClauses_eq {joined joined' : Nat → Production (Taken Clause)}
    {twin : Nat → Production (Taken Clause)} {start : Nat} {P : Nat → Taken Clause → Nat → Prop}
    (same : ∀ {s : State} {pos : Nat} {t : State} {o : Nat}, Stands c e s pos t o →
      c.Onward start o → joined pos c s = joined' pos c s)
    (both : ∀ {s : State} {pos : Nat} {t : State} {o : Nat}, Ready c s pos pos s t pos o →
      Reply.Both (TookBoth c s pos) (fun s' t' => Tail c s pos s' t' pos o) (joined' pos c s)
        (twin o c t))
    (leads : ∀ o, c.Onward start o → Leads c (twin o) fun a => c.Past o a.2)
    (depth : ∀ o, Ensures c e (twin o) (P o)) (steps : Nat) (found : List Clause)
    (h : Stands c e s pos t o) (ho : c.Onward start o) :
    moreClauses joined steps found pos c s = moreClauses joined' steps found pos c s := by
  induction steps generalizing found s pos t o with
  | zero => rfl
  | succ steps ih =>
    unfold moreClauses
    rw [same h ho]
    cases hr : joined' pos c s with
    | took a s' =>
      obtain ⟨t', b, stands, past⟩ := h.took
        ((both h.ready).mono (fun _ _ _ _ both => ⟨_, _, _, both.2⟩) fun _ _ h => h)
        (leads o ho) (depth o) hr
      exact ih (a.1 :: found) stands (ho.trans past.onward)
    | refused s' => rfl
    | fault cause => rfl

/-- **A sequence is read the same with checks**, given steps beyond the end of the source. -/
theorem sequence_eq (hsize : Text.byteSize c.source ≤ maxOffset) (steps : Nat)
    (h : Stands c e s pos t o) (room : e ≤ o) (far : Text.byteSize c.source < o + steps) :
    Reader.checked.sequence steps pos c s = Production.sequence steps pos c s := by
  induction steps generalizing e s pos t o with
  | zero => rfl
  | succ steps ih =>
    have hinner : InnerSame c o (Reader.checked.sequence steps) (Production.sequence steps) := by
      intro e s pos t o' stands room past
      have := past.lt
      exact ih stands room (by omega)
    have leads : InnerLeads c o (OnDemand.sequence steps) := by
      intro o' past
      have := past.lt
      exact sequence_leads steps past.boundary (by omega)
    have inner : InnerBoth c (Production.sequence steps) (OnDemand.sequence steps) :=
      sequence_both c steps
    have sound := sequence_sound c steps
    unfold Production.sequence Reader.sequence
    refine (bind_same (clause_eq hsize hinner none h room)).trans ?_
    apply h.bind ((clause_both inner none h.ready).mono (fun _ _ _ _ both => ⟨_, _, _, both.2⟩)
      fun _ _ h => h) (clause_leads leads h.boundary none) (clause_sound sound none)
    rintro ⟨first, p₁⟩ s₁ t₁ ⟨first', o₁⟩ h₁ past
    have forward {o₂ : Nat} (h₂ : c.Onward o₁ o₂) : c.Onward o o₂ := past.onward.trans h₂
    have same :
        moreClauses (Reader.checked.joinedClause (Reader.checked.sequence steps)) steps [] p₁ c s₁ =
          moreClauses (Production.joinedClause (Production.sequence steps)) steps [] p₁ c s₁ :=
      moreClauses_eq
        (fun stands onward => joinedClause_eq hsize (hinner.onward (forward onward)) stands
          (le_trans room (forward onward).le))
        (fun ready => joinedClause_both inner ready)
        (fun o₂ onward => joinedClause_leads (leads.onward (forward onward)) onward.boundary)
        (fun o₂ => joinedClause_sound sound) steps [] h₁ (Setting.Onward.refl h₁.boundary)
    exact bind_same same

lemma query_eq {steps start : Nat} (hsize : Text.byteSize c.source ≤ maxOffset)
    (h : Stands c 0 s 0 t start) (far : Text.byteSize c.source < start + steps) :
    Reader.checked.query steps 0 c s = Production.query steps c s := by
  unfold Production.query Reader.query
  apply h.skipBlank_bind
  intro p s₁ t₁ o₁ h₁ onward
  have := onward.le
  exact bind_same (sequence_eq hsize steps h₁ (Nat.zero_le o₁) (by omega))

/-! ## Reading -/

lemma readTokens_eq (limits : Limits) {source : List Char} {start : Nat}
    (hsize : Text.byteSize source ≤ maxOffset) (hb : Text.IsBoundary source start) :
    readTokens limits source (Token.lexFrom source start) =
      limits.readTokens source (Token.lexFrom source start) := by
  let c : Setting := ⟨source, limits.nesting⟩
  let tokens := (Token.lexFrom source start).toArray
  let s : State := { tokens, lookaheads := limits.lookaheads }
  have agrees : Agrees c s (OnDemand.start limits) :=
    ⟨rfl, rfl, rfl, rfl, ⟨rfl, trivial⟩, start, Setting.tiles_lexFrom (c := c) hb⟩
  have stands : Stands c 0 s 0 (OnDemand.start limits) start :=
    ⟨⟨Held.refl agrees 0, ⟨hb, rfl⟩, nofun, le_rfl, le_rfl⟩, placed_start c limits, rfl⟩
  have far : Text.byteSize source < start + limits.steps source tokens := by
    unfold Limits.steps
    omega
  exact congrArg (Limits.conclude source) (query_eq hsize stands far)

end Checked

/-- **Reading stays within the bounds of every partial operation.**  For all limits and from every
place between characters of a source that is not too large, reading with checks is reading without,
event by event, and no check fails.  The same holds of reading a text of any size, since a text that
is too large is not read. -/
theorem readTokens_checked (limits : Limits) {source : List Char} {start : Nat}
    (hsize : Text.byteSize source ≤ maxOffset) (hb : Text.IsBoundary source start) :
    let tokens := Token.lexFrom source start
    Checked.readTokens limits source tokens = limits.readTokens source tokens ∧
      (∀ cause, (Checked.readTokens limits source tokens).outcome ≠ .fault cause) ∧
      ∀ text : String, Checked.parse limits text = limits.parse text ∧
        ∀ cause, Checked.parse limits text ≠ .fault cause := by
  have safe {source : List Char} {start : Nat} (hsize : Text.byteSize source ≤ maxOffset)
      (hb : Text.IsBoundary source start) :
      Checked.readTokens limits source (Token.lexFrom source start) =
          limits.readTokens source (Token.lexFrom source start) ∧
        ∀ cause, (Checked.readTokens limits source (Token.lexFrom source start)).outcome ≠
          .fault cause := by
    have same := Checked.readTokens_eq limits hsize hb
    refine ⟨same, ?_⟩
    intro cause
    rw [same, (readTokens_lexFrom limits hb).1]
    exact outcome_readFrom_ne_fault limits hb cause
  refine ⟨(safe hsize hb).1, (safe hsize hb).2, ?_⟩
  intro text
  by_cases htext : Text.byteSize text.toList ≤ maxOffset
  · obtain ⟨same, noFault⟩ := safe htext (Text.isBoundary_zero text.toList)
    have checked : Checked.parse limits text =
        (Checked.readTokens limits text.toList (Token.lex text.toList)).outcome :=
      if_neg (not_lt.2 htext)
    have unchecked : limits.parse text =
        (limits.readTokens text.toList (Token.lex text.toList)).outcome :=
      congrArg Reading.outcome (read_of_le htext)
    rw [checked, unchecked]
    exact ⟨congrArg Reading.outcome same, noFault⟩
  · have checked : Checked.parse limits text = .rejected (.tooLarge (Text.byteSize text.toList)) :=
      if_pos (not_le.1 htext)
    rw [checked, parse_of_tooLarge (not_le.1 htext)]
    exact ⟨rfl, nofun⟩

/-- The limit is reached right after what looked like a phrase was cut, and reading winds down. -/
theorem readTokens_checked_after_recut :
    let source := "é f:[\"x (\" TO z]".toList
    let limits : Limits := ⟨some 7, none⟩
    let tokens := Token.lexFrom source 3
    Text.byteSize source ≤ maxOffset ∧ Text.IsBoundary source 3 ∧
      Checked.readTokens limits source tokens = limits.readTokens source tokens ∧
      (Checked.readTokens limits source tokens).events.drop 7 =
        [.recut 8, .limitReached (.lookaheads 8), .lookedAt 8 .endOfInput] := by
  intro source limits tokens
  have hsize : Text.byteSize source ≤ maxOffset := by decide
  have boundary : Text.IsBoundary source 3 := by decide
  have same := (readTokens_checked limits hsize boundary).1
  have events : (limits.readTokens source tokens).events.drop 7 =
      [.recut 8, .limitReached (.lookaheads 8), .lookedAt 8 .endOfInput] := by decide +kernel
  refine ⟨hsize, boundary, same, ?_⟩
  rw [same]
  exact events

end SearchQuery
