import SearchQuery.Proofs.Grammar
import SearchQuery.Proofs.Scanning

/-!
# What texts begin with and what may follow them

The grammar puts texts side by side without saying where one of them ends.  That a reader finds the
seams is due to what comes after each: a blank, the end of a group, or the sign of the next part.
`Stops` names that for a list of signs.  The list grows from right to left as the parts of a clause
are gone through, and a token with any other sign cannot stand there.

In the other direction, `Inked` says of a text that no blank can be taken off its front, which is
what ends a run of blanks before it.
-/

namespace SearchQuery

/-! ## What follows -/

/-- A text begins with a blank, or with one of some signs, or is empty. -/
def Stops (signs : List Char) (w : List Char) : Prop :=
  ∀ d more, w = d :: more → isBlank d = true ∨ d ∈ signs

/-- A text is empty or begins with a closing parenthesis. -/
def Closing (w : List Char) : Prop := w = [] ∨ ∃ more, w = ')' :: more

namespace Stops

variable {signs : List Char} {v w : List Char}

lemma not_continues (h : Stops signs w) (hs : signs.all (!continuesWord ·) = true) (d : Char)
    (more : List Char) (hw : w = d :: more) : continuesWord d = false := by
  rcases h d more hw with hd | hd
  · exact (not_startsWord_of_isBlank hd).2
  · simpa using List.all_eq_true.1 hs d hd

lemma stopsNumber (h : Stops signs w) (hs : signs.all (fun d => !d.isDigit && d != '.') = true) :
    StopsNumber w := by
  intro d more hw
  rcases h d more hw with hd | hd
  · rcases isBlank_iff.1 hd with rfl | rfl | rfl | rfl | rfl <;> decide
  · simpa using List.all_eq_true.1 hs d hd

lemma of_blanks (h : IsBlanks v) : Stops signs (v ++ w) := by
  intro d more hw
  obtain ⟨b, rest, rfl⟩ := List.exists_cons_of_ne_nil h.ne_nil
  obtain ⟨rfl, -⟩ := List.cons.inj hw
  exact Or.inl (isBlank_of_form h)

lemma of_closing {gap back : List Char} (hgap : IsGap gap) (h : Closing back) :
    Stops [')'] (gap ++ back) := by
  cases gap with
  | nil =>
    rintro d more hw
    rcases h with rfl | ⟨tail, rfl⟩
    · cases hw
    · obtain ⟨rfl, -⟩ := List.cons.inj hw
      exact Or.inr (by simp)
  | cons b rest => exact of_blanks ⟨by simp, hgap⟩

/-- A part that begins with a sign, or is left out, may stand before what stops. -/
lemma part {α : Type} {text : α → List Char → Prop} {sign : Char} {a : Option α}
    (h : Stops signs w) (hv : PartText text a v)
    (hsign : ∀ a x, text a x → ∃ more, x = sign :: more) :
    Stops (sign :: signs) (v ++ w) := by
  intro d more hw
  cases hv with
  | absent =>
    rcases h d more hw with hd | hd
    · exact Or.inl hd
    · exact Or.inr (List.mem_cons_of_mem sign hd)
  | present hx =>
    obtain ⟨rest, rfl⟩ := hsign _ _ hx
    obtain ⟨rfl, -⟩ := List.cons.inj hw
    exact Or.inr List.mem_cons_self

lemma similarity {similarity : Option Similarity} (h : Stops signs w)
    (hv : PartText SimilarityText similarity v) : Stops ('~' :: signs) (v ++ w) := by
  refine h.part hv ?_
  rintro a x (_ | _)
  · exact ⟨[], rfl⟩
  · exact ⟨_, rfl⟩

lemma boost {boost : Option String} (h : Stops signs w) (hv : PartText BoostText boost v) :
    Stops ('^' :: signs) (v ++ w) := by
  refine h.part hv ?_
  rintro a x ⟨-, rfl⟩
  exact ⟨_, rfl⟩

end Stops

variable {c : Setting} {o : Nat}

/-- A token that stands at a place begins with the first character there. -/
lemma form_of_kindAt {k : Kind} (h : c.kindAt o = k) (hk : k ≠ .endOfInput) :
    ∃ d w more, k.Form (d :: w) ∧ c.rest o = d :: more := by
  obtain ⟨form, hrest, -⟩ := Setting.reads_of_kindAt h hk
  obtain ⟨d, w, htext⟩ := List.exists_cons_of_ne_nil form.ne_nil
  rw [htext] at form hrest
  exact ⟨d, w, w ++ c.rest (c.next o), form, hrest⟩

/-- What stops cannot be a token that begins with another sign. -/
lemma kindAt_ne_of_stops {signs : List Char} {sign : Char} {k : Kind} (h : Stops signs (c.rest o))
    (hk : k ≠ .endOfInput) (form : ∀ d w, k.Form (d :: w) → d = sign)
    (hblank : isBlank sign = false) (hsigns : sign ∉ signs) : c.kindAt o ≠ k := by
  intro hkind
  obtain ⟨d, w, more, hform, hrest⟩ := form_of_kindAt hkind hk
  obtain rfl := form d w hform
  rcases h d more hrest with hd | hd
  · rw [hd] at hblank
    cases hblank
  · exact hsigns hd

lemma kindAt_ne_fuzzy {signs : List Char} (h : Stops signs (c.rest o)) (hs : '~' ∉ signs) :
    c.kindAt o ≠ .fuzzy := by
  refine kindAt_ne_of_stops h (by simp) ?_ (by decide) hs
  rintro d w ⟨number, hw, -⟩
  exact (List.cons.inj hw).1

lemma kindAt_ne_boost {signs : List Char} (h : Stops signs (c.rest o)) (hs : '^' ∉ signs) :
    c.kindAt o ≠ .boost := by
  refine kindAt_ne_of_stops h (by simp) ?_ (by decide) hs
  rintro d w ⟨number, hw, -⟩
  exact (List.cons.inj hw).1

lemma kindAt_ne_colon {signs : List Char} (h : Stops signs (c.rest o)) (hs : ':' ∉ signs) :
    c.kindAt o ≠ .colon := by
  refine kindAt_ne_of_stops h (by simp) ?_ (by decide) hs
  intro d w hw
  exact (List.cons.inj hw).1

lemma kindAt_of_closing (h : Closing (c.rest o)) :
    c.kindAt o = .closeParen ∨ c.kindAt o = .endOfInput := by
  rcases h with h | ⟨more, h⟩
  · exact Or.inr (Setting.kindAt_of_rest_eq_nil h).1
  · exact Or.inl (Setting.at_punctuation h rfl).1

/-! ## What a text begins with -/

lemma endsBound_of_isBlank {d : Char} (h : isBlank d = true) : endsBound d = true := by
  simp [endsBound, h]

lemma IsBound.head {w : List Char} (h : IsBound w) (back : List Char) (d : Char)
    (more : List Char) (hw : w ++ back = d :: more) : isBlank d = false := by
  obtain ⟨first, rest, rfl⟩ := List.exists_cons_of_ne_nil h.1
  obtain ⟨rfl, -⟩ := List.cons.inj hw
  have hends := h.2 first (by simp)
  by_contra hblank
  rw [endsBound_of_isBlank (by simpa using hblank)] at hends
  cases hends

lemma IsBlanks.head {w : List Char} (h : IsBlanks w) (back : List Char) (d : Char)
    (more : List Char) (hw : w ++ back = d :: more) : isBlank d = true := by
  obtain ⟨first, rest, rfl⟩ := List.exists_cons_of_ne_nil h.ne_nil
  obtain ⟨rfl, -⟩ := List.cons.inj hw
  exact isBlank_of_form h

/-- Blanks end a bound. -/
lemma IsBlanks.endsBound {w : List Char} (h : IsBlanks w) (back : List Char) (d : Char)
    (more : List Char) (hw : w ++ back = d :: more) : endsBound d = true :=
  endsBound_of_isBlank (h.head back d more hw)

/-- A closing bracket ends a bound, with or without blanks before it. -/
lemma IsGap.endsBound {w : List Char} (h : IsGap w) {closing : Char}
    (hclosing : endsBound closing = true) (back : List Char) (d : Char) (more : List Char)
    (hw : w ++ (closing :: back) = d :: more) : endsBound d = true := by
  cases w with
  | nil =>
    obtain ⟨rfl, -⟩ := List.cons.inj hw
    exact hclosing
  | cons b rest => exact IsBlanks.endsBound ⟨by simp, h⟩ _ d more hw

/-- A text begins with a character that is no blank. -/
def Inked (w : List Char) : Prop := ∃ d more, w = d :: more ∧ isBlank d = false

lemma Inked.append {v w : List Char} (h : Inked v) : Inked (v ++ w) := by
  obtain ⟨d, more, rfl, hd⟩ := h
  exact ⟨d, more ++ w, rfl, hd⟩

lemma Inked.head {w : List Char} (h : Inked w) (back : List Char) (d : Char) (more : List Char)
    (hw : w ++ back = d :: more) : isBlank d = false := by
  obtain ⟨first, rest, rfl, hfirst⟩ := h
  obtain ⟨rfl, -⟩ := List.cons.inj hw
  exact hfirst

lemma Inked.byteSize_pos {w : List Char} (h : Inked w) : 0 < Text.byteSize w := by
  obtain ⟨d, more, rfl, -⟩ := h
  exact Text.byteSize_pos (by simp)

lemma IsWord.inked {w : List Char} (h : IsWord w) : Inked w := by
  obtain ⟨d, more, rfl, hd, -⟩ := h
  refine ⟨d, more, rfl, ?_⟩
  by_contra hblank
  rw [(not_startsWord_of_isBlank (by simpa using hblank)).1] at hd
  cases hd

lemma PartText.inked {α : Type} {text : α → List Char → Prop} {a : Option α} {v w : List Char}
    (hv : PartText text a v) (h : ∀ a x, text a x → Inked x) (hw : Inked w) : Inked (v ++ w) := by
  cases hv with
  | absent => exact hw
  | present hx => exact (h _ _ hx).append

lemma AtomText.inked {field : Option String} {a : Atom} {w : List Char} (h : AtomText field a w) :
    Inked w := by
  cases h with
  | term word suffix => exact word.1.inked.append
  | phrase quoted suffix => exact ⟨'"', _, rfl, by decide⟩
  | range hasField brackets _ _ _ _ _ _ =>
    cases brackets with
    | inclusive => exact ⟨'[', _, rfl, by decide⟩
    | exclusive => exact ⟨'\x7b', _, rfl, by decide⟩

/-- The marker and the field of a clause begin with no blank, if what comes after them does not. -/
lemma inked_lead {m : Modifiers} {u v w : List Char} (marker : PartText MarkerText m.marker u)
    (field : PartText FieldText m.field v) (hw : Inked w) : Inked (u ++ (v ++ w)) := by
  refine marker.inked ?_ (field.inked ?_ hw)
  · rintro a x (_ | _)
    · exact ⟨'+', [], rfl, by decide⟩
    · exact ⟨'-', [], rfl, by decide⟩
  · rintro name x ⟨fits, rfl⟩
    exact fits.1.1.inked.append

lemma ClauseText.inked {clause : Clause} {w : List Char} (h : ClauseText clause w) : Inked w := by
  cases h with
  | atom marker field text boost =>
    have inked := inked_lead marker field text.inked
    rw [← List.append_assoc] at inked
    exact inked.append
  | @group body m u v w x y z marker field before text after boost =>
    have paren : Inked ('(' :: w ++ x ++ y ++ [')']) := ⟨'(', _, rfl, by decide⟩
    have inked := inked_lead marker field paren
    rw [← List.append_assoc] at inked
    exact inked.append

lemma SequenceText.inked {q : Query} {w : List Char} (h : SequenceText q w) : Inked w := by
  cases h with
  | collapse unjoined text joined => exact text.inked.append

lemma JointText.blanks {operator : Option Operator} {w : List Char} (h : JointText operator w) :
    ∃ u v, IsBlanks u ∧ w = u ++ v := by
  cases h with
  | blank h => exact ⟨w, [], h, by simp⟩
  | @keyword operator u v w before keyword after => exact ⟨u, v ++ w, before, by simp⟩

/-- What comes after a clause in a sequence is a blank, or the end of the sequence. -/
lemma MoreText.stops {more : List Clause} {w gap back : List Char} (h : MoreText more w)
    (hgap : IsGap gap) (hback : Closing back) : Stops [')'] (w ++ (gap ++ back)) := by
  cases h with
  | nil =>
    show Stops [')'] (gap ++ back)
    exact .of_closing hgap hback
  | cons joint text joined =>
    obtain ⟨x, y, blanks, rfl⟩ := joint.blanks
    simp only [List.append_assoc]
    exact .of_blanks blanks

end SearchQuery
