import SearchQuery.Proofs.Lines
import SearchQuery.Text.Position
import Mathlib.Data.List.DropRight
import Mathlib.Data.Prod.Lex
import Mathlib.Order.Bounds.Defs

/-!
# Positions tell places apart

Positions are compared by their lines first and by their columns next, which is the order of
`Position.key`.  Every character moves a position on, since a line break goes to a later line and
any other character to a later column of the same line (`Position.key_lt_advance`).  So a longer
front part of a text ends at a later position, although the column may have dropped on the way, and
a position stands for one place only.

`Position.after` counts character by character.  `Position.after_eq` is the closed form: the line
breaks in a text give the line where it ends, and the characters behind the last of them the column.

A byte count that is no place between characters is rounded down first.  `Text.isGreatest_fittingIn`
says that it is rounded to the last such place that is not past it.
-/

namespace SearchQuery

/-! ## Rounding down to a place -/

namespace Text

/-- A front part that fits in a count is in front of all that fits. -/
lemma exists_fittingIn_append {front : List Char} {count : Nat} (h : byteSize front ≤ count)
    (back : List Char) : ∃ more, fittingIn count (front ++ back) = front ++ more := by
  induction front generalizing count with
  | nil => exact ⟨fittingIn count back, rfl⟩
  | cons c front ih =>
    rw [byteSize_cons] at h
    have hfront : byteSize front ≤ count - c.utf8Size := by omega
    obtain ⟨more, hmore⟩ := ih hfront
    refine ⟨more, ?_⟩
    rw [List.cons_append, fittingIn, if_pos (by omega), hmore, List.cons_append]

/-- **A count is rounded down to the last place between characters**, or to the end of the text if
it is past that. -/
lemma isGreatest_fittingIn (count : Nat) (text : List Char) :
    IsGreatest {o | IsBoundary text o ∧ o ≤ min count (byteSize text)}
      (byteSize (fittingIn count text)) := by
  obtain ⟨fits, back, htext⟩ := fittingIn_append_rest count text
  have inside : byteSize (fittingIn count text) ≤ byteSize text := by
    calc byteSize (fittingIn count text)
        ≤ byteSize (fittingIn count text ++ back) := by
          rw [byteSize_append]
          exact Nat.le_add_right _ _
      _ = byteSize text := by rw [← htext]
  refine ⟨⟨isBoundary_iff.2 ⟨_, back, htext, rfl⟩, le_min fits inside⟩, ?_⟩
  rintro o ⟨boundary, ho⟩
  obtain ⟨front, rest, rfl, rfl⟩ := isBoundary_iff.1 boundary
  obtain ⟨more, hmore⟩ := exists_fittingIn_append (le_trans ho (min_le_left _ _)) rest
  rw [hmore, byteSize_append]
  exact Nat.le_add_right _ _

end Text

namespace Position

/-! ## The order of positions -/

/-- The line and the column, compared in this order. -/
def key (p : Position) : ℕ ×ₗ ℕ := toLex (p.line, p.column)

lemma key_lt_iff {p q : Position} :
    p.key < q.key ↔ p.line < q.line ∨ p.line = q.line ∧ p.column < q.column := Prod.Lex.lt_iff

/-- Every character moves a position on. -/
lemma key_lt_advance (p : Position) (c : Char) : p.key < (p.advance c).key := by
  rw [key_lt_iff]
  unfold advance
  split_ifs
  · exact Or.inl (Nat.lt_succ_self _)
  · exact Or.inr ⟨rfl, Nat.lt_succ_self _⟩

/-- More text ends at a later position. -/
lemma key_after_lt (front : List Char) {more : List Char} (h : more ≠ []) :
    (after front).key < (after (front ++ more)).key := by
  induction more using List.reverseRecOn with
  | nil => exact absurd rfl h
  | append_singleton more c ih =>
    rw [← List.append_assoc, after_append_singleton]
    refine lt_of_le_of_lt ?_ (key_lt_advance _ c)
    by_cases hmore : more = []
    · rw [hmore, List.append_nil]
    · exact le_of_lt (ih hmore)

/-! ## Counting lines and columns -/

/-- The position after a text, told by its line breaks and by what follows the last of them. -/
lemma after_eq (text : List Char) :
    after text = ⟨text.count '\n' + 1, (text.rtakeWhile (· ≠ '\n')).length + 1⟩ := by
  induction text using List.reverseRecOn with
  | nil => rfl
  | append_singleton text c ih =>
    rw [after_append_singleton, ih, advance, List.rtakeWhile_concat, List.count_append,
      List.count_singleton]
    by_cases h : c = '\n' <;> simp [h]

/-- **Places and positions come in the same order**, so that a position stands for one place.  Any
count of bytes has the position of the last place between characters that is not past it, and that
is told by the line breaks in front of the place and the characters behind the last of them. -/
theorem ofOffset_orders_places (text : List Char) :
    StrictMonoOn (fun o => (ofOffset text o).key) {o | Text.IsBoundary text o} ∧
      Set.InjOn (ofOffset text) {o | Text.IsBoundary text o} ∧
      ∀ offset, ∃ front back, text = front ++ back ∧
        IsGreatest {o | Text.IsBoundary text o ∧ o ≤ min offset (Text.byteSize text)}
          (Text.byteSize front) ∧
        ofOffset text offset = ofOffset text (Text.byteSize front) ∧
        ofOffset text offset =
          ⟨front.count '\n' + 1, (front.rtakeWhile (· ≠ '\n')).length + 1⟩ := by
  have increasing : StrictMonoOn (fun o => (ofOffset text o).key) {o | Text.IsBoundary text o} := by
    intro o ho o' ho' hlt
    obtain ⟨front, back, htext, rfl⟩ := Text.isBoundary_iff.1 ho
    obtain ⟨front', back', rfl, rfl⟩ := Text.isBoundary_iff.1 ho'
    obtain ⟨more, rfl⟩ := Text.prefix_of_byteSize_le htext.symm (le_of_lt hlt)
    have hmore : more ≠ [] := by
      rintro rfl
      rw [List.append_nil] at hlt
      exact lt_irrefl _ hlt
    dsimp only
    rw [ofOffset_append, htext, ofOffset_append]
    exact key_after_lt front hmore
  have injective : Set.InjOn (ofOffset text) {o | Text.IsBoundary text o} :=
    fun o ho o' ho' heq => increasing.injOn ho ho' (congrArg key heq)
  refine ⟨increasing, injective, ?_⟩
  intro offset
  obtain ⟨-, back, htext⟩ := Text.fittingIn_append_rest offset text
  have rounded := ofOffset_append (Text.fittingIn offset text) back
  rw [← htext] at rounded
  exact ⟨_, back, htext, Text.isGreatest_fittingIn offset text, rounded.symm, after_eq _⟩

/-- The column drops behind the line break and the position is later all the same; a count inside
the first character has the position in front of it, and one past the end the last position. -/
theorem ofOffset_orders_places_over_lineBreak :
    let text := ['é', 'b', '\n', 'c']
    Text.IsBoundary text 3 ∧ Text.IsBoundary text 4 ∧
      (ofOffset text 3).key < (ofOffset text 4).key ∧
      ofOffset text 3 = ⟨1, 3⟩ ∧ ofOffset text 4 = ⟨2, 1⟩ ∧ ofOffset text 1 = ⟨1, 1⟩ ∧
      ∃ front back, text = front ++ back ∧
        IsGreatest {o | Text.IsBoundary text o ∧ o ≤ min 9 (Text.byteSize text)}
          (Text.byteSize front) ∧
        ofOffset text 9 = ofOffset text (Text.byteSize front) ∧
        ofOffset text 9 = ⟨front.count '\n' + 1, (front.rtakeWhile (· ≠ '\n')).length + 1⟩ := by
  intro text
  obtain ⟨increasing, -, rounded⟩ := ofOffset_orders_places text
  have three : Text.IsBoundary text 3 := by decide
  have four : Text.IsBoundary text 4 := by decide
  refine ⟨three, four, increasing three four (by decide), by decide, by decide, by decide, ?_⟩
  exact rounded 9

end Position

end SearchQuery
