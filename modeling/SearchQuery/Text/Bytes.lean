/-!
# Text measured in bytes

A text is a list of characters, and every place in it is named by the number of UTF-8 bytes
before it.  Only the places between two characters can be cut at, so the two cutting operations
`dropBytes?` and `takeBytes?` are partial: they answer `none` for a count that lies inside a
character or past the end.  `fittingIn` is the total companion that rounds a count down to the
nearest place between characters.

The cutting laws are `dropBytes?_eq_some_iff` and `takeBytes?_eq_some_iff`: a count can be cut at
exactly when it is the size of a front part, and then the parts are that one and the rest.
-/

namespace SearchQuery

/-- The largest number of bytes that a place in a text may have before it: places are kept in 32
bits. -/
def maxOffset : Nat := 4294967295

/-- A byte count as a place, held at `maxOffset` when it is larger. -/
def saturate (offset : Nat) : Nat := min offset maxOffset

namespace Text

/-- The number of bytes of a text in UTF-8. -/
def byteSize (text : List Char) : Nat := text.foldr (fun c size => c.utf8Size + size) 0

/-- The text without its first `count` bytes; `none` when `count` is not the size of a front part
of the text. -/
def dropBytes? : (count : Nat) → List Char → Option (List Char)
  | 0, text => some text
  | _ + 1, [] => none
  | count + 1, c :: text =>
    if c.utf8Size ≤ count + 1 then dropBytes? (count + 1 - c.utf8Size) text else none

/-- The first `count` bytes of the text; `none` when `count` is not the size of a front part of the
text. -/
def takeBytes? : (count : Nat) → List Char → Option (List Char)
  | 0, _ => some []
  | _ + 1, [] => none
  | count + 1, c :: text =>
    if c.utf8Size ≤ count + 1 then (takeBytes? (count + 1 - c.utf8Size) text).map (c :: ·) else none

/-- The longest front part of the text that fits in `count` bytes. -/
def fittingIn : (count : Nat) → List Char → List Char
  | _, [] => []
  | count, c :: text =>
    if c.utf8Size ≤ count then c :: fittingIn (count - c.utf8Size) text else []

/-- Whether the place after `count` bytes lies between two characters, or at an end. -/
def IsBoundary (text : List Char) (count : Nat) : Prop := (dropBytes? count text).isSome

instance (text : List Char) (count : Nat) : Decidable (IsBoundary text count) :=
  inferInstanceAs (Decidable ((dropBytes? count text).isSome = true))

/-! ## Sizes -/

@[simp] theorem byteSize_nil : byteSize [] = 0 := rfl

@[simp] theorem byteSize_cons (c : Char) (text : List Char) :
    byteSize (c :: text) = c.utf8Size + byteSize text := rfl

@[simp] theorem byteSize_append (front back : List Char) :
    byteSize (front ++ back) = byteSize front + byteSize back := by
  induction front with
  | nil => simp
  | cons c front ih => simp [ih, Nat.add_assoc]

theorem byteSize_pos {text : List Char} (h : text ≠ []) : 0 < byteSize text := by
  cases text with
  | nil => exact absurd rfl h
  | cons c more => exact Nat.add_pos_left c.utf8Size_pos _

/-! ## Cutting -/

@[simp] theorem dropBytes?_zero (text : List Char) : dropBytes? 0 text = some text := by
  cases text <;> rfl

/-- Behind a front part, bytes are counted from its end. -/
theorem dropBytes?_append_add (front text : List Char) (count : Nat) :
    dropBytes? (byteSize front + count) (front ++ text) = dropBytes? count text := by
  induction front with
  | nil => simp
  | cons c front ih =>
    have pos := c.utf8Size_pos
    obtain ⟨n, hn⟩ : ∃ n, byteSize (c :: front) + count = n + 1 :=
      ⟨byteSize (c :: front) + count - 1, by simp only [byteSize_cons]; omega⟩
    have fits : c.utf8Size ≤ n + 1 := by rw [← hn, byteSize_cons]; omega
    have rest : n + 1 - c.utf8Size = byteSize front + count := by rw [← hn, byteSize_cons]; omega
    rw [hn, List.cons_append, dropBytes?, if_pos fits, rest, ih]

/-- The bytes of a front part cut exactly that part off. -/
theorem dropBytes?_append (front back : List Char) :
    dropBytes? (byteSize front) (front ++ back) = some back := by
  simpa using dropBytes?_append_add front back 0

/-- Whatever can be cut off is a front part of just that many bytes. -/
theorem eq_append_of_dropBytes? {count : Nat} {text back : List Char}
    (h : dropBytes? count text = some back) :
    ∃ front, text = front ++ back ∧ byteSize front = count := by
  fun_induction dropBytes? count text with
  | case1 text => exact ⟨[], by simpa using h, rfl⟩
  | case2 => simp at h
  | case3 count c text fits ih =>
    obtain ⟨front, eq, size⟩ := ih h
    exact ⟨c :: front, by simp [eq], by rw [byteSize_cons, size]; omega⟩
  | case4 => simp at h

/-- Cutting off a count of bytes leaves what follows the front part of that size. -/
theorem dropBytes?_eq_some_iff {count : Nat} {text back : List Char} :
    dropBytes? count text = some back ↔ ∃ front, text = front ++ back ∧ byteSize front = count := by
  constructor
  · exact eq_append_of_dropBytes?
  · rintro ⟨front, rfl, rfl⟩
    exact dropBytes?_append front back

/-- The bytes of a front part take exactly that part. -/
theorem takeBytes?_append (front back : List Char) :
    takeBytes? (byteSize front) (front ++ back) = some front := by
  induction front with
  | nil => cases back <;> rfl
  | cons c front ih =>
    have pos := c.utf8Size_pos
    obtain ⟨n, hn⟩ : ∃ n, byteSize (c :: front) = n + 1 :=
      ⟨byteSize (c :: front) - 1, by simp only [byteSize_cons]; omega⟩
    have fits : c.utf8Size ≤ n + 1 := by rw [← hn, byteSize_cons]; omega
    have rest : n + 1 - c.utf8Size = byteSize front := by rw [← hn, byteSize_cons]; omega
    rw [hn, List.cons_append, takeBytes?, if_pos fits, rest, ih, Option.map_some]

/-- Whatever can be taken is a front part of just that many bytes. -/
theorem eq_append_of_takeBytes? {count : Nat} {text front : List Char}
    (h : takeBytes? count text = some front) :
    byteSize front = count ∧ ∃ back, text = front ++ back := by
  fun_induction takeBytes? count text generalizing front with
  | case1 text =>
    obtain rfl := Option.some.inj h
    exact ⟨rfl, text, rfl⟩
  | case2 => simp at h
  | case3 count c text fits ih =>
    obtain ⟨rest, hrest, rfl⟩ := Option.map_eq_some_iff.1 h
    obtain ⟨size, back, eq⟩ := ih hrest
    exact ⟨by rw [byteSize_cons, size]; omega, back, by simp [eq]⟩
  | case4 => simp at h

/-- Taking a count of bytes gives the front part of that size. -/
theorem takeBytes?_eq_some_iff {count : Nat} {text front : List Char} :
    takeBytes? count text = some front ↔ byteSize front = count ∧ ∃ back, text = front ++ back := by
  constructor
  · exact eq_append_of_takeBytes?
  · rintro ⟨rfl, back, rfl⟩
    exact takeBytes?_append front back

theorem isBoundary_zero (text : List Char) : IsBoundary text 0 := by
  rw [IsBoundary, dropBytes?_zero]
  rfl

/-- A place lies between characters exactly when it is the size of a front part. -/
theorem isBoundary_iff {text : List Char} {count : Nat} :
    IsBoundary text count ↔ ∃ front back, text = front ++ back ∧ byteSize front = count := by
  unfold IsBoundary
  constructor
  · intro h
    obtain ⟨back, eq⟩ := Option.isSome_iff_exists.1 h
    obtain ⟨front, eq⟩ := eq_append_of_dropBytes? eq
    exact ⟨front, back, eq⟩
  · rintro ⟨front, back, rfl, rfl⟩
    simp [dropBytes?_append]

/-! ## Rounding down -/

/-- What fits is a front part, of no more bytes than asked for. -/
theorem fittingIn_append_rest (count : Nat) (text : List Char) :
    byteSize (fittingIn count text) ≤ count ∧ ∃ back, text = fittingIn count text ++ back := by
  fun_induction fittingIn count text with
  | case1 => exact ⟨Nat.zero_le _, [], rfl⟩
  | case2 count c text fits ih =>
    obtain ⟨size, back, eq⟩ := ih
    refine ⟨by rw [byteSize_cons]; omega, back, ?_⟩
    rw [List.cons_append, ← eq]
  | case3 count c text => exact ⟨Nat.zero_le _, c :: text, rfl⟩

/-- At a place between characters nothing is rounded. -/
theorem fittingIn_append (front back : List Char) :
    fittingIn (byteSize front) (front ++ back) = front := by
  induction front with
  | nil =>
    cases back with
    | nil => rfl
    | cons c back =>
      have pos := c.utf8Size_pos
      have tooLong : ¬ c.utf8Size ≤ 0 := by omega
      rw [byteSize_nil, List.nil_append, fittingIn, if_neg tooLong]
  | cons c front ih =>
    have fits : c.utf8Size ≤ byteSize (c :: front) := by rw [byteSize_cons]; omega
    have rest : byteSize (c :: front) - c.utf8Size = byteSize front := by
      rw [byteSize_cons]; omega
    rw [List.cons_append, fittingIn, if_pos fits, rest, ih]

end Text

end SearchQuery
