import SearchQuery.Report.Excerpt
import Mathlib.Data.List.Basic

/-!
# Places on lines

The lines of a source lie side by side, each with its line break, and cover the source.  `Laid` is
that fact, and `laid_ofText` proves it of `SourceLine.ofText`.

With it a place can be told by a line and a place on that line, and `isSome_find?_iff` says when
this succeeds: exactly for places between two characters.  A place inside a line break is no
exception, because both characters of a line break are one byte long.  `isSome_ofSpan?_iff` carries
that over to the excerpt for a span.
-/

namespace SearchQuery

/-! ## Boundaries of parts -/

namespace Text

variable {front back text : List Char} {k : Nat}

lemma byteSize_reverse (text : List Char) : byteSize text.reverse = byteSize text := by
  induction text with
  | nil => rfl
  | cons c text ih =>
    rw [List.reverse_cons, byteSize_append, ih, byteSize_cons, byteSize_cons, byteSize_nil]
    omega

/-- Front parts of one text that have the same size are the same. -/
lemma prefix_of_byteSize_le {front' back' : List Char} (h : front ++ back = front' ++ back')
    (hsize : byteSize front ≤ byteSize front') : ∃ more, front' = front ++ more := by
  rcases List.append_eq_append_iff.1 h with ⟨more, rfl, -⟩ | ⟨more, rfl, -⟩
  · exact ⟨more, rfl⟩
  · rw [byteSize_append] at hsize
    have : more = [] := by
      by_contra hne
      have := byteSize_pos hne
      omega
    exact ⟨[], by simp [this]⟩

/-- Behind a front part, places are counted from its end. -/
lemma isBoundary_append_add :
    IsBoundary (front ++ text) (byteSize front + k) ↔ IsBoundary text k := by
  unfold IsBoundary
  rw [dropBytes?_append_add]

/-- What comes after a text does not matter for the places in it. -/
lemma isBoundary_append_of_le (h : k ≤ byteSize text) :
    IsBoundary (text ++ back) k ↔ IsBoundary text k := by
  rw [isBoundary_iff, isBoundary_iff]
  constructor
  · rintro ⟨front, back', heq, rfl⟩
    obtain ⟨more, rfl⟩ := prefix_of_byteSize_le heq.symm h
    exact ⟨front, more, rfl, rfl⟩
  · rintro ⟨front, back', rfl, rfl⟩
    exact ⟨front, back' ++ back, by simp, rfl⟩

lemma isBoundary_byteSize (text : List Char) : IsBoundary text (byteSize text) :=
  isBoundary_iff.2 ⟨text, [], by simp, rfl⟩

/-- Where every character is one byte long, every place is between two characters. -/
lemma isBoundary_of_singleBytes (h : ∀ c ∈ text, c.utf8Size = 1) (hk : k ≤ byteSize text) :
    IsBoundary text k := by
  induction text generalizing k with
  | nil =>
    obtain rfl : k = 0 := by simpa using hk
    simp [IsBoundary]
  | cons c text ih =>
    cases k with
    | zero => simp [IsBoundary]
    | succ k =>
      have one := h c List.mem_cons_self
      rw [byteSize_cons, one] at hk
      have tail := ih (fun d hd => h d (List.mem_cons_of_mem c hd)) (by omega : k ≤ byteSize text)
      have split : IsBoundary ([c] ++ text) (byteSize [c] + k) := isBoundary_append_add.2 tail
      simpa [one, Nat.add_comm] using split

lemma isSome_takeBytes?_iff : (takeBytes? k text).isSome ↔ IsBoundary text k := by
  rw [isBoundary_iff, Option.isSome_iff_exists]
  constructor
  · rintro ⟨front, h⟩
    obtain ⟨hsize, back, rfl⟩ := takeBytes?_eq_some_iff.1 h
    exact ⟨front, back, rfl, hsize⟩
  · rintro ⟨front, back, rfl, rfl⟩
    exact ⟨front, takeBytes?_append front back⟩

end Text

/-! ## Lines side by side -/

/-- What may end a line. -/
inductive LineEnd : List Char → Prop
  | none : LineEnd []
  | feed : LineEnd ['\n']
  | returnFeed : LineEnd ['\r', '\n']

lemma LineEnd.singleBytes {ending : List Char} (h : LineEnd ending) :
    ∀ c ∈ ending, c.utf8Size = 1 := by
  intro c hc
  cases h with
  | none => cases hc
  | feed =>
    rw [List.mem_singleton.1 hc]
    rfl
  | returnFeed =>
    rcases List.mem_cons.1 hc with rfl | hc
    · rfl
    · rw [List.mem_singleton.1 hc]
      rfl

/-- Lines lie side by side from a place on and cover a text, each with its line break. -/
inductive Laid : Nat → List Char → List SourceLine → Prop
  | nil (o : Nat) : Laid o [] []
  | cons {o : Nat} {line : SourceLine} {ending rest : List Char} {lines : List SourceLine}
      (hstart : line.start = o) (ends : LineEnd ending)
      (hstop : line.stop = o + Text.byteSize (line.text ++ ending))
      (tail : Laid line.stop rest lines) : Laid o (line.text ++ ending ++ rest) (line :: lines)

lemma Laid.eq_nil {o : Nat} {text : List Char} (h : Laid o text []) : text = [] := by
  cases h
  rfl

lemma exists_broken (start : Nat) (reversed : List Char) :
    ∃ ending, LineEnd ending ∧
      reversed.reverse ++ ['\n'] = (SourceLine.broken start reversed).text ++ ending := by
  unfold SourceLine.broken
  dsimp only
  split
  · exact ⟨['\r', '\n'], .returnFeed, by simp⟩
  · exact ⟨['\n'], .feed, rfl⟩

lemma laid_split (start : Nat) (reversed rest : List Char) :
    Laid start (reversed.reverse ++ rest) (SourceLine.split start reversed rest) := by
  induction rest generalizing start reversed with
  | nil =>
    cases reversed with
    | nil => exact .nil start
    | cons c more =>
      set line : SourceLine :=
        ⟨(c :: more).reverse, start, start + Text.byteSize (c :: more)⟩ with hline
      have hstop : line.stop = start + Text.byteSize (line.text ++ []) := by
        rw [List.append_nil, hline, Text.byteSize_reverse]
      have laid := Laid.cons rfl .none hstop (Laid.nil _)
      simpa [hline, SourceLine.split] using laid
  | cons c rest ih =>
    rw [SourceLine.split]
    split_ifs with hc
    · obtain ⟨ending, ends, heq⟩ := exists_broken start reversed
      have hstop : (SourceLine.broken start reversed).stop =
          start + Text.byteSize ((SourceLine.broken start reversed).text ++ ending) := by
        rw [← heq, Text.byteSize_append, Text.byteSize_reverse]
        rfl
      have hstart : (SourceLine.broken start reversed).start = start := rfl
      have laid := Laid.cons hstart ends hstop (ih _ [])
      rw [← heq] at laid
      simpa [hc] using laid
    · simpa using ih start (c :: reversed)

/-- **The lines of a text cover it.** -/
lemma laid_ofText (text : List Char) : Laid 0 text (SourceLine.ofText text) := by
  have laid := laid_split 0 [] text
  unfold SourceLine.ofText
  split
  · rename_i hnil
    rw [hnil] at laid
    obtain rfl : text = [] := laid.eq_nil
    exact @Laid.cons 0 ⟨[], 0, 0⟩ [] [] [] rfl .none rfl (.nil 0)
  · exact laid

lemma ofText_ne_nil (text : List Char) : SourceLine.ofText text ≠ [] := by
  unfold SourceLine.ofText
  split
  · simp
  · assumption

/-! ## The line of a place -/

/-- A place lies on a line. -/
def SourceLine.holds (line : SourceLine) (offset : Nat) : Bool :=
  line.start ≤ offset && offset < line.stop

/-- The first line that holds a place of the text starts after a front part of it. -/
lemma Laid.exists_holds {o x : Nat} {text : List Char} {lines : List SourceLine}
    (h : Laid o text lines) (ho : o ≤ x) (hx : x < o + Text.byteSize text) :
    ∃ i line front ending back, lines.findIdx? (·.holds x) = some i ∧ lines[i]? = some line ∧
      LineEnd ending ∧ text = front ++ (line.text ++ ending ++ back) ∧
      line.start = o + Text.byteSize front ∧ line.start ≤ x ∧
      x < line.start + Text.byteSize (line.text ++ ending) := by
  induction h with
  | nil => simp at hx; omega
  | @cons o line ending rest lines hstart ends hstop tail ih =>
    rw [Text.byteSize_append] at hx
    by_cases hline : x < line.stop
    · refine ⟨0, line, [], ending, rest, ?_, rfl, ends, rfl, hstart, by omega, by omega⟩
      rw [List.findIdx?_cons, if_pos]
      simp [SourceLine.holds, hstart, ho, hline]
    · obtain ⟨i, found, front, ending', back, hi, hget, ends', hrest, hfound, hle, hlt⟩ :=
        ih (by omega) (by omega)
      refine ⟨i + 1, found, line.text ++ ending ++ front, ending', back, ?_, hget, ends', ?_, ?_,
        hle, hlt⟩
      · rw [List.findIdx?_cons, if_neg, hi]
        · rfl
        · simp [SourceLine.holds, hline]
      · rw [hrest]
        simp
      · rw [hfound, hstop, Text.byteSize_append _ front]
        omega

/-- No line holds a place at the end, and each ends at or before it. -/
lemma Laid.not_holds {o x : Nat} {text : List Char} {lines : List SourceLine}
    (h : Laid o text lines) (hx : o + Text.byteSize text ≤ x) :
    ∀ line ∈ lines, line.holds x = false ∧ line.start + Text.byteSize line.text ≤ x := by
  induction h with
  | nil => simp
  | @cons o line ending rest lines hstart ends hstop tail ih =>
    rw [Text.byteSize_append] at hx
    intro found mem
    rcases List.mem_cons.1 mem with rfl | mem
    · rw [Text.byteSize_append] at hstop hx
      refine ⟨?_, by omega⟩
      simp only [SourceLine.holds, Bool.and_eq_false_iff, decide_eq_false_iff_not]
      right
      omega
    · exact ih (by omega) found mem

namespace Spot

/-- A place on a line can be shown exactly if it is between two characters of its text, or after
it. -/
lemma isSome_find?_of_getElem? {lines : List SourceLine} {offset : Nat} {line : SourceLine}
    (h : lines[lineOf lines offset]? = some line) :
    (find? lines offset).isSome ↔
      Text.IsBoundary line.text (min (offset - line.start) (Text.byteSize line.text)) := by
  unfold find?
  rw [← Text.isSome_takeBytes?_iff]
  cases htake : Text.takeBytes? (min (offset - line.start) (Text.byteSize line.text)) line.text <;>
    simp [h, htake]

/-- **A place can be shown exactly if it is between two characters of the source.** -/
theorem isSome_find?_iff {source : List Char} {offset : Nat}
    (h : offset ≤ Text.byteSize source) :
    (find? (SourceLine.ofText source) offset).isSome ↔ Text.IsBoundary source offset := by
  have laid := laid_ofText source
  rcases Nat.lt_or_eq_of_le h with hlt | rfl
  · obtain ⟨i, line, front, ending, back, hi, hget, ends, hsource, hstart, hle, hin⟩ :=
      laid.exists_holds (Nat.zero_le offset) (by omega)
    have hlineOf : lineOf (SourceLine.ofText source) offset = i := by
      unfold lineOf
      show (List.findIdx? (fun line : SourceLine => line.holds offset) _).getD _ = i
      rw [hi]
      rfl
    rw [isSome_find?_of_getElem? (hlineOf ▸ hget)]
    obtain ⟨k, rfl⟩ : ∃ k, offset = Text.byteSize front + k :=
      ⟨offset - Text.byteSize front, by omega⟩
    have onLine : Text.IsBoundary source (Text.byteSize front + k) ↔
        Text.IsBoundary (line.text ++ ending) k := by
      rw [hsource, Text.isBoundary_append_add, Text.isBoundary_append_of_le (by omega)]
    rw [onLine, show Text.byteSize front + k - line.start = k by omega]
    by_cases hk : k ≤ Text.byteSize line.text
    · rw [Nat.min_eq_left hk, Text.isBoundary_append_of_le hk]
    · -- inside the line break
      obtain ⟨j, rfl⟩ : ∃ j, k = Text.byteSize line.text + j :=
        ⟨k - Text.byteSize line.text, by omega⟩
      rw [Nat.min_eq_right (by omega), Text.isBoundary_append_add]
      refine iff_of_true (Text.isBoundary_byteSize _) ?_
      refine Text.isBoundary_of_singleBytes ends.singleBytes ?_
      rw [Text.byteSize_append] at hin
      omega
  · have past := laid.not_holds (by omega : 0 + Text.byteSize source ≤ Text.byteSize source)
    have hnone : (SourceLine.ofText source).findIdx? (·.holds (Text.byteSize source)) = none :=
      List.findIdx?_eq_none_iff.2 fun line mem => (past line mem).1
    have hlineOf : lineOf (SourceLine.ofText source) (Text.byteSize source) =
        (SourceLine.ofText source).length - 1 := by
      unfold lineOf
      show (List.findIdx? (fun line : SourceLine => line.holds (Text.byteSize source)) _).getD _ = _
      rw [hnone]
      rfl
    have hlast := List.getLast?_eq_some_getLast (ofText_ne_nil source)
    rw [List.getLast?_eq_getElem?, ← hlineOf] at hlast
    rw [isSome_find?_of_getElem? hlast]
    have := (past _ (List.getLast_mem (ofText_ne_nil source))).2
    rw [Nat.min_eq_right (by omega)]
    exact iff_of_true (Text.isBoundary_byteSize _) (Text.isBoundary_byteSize _)

/-- The line of a place that can be shown is there. -/
lemma isSome_line_of_find? {lines : List SourceLine} {offset : Nat} {spot : Spot}
    (h : find? lines offset = some spot) : (lines[spot.line]?).isSome := by
  unfold find? at h
  cases hget : lines[lineOf lines offset]? with
  | none => simp [hget] at h
  | some line =>
    cases htake :
      Text.takeBytes? (min (offset - line.start) (Text.byteSize line.text)) line.text with
    | none => simp [hget, htake] at h
    | some before =>
      simp only [hget, htake, Option.pure_def, Option.bind_eq_bind, Option.bind_some,
        Option.some.injEq] at h
      rw [← h, hget]
      rfl

end Spot

/-! ## Excerpts -/

/-- **A span has an excerpt exactly if both its ends, as they are shown, are between
characters.** -/
theorem isSome_ofSpan?_iff {source : List Char} {span : Span} (label : Option String)
    (hstart : span.start ≤ Text.byteSize source)
    (hstop : Excerpt.shownStop span (Text.byteSize source) ≤ Text.byteSize source) :
    (Excerpt.ofSpan? source span label).isSome ↔
      Text.IsBoundary source span.start ∧
        Text.IsBoundary source (Excerpt.shownStop span (Text.byteSize source)) := by
  rw [← Spot.isSome_find?_iff hstart, ← Spot.isSome_find?_iff hstop]
  unfold Excerpt.ofSpan?
  simp only [if_neg (by omega :
    ¬Text.byteSize source + 1 < Excerpt.shownStop span (Text.byteSize source))]
  cases hfirst : Spot.find? (SourceLine.ofText source) span.start with
  | none => simp
  | some first =>
    cases hlast : Spot.find? (SourceLine.ofText source)
        (Excerpt.shownStop span (Text.byteSize source)) with
    | none => simp
    | some last =>
      have hasFirst := Spot.isSome_line_of_find? hfirst
      have hasLast := Spot.isSome_line_of_find? hlast
      obtain ⟨firstLine, hfirstLine⟩ := Option.isSome_iff_exists.1 hasFirst
      obtain ⟨lastLine, hlastLine⟩ := Option.isSome_iff_exists.1 hasLast
      simp [hfirstLine, hlastLine]

end SearchQuery
