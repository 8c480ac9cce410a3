import SearchQuery.Text.Bytes

/-!
# Spans

A span is a stretch of text given by the place where it starts and its length, both in bytes, so
that its end never stands before its start.  A span may point anywhere; `Span.slice?` reads the
text it covers when both of its ends lie between characters of that text.
-/

namespace SearchQuery

/-- A stretch of text: `length` bytes from the place `start` on. -/
structure Span where
  start : Nat
  length : Nat
deriving DecidableEq, Inhabited

namespace Span

/-- The place just after the span. -/
def stop (span : Span) : Nat := span.start + span.length

/-- The span between two places, if they come in this order. -/
def between? (start stop : Nat) : Option Span :=
  if start ≤ stop then some ⟨start, stop - start⟩ else none

/-- The span of no bytes at a place. -/
def emptyAt (offset : Nat) : Span := ⟨offset, 0⟩

/-- The part of the span in front of a place. -/
def cutAt (span : Span) (offset : Nat) : Span := ⟨span.start, offset - span.start⟩

/-- The text that the span covers, if both of its ends lie between characters. -/
def slice? (span : Span) (text : List Char) : Option (List Char) :=
  (Text.dropBytes? span.start text).bind (Text.takeBytes? span.length)

@[simp] theorem stop_mk (start length : Nat) : stop ⟨start, length⟩ = start + length := rfl

theorem stop_cutAt {span : Span} {offset : Nat} (h : span.start ≤ offset) :
    (span.cutAt offset).stop = offset := by
  simp only [cutAt, stop_mk]; omega

/-- The span laid exactly over a middle part reads that part. -/
theorem slice?_append (front middle back : List Char) :
    slice? ⟨Text.byteSize front, Text.byteSize middle⟩ (front ++ (middle ++ back)) =
      some middle := by
  simp [slice?, Text.dropBytes?_append, Text.takeBytes?_append]

/-- A span reads a text exactly when that text stands at the span. -/
theorem slice?_eq_some_iff {span : Span} {text middle : List Char} :
    span.slice? text = some middle ↔
      ∃ front back, text = front ++ (middle ++ back) ∧ Text.byteSize front = span.start ∧
        Text.byteSize middle = span.length := by
  unfold slice?
  rw [Option.bind_eq_some_iff]
  constructor
  · rintro ⟨rest, hdrop, htake⟩
    obtain ⟨front, rfl, start⟩ := Text.dropBytes?_eq_some_iff.1 hdrop
    obtain ⟨length, back, rfl⟩ := Text.takeBytes?_eq_some_iff.1 htake
    exact ⟨front, back, rfl, start, length⟩
  · rintro ⟨front, back, rfl, start, length⟩
    refine ⟨middle ++ back, ?_, ?_⟩
    · exact Text.dropBytes?_eq_some_iff.2 ⟨front, rfl, start⟩
    · exact Text.takeBytes?_eq_some_iff.2 ⟨length, back, rfl⟩

end Span

end SearchQuery
