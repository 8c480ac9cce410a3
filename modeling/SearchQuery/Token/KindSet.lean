import SearchQuery.Token.Kind

/-!
# Sets of kinds

What may stand at a place is a set of kinds.  A set holds one bit for each kind, so equal sets are
equal values (`KindSet.ext_mem`), and a union is a bitwise or (`KindSet.mem_union`).
-/

namespace SearchQuery

/-- A set of kinds: bit `i` stands for the kind with index `i`. -/
structure KindSet where
  bits : BitVec 22
deriving DecidableEq, Inhabited

namespace KindSet

/-- The set without members. -/
def empty : KindSet := ⟨0#22⟩

/-- The set with one member. -/
def only (k : Kind) : KindSet := ⟨BitVec.twoPow 22 k.index⟩

/-- The members of both sets together. -/
def union (s t : KindSet) : KindSet := ⟨s.bits ||| t.bits⟩

instance : EmptyCollection KindSet := ⟨empty⟩

instance : Union KindSet := ⟨union⟩

/-- The set of the listed kinds. -/
def ofList : List Kind → KindSet
  | [] => ∅
  | k :: kinds => only k ∪ ofList kinds

/-- Whether a kind is a member. -/
def contains (s : KindSet) (k : Kind) : Bool := s.bits.getLsbD k.index

instance : Membership Kind KindSet := ⟨fun s k => s.contains k = true⟩

instance (s : KindSet) (k : Kind) : Decidable (k ∈ s) :=
  inferInstanceAs (Decidable (s.contains k = true))

/-- Whether a set has no members. -/
def isEmpty (s : KindSet) : Bool := s.bits == 0#22

/-- The members in the order of kinds. -/
def toList (s : KindSet) : List Kind := Kind.all.filter s.contains

/-- The descriptions of the members in the order of kinds. -/
def descriptions (s : KindSet) : List String := s.toList.map Kind.description

/-! ## Membership -/

theorem mem_iff {s : KindSet} {k : Kind} : k ∈ s ↔ s.bits.getLsbD k.index = true := Iff.rfl

@[simp] theorem not_mem_empty (k : Kind) : k ∉ (∅ : KindSet) := by
  rw [mem_iff]
  show (0#22).getLsbD k.index ≠ true
  simp

@[simp] theorem mem_only {j k : Kind} : j ∈ only k ↔ j = k := by
  rw [mem_iff, only, BitVec.getLsbD_twoPow]
  have := k.index_lt
  rw [decide_eq_true this, Bool.true_and, decide_eq_true_eq, Kind.index_inj]
  exact eq_comm

@[simp] theorem mem_union {s t : KindSet} {k : Kind} : k ∈ s ∪ t ↔ k ∈ s ∨ k ∈ t := by
  show (s.bits ||| t.bits).getLsbD k.index = true ↔ _
  rw [BitVec.getLsbD_or, Bool.or_eq_true]
  rfl

@[simp] theorem mem_ofList {k : Kind} {kinds : List Kind} : k ∈ ofList kinds ↔ k ∈ kinds := by
  induction kinds with
  | nil => exact iff_of_false (not_mem_empty k) List.not_mem_nil
  | cons first kinds ih => rw [ofList, mem_union, mem_only, ih, List.mem_cons]

@[simp] theorem mem_toList {s : KindSet} {k : Kind} : k ∈ s.toList ↔ k ∈ s := by
  simp [toList, Kind.mem_all]
  rfl

/-- Two sets with the same members are the same value. -/
theorem ext_mem {s t : KindSet} (h : ∀ k, k ∈ s ↔ k ∈ t) : s = t := by
  obtain ⟨s⟩ := s
  obtain ⟨t⟩ := t
  congr 1
  apply BitVec.eq_of_getLsbD_eq
  intro i hi
  obtain ⟨k, rfl⟩ : ∃ k : Kind, k.index = i := by
    have get : ∀ i, i < 22 → ∃ k ∈ Kind.all, k.index = i := by decide
    obtain ⟨k, -, hk⟩ := get i hi
    exact ⟨k, hk⟩
  exact Bool.eq_iff_iff.2 (h k)

/-! ## What may start a phrase of the grammar -/

/-- What may start a clause. -/
def clauseStart : KindSet := ofList [.openParen, .plus, .minus, .phrase, .word]

/-- What may follow the marker of a clause. -/
def coreStart : KindSet := ofList [.openParen, .phrase, .word]

/-- What may follow a field and its colon: only there may a range stand. -/
def fieldValueStart : KindSet :=
  ofList [.openParen, .openBracket, .openBrace, .phrase, .word]

/-- The three joining keywords. -/
def keywords : KindSet := ofList [.keywordAnd, .keywordOr, .keywordNot]

end KindSet

end SearchQuery
