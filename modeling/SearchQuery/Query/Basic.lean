/-!
# Queries

A query is a sequence of clauses.  A clause is a value with modifiers: the field it applies to, a
marker that requires or prohibits it, a boost factor, and the keyword that joins it to the clause
before it.  The value is a term, a phrase, a range, or a group, which is again a sequence of
clauses; the first three are gathered in `Atom`, so that only groups recurse.

A clause that stands bare and a list of that one clause are different values.  `Query.collapse`
builds the *collapsed* form, in which one clause always stands bare; `Query.isCollapsed` recognises
it at every depth, and `Query.isCollapsed_collapse` ties the two together.

Numbers are kept as they were written, so that nothing of a query is lost.
-/

namespace SearchQuery

/-- A marker in front of a clause. -/
inductive Marker where
  | required
  | prohibited
deriving DecidableEq

/-- A keyword between two clauses.  It belongs to the second one. -/
inductive Operator where
  | and
  | or
  | not
deriving DecidableEq

/-- How far a term may differ from what it matches. -/
inductive Similarity where
  | default
  /-- A similarity given as a number, as written. -/
  | value (number : String)
deriving DecidableEq

/-- What surrounds the value of a clause. -/
structure Modifiers where
  field : Option String := none
  marker : Option Marker := none
  /-- The boost factor as written. -/
  boost : Option String := none
  /-- The keyword that joins the clause to the one before it. -/
  operator : Option Operator := none
deriving DecidableEq, Inhabited

/-- The value of a clause that holds no other clauses. -/
inductive Atom where
  | term (text : String) (similarity : Option Similarity)
  /-- A phrase, without its quotes, and the distance its words may move. -/
  | phrase (text : String) (distance : Option String)
  /-- A range between two bounds, with or without the bounds themselves. -/
  | range (low high : String) (inclusive : Bool)
deriving DecidableEq, Inhabited

mutual

/-- A sequence of clauses: one that stands bare, or a list. -/
inductive Query where
  | single (clause : Clause)
  | list (clauses : List Clause)

/-- A value with its modifiers. -/
inductive Clause where
  | atom (value : Atom) (modifiers : Modifiers)
  | group (body : Query) (modifiers : Modifiers)

end

instance : Inhabited Clause := ⟨.atom default {}⟩

instance : Inhabited Query := ⟨.single default⟩

/-! ## Equality -/

mutual

/-- Decides whether two queries are equal. -/
def Query.decEq : (p q : Query) → Decidable (p = q)
  | .single c, .single d =>
    match Clause.decEq c d with
    | isTrue h => isTrue (h ▸ rfl)
    | isFalse h => isFalse fun e => h (Query.single.inj e)
  | .list cs, .list ds =>
    match Clause.decEqList cs ds with
    | isTrue h => isTrue (h ▸ rfl)
    | isFalse h => isFalse fun e => h (Query.list.inj e)
  | .single _, .list _ => isFalse nofun
  | .list _, .single _ => isFalse nofun

/-- Decides whether two clauses are equal. -/
def Clause.decEq : (c d : Clause) → Decidable (c = d)
  | .atom a m, .atom b n =>
    if h : a = b ∧ m = n then isTrue (h.1 ▸ h.2 ▸ rfl)
    else isFalse fun e => h (Clause.atom.inj e)
  | .group p m, .group q n =>
    match Query.decEq p q, decEq m n with
    | isTrue h, isTrue k => isTrue (h ▸ k ▸ rfl)
    | isFalse h, _ => isFalse fun e => h (Clause.group.inj e).1
    | _, isFalse k => isFalse fun e => k (Clause.group.inj e).2
  | .atom _ _, .group _ _ => isFalse nofun
  | .group _ _, .atom _ _ => isFalse nofun

/-- Decides whether two lists of clauses are equal. -/
def Clause.decEqList : (cs ds : List Clause) → Decidable (cs = ds)
  | [], [] => isTrue rfl
  | c :: cs, d :: ds =>
    match Clause.decEq c d, Clause.decEqList cs ds with
    | isTrue h, isTrue k => isTrue (h ▸ k ▸ rfl)
    | isFalse h, _ => isFalse fun e => h (List.cons.inj e).1
    | _, isFalse k => isFalse fun e => k (List.cons.inj e).2
  | [], _ :: _ => isFalse nofun
  | _ :: _, [] => isFalse nofun

end

instance : DecidableEq Query := Query.decEq

instance : DecidableEq Clause := Clause.decEq

/-! ## Clauses -/

namespace Clause

/-- A bare term. -/
def term (text : String) : Clause := .atom (.term text none) {}

/-- A bare phrase. -/
def phrase (text : String) : Clause := .atom (.phrase text none) {}

/-- A bare range. -/
def range (low high : String) (inclusive : Bool) : Clause := .atom (.range low high inclusive) {}

/-- A bare group. -/
def ofQuery (body : Query) : Clause := .group body {}

/-- The modifiers of a clause. -/
def modifiers : Clause → Modifiers
  | .atom _ m => m
  | .group _ m => m

/-- The clause with its modifiers changed by `f`. -/
def modify (f : Modifiers → Modifiers) : Clause → Clause
  | .atom a m => .atom a (f m)
  | .group q m => .group q (f m)

/-- Sets the similarity of a term; other clauses have none and stay as they are. -/
def withSimilarity (similarity : Similarity) : Clause → Clause
  | .atom (.term text _) m => .atom (.term text (some similarity)) m
  | c => c

/-- Sets the distance of a phrase; other clauses have none and stay as they are. -/
def withDistance (distance : String) : Clause → Clause
  | .atom (.phrase text _) m => .atom (.phrase text (some distance)) m
  | c => c

/-- The clause with this field. -/
def withField (field : String) : Clause → Clause :=
  modify fun m => { m with field := some field }

/-- The clause with this marker. -/
def withMarker (marker : Marker) : Clause → Clause :=
  modify fun m => { m with marker := some marker }

/-- The clause with this boost factor. -/
def withBoost (boost : String) : Clause → Clause :=
  modify fun m => { m with boost := some boost }

/-- The clause joined by this keyword. -/
def withOperator (operator : Operator) : Clause → Clause :=
  modify fun m => { m with operator := some operator }

/-- The text of a term or a phrase. -/
def text? : Clause → Option String
  | .atom (.term text _) _ => some text
  | .atom (.phrase text _) _ => some text
  | .atom (.range _ _ _) _ => none
  | .group _ _ => none

/-- Whether the clause must match. -/
def isRequired (c : Clause) : Bool := c.modifiers.marker == some .required

/-- Whether the clause must not match. -/
def isProhibited (c : Clause) : Bool := c.modifiers.marker == some .prohibited

@[simp] theorem modifiers_modify (f : Modifiers → Modifiers) (c : Clause) :
    (c.modify f).modifiers = f c.modifiers := by
  cases c <;> rfl

end Clause

/-! ## Sequences -/

namespace Query

/-- The clauses of a query, in order. -/
def clauses : Query → List Clause
  | .single c => [c]
  | .list cs => cs

/-- The number of clauses. -/
def length (q : Query) : Nat := q.clauses.length

/-- The clause of a query that is one bare clause. -/
def single? : Query → Option Clause
  | .single c => some c
  | .list _ => none

/-- The collapsed form of a sequence: a clause alone stands bare. -/
def collapse (first : Clause) : List Clause → Query
  | [] => .single first
  | more => .list (first :: more)

/-- The collapsed form of a list of clauses; there is none of no clauses. -/
def ofClauses? : List Clause → Option Query
  | [] => none
  | first :: more => some (collapse first more)

mutual

/-- Whether every list in the query, groups included, has at least two clauses. -/
def isCollapsed : Query → Bool
  | .single c => bodyIsCollapsed c
  | .list cs => 2 ≤ cs.length && bodiesAreCollapsed cs

/-- Whether the body of the clause, if it is a group, is collapsed. -/
def bodyIsCollapsed : Clause → Bool
  | .atom _ _ => true
  | .group body _ => body.isCollapsed

/-- Whether the bodies of all groups among the clauses are collapsed. -/
def bodiesAreCollapsed : List Clause → Bool
  | [] => true
  | c :: cs => bodyIsCollapsed c && bodiesAreCollapsed cs

end

@[simp] theorem clauses_collapse (first : Clause) (more : List Clause) :
    (collapse first more).clauses = first :: more := by
  cases more <;> rfl

theorem bodiesAreCollapsed_iff {cs : List Clause} :
    bodiesAreCollapsed cs = true ↔ ∀ c ∈ cs, bodyIsCollapsed c = true := by
  induction cs with
  | nil => simp [bodiesAreCollapsed]
  | cons c cs ih => simp [bodiesAreCollapsed, ih]

/-- Collapsing clauses whose groups are collapsed gives a collapsed query. -/
theorem isCollapsed_collapse {first : Clause} {more : List Clause}
    (bodies : ∀ c ∈ first :: more, bodyIsCollapsed c = true) :
    (collapse first more).isCollapsed = true := by
  cases more <;> simpa [collapse, isCollapsed, bodiesAreCollapsed_iff] using bodies

end Query

/-! ## Spellings -/

namespace Marker

/-- The sign of a marker. -/
def sign : Marker → String
  | required => "+"
  | prohibited => "-"

end Marker

namespace Operator

/-- The keyword as it is written. -/
def keyword : Operator → String
  | and => "AND"
  | or => "OR"
  | not => "NOT"

end Operator

end SearchQuery
