import SearchQuery.Proofs.Forms
import SearchQuery.Query.Basic

/-!
# The grammar on characters

Which texts spell which queries, said without tokens and without a reader.  Every nonterminal is a
relation between a value and a text, and a text is put together from those of its parts:

```
query     = gap sequence gap
sequence  = clause (joint clause)*
joint     = blanks | blanks keyword blanks
clause    = marker? (field ":")? value boost?
value     = term similarity? | phrase distance? | range | "(" gap sequence gap ")"
range     = "[" gap bound blanks "TO" blanks bound gap "]", or the same with braces
```

A range stands only after a field, so the relation for values knows the field.  The keyword in a
joint is the operator of the clause after it, and the first clause of a sequence has none.

Nothing here says where a word ends or which of two readings comes first.  That the texts can be
read in one way only is what reading them shows.
-/

namespace SearchQuery

/-! ## Parts of a clause -/

/-- The text of a part that may be left out. -/
inductive PartText {α : Type} (text : α → List Char → Prop) : Option α → List Char → Prop where
  | absent : PartText text none []
  | present {a : α} {w : List Char} (h : text a w) : PartText text (some a) w

inductive MarkerText : Marker → List Char → Prop where
  | required : MarkerText .required ['+']
  | prohibited : MarkerText .prohibited ['-']

inductive KeywordText : Operator → List Char → Prop where
  | and : KeywordText .and ['A', 'N', 'D']
  | or : KeywordText .or ['O', 'R']
  | not : KeywordText .not ['N', 'O', 'T']

inductive SimilarityText : Similarity → List Char → Prop where
  | default : SimilarityText .default ['~']
  | value {number : String} (h : IsNumber number.toList) :
      SimilarityText (.value number) ('~' :: number.toList)

def DistanceText (number : String) (w : List Char) : Prop :=
  IsDigits number.toList ∧ w = '~' :: number.toList

def BoostText (number : String) (w : List Char) : Prop :=
  IsNumber number.toList ∧ w = '^' :: number.toList

def FieldText (name : String) (w : List Char) : Prop :=
  IsFieldName name.toList ∧ w = name.toList ++ [':']

/-- The brackets of a range that holds its bounds, or does not. -/
inductive Brackets : Bool → Char → Char → Prop where
  | inclusive : Brackets true '[' ']'
  | exclusive : Brackets false '\x7b' '\x7d'

/-- The text of a value in a clause that has this field. -/
inductive AtomText (field : Option String) : Atom → List Char → Prop where
  | term {text : String} {similarity : Option Similarity} {w : List Char}
      (word : IsTermText text.toList) (suffix : PartText SimilarityText similarity w) :
      AtomText field (.term text similarity) (text.toList ++ w)
  | phrase {text : String} {distance : Option String} {w : List Char}
      (quoted : IsPhraseText text.toList) (suffix : PartText DistanceText distance w) :
      AtomText field (.phrase text distance) ('"' :: text.toList ++ ['"'] ++ w)
  | range {low high : String} {inclusive : Bool} {opening closing : Char} {u v w x : List Char}
      (hasField : field ≠ none) (brackets : Brackets inclusive opening closing) (before : IsGap u)
      (lowBound : IsBound low.toList) (blanksLow : IsBlanks v) (blanksHigh : IsBlanks w)
      (highBound : IsBound high.toList) (after : IsGap x) :
      AtomText field (.range low high inclusive)
        (opening :: u ++ low.toList ++ v ++ ['T', 'O'] ++ w ++ high.toList ++ x ++ [closing])

/-- What joins a clause to the one before it. -/
inductive JointText : Option Operator → List Char → Prop where
  | blank {w : List Char} (h : IsBlanks w) : JointText none w
  | keyword {operator : Operator} {u v w : List Char} (before : IsBlanks u)
      (keyword : KeywordText operator v) (after : IsBlanks w) :
      JointText (some operator) (u ++ v ++ w)

/-! ## Clauses and sequences -/

mutual

/-- The text of a clause, without what joins it to the one before it. -/
inductive ClauseText : Clause → List Char → Prop where
  | atom {value : Atom} {m : Modifiers} {u v w x : List Char}
      (marker : PartText MarkerText m.marker u) (field : PartText FieldText m.field v)
      (text : AtomText m.field value w) (boost : PartText BoostText m.boost x) :
      ClauseText (.atom value m) (u ++ v ++ w ++ x)
  | group {body : Query} {m : Modifiers} {u v w x y z : List Char}
      (marker : PartText MarkerText m.marker u) (field : PartText FieldText m.field v)
      (before : IsGap w) (text : SequenceText body x) (after : IsGap y)
      (boost : PartText BoostText m.boost z) :
      ClauseText (.group body m) (u ++ v ++ ('(' :: w ++ x ++ y ++ [')']) ++ z)

/-- The text of a sequence. -/
inductive SequenceText : Query → List Char → Prop where
  | collapse {first : Clause} {more : List Clause} {u v : List Char}
      (unjoined : first.modifiers.operator = none) (text : ClauseText first u)
      (joined : MoreText more v) : SequenceText (.collapse first more) (u ++ v)

/-- The text of the clauses after the first one of a sequence, each with what joins it. -/
inductive MoreText : List Clause → List Char → Prop where
  | nil : MoreText [] []
  | cons {next : Clause} {more : List Clause} {u v w : List Char}
      (joint : JointText next.modifiers.operator u) (text : ClauseText next v)
      (joined : MoreText more w) : MoreText (next :: more) (u ++ v ++ w)

end

/-- A text spells a query. -/
def Derives (text : List Char) (q : Query) : Prop :=
  ∃ u v w, IsGap u ∧ SequenceText q v ∧ IsGap w ∧ text = u ++ v ++ w

end SearchQuery
