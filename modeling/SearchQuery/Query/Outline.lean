import SearchQuery.Query.Canonical

/-!
# The outline of a query

An outline shows the tree of a query, one clause a line and two blanks a level.  A line `List`
stands above the clauses of a list, so that it can be told from a bare clause.  The texts of a
query are shown as they are.
-/

namespace SearchQuery

namespace Outline

/-- The indentation of a level. -/
def indent (level : Nat) : String := String.ofList (List.replicate (2 * level) ' ')

end Outline

namespace Atom

/-- The name and the text of a value. -/
def headline : Atom → String
  | term text _ => "Term \"" ++ text ++ "\""
  | phrase text _ => "Phrase \"" ++ text ++ "\""
  | range low high inclusive => "Range " ++ rangeText low high inclusive

/-- The suffix of a value as a property. -/
def property : Atom → String
  | term _ (some .default) => " similarity"
  | term _ (some (.value number)) => " similarity=" ++ number
  | term _ none => ""
  | phrase _ distance => optionalText distance (" distance=" ++ ·)
  | range _ _ _ => ""

end Atom

namespace Marker

/-- The word for a marker. -/
def name : Marker → String
  | required => "required"
  | prohibited => "prohibited"

end Marker

namespace Modifiers

/-- The properties that are listed before the suffix of the value. -/
def earlyProperties (m : Modifiers) : String :=
  optionalText m.field (" field=" ++ ·) ++ optionalText m.marker (" " ++ ·.name)

/-- The properties that are listed after the suffix of the value. -/
def lateProperties (m : Modifiers) : String :=
  optionalText m.boost (" boost=" ++ ·) ++ optionalText m.operator (" op=" ++ ·.keyword)

end Modifiers

mutual

/-- The outline of a query whose lines start at a level. -/
def Query.outlineAt (level : Nat) : Query → String
  | .single c => c.outlineAt level
  | .list cs => Outline.indent level ++ "List\n" ++ Clause.outlinesAt (level + 1) cs

/-- The outline of a clause whose first line is at a level. -/
def Clause.outlineAt (level : Nat) : Clause → String
  | .atom value m =>
    Outline.indent level ++ value.headline ++ m.earlyProperties ++ value.property ++
      m.lateProperties ++ "\n"
  | .group body m =>
    Outline.indent level ++ "Group" ++ m.earlyProperties ++ m.lateProperties ++ "\n" ++
      body.outlineAt (level + 1)

/-- The outlines of clauses at one level, one after the other. -/
def Clause.outlinesAt (level : Nat) : List Clause → String
  | [] => ""
  | c :: cs => c.outlineAt level ++ Clause.outlinesAt level cs

end

/-- The outline of a query. -/
def Query.outline (q : Query) : String := q.outlineAt 0

/-- The outline of a clause. -/
def Clause.outline (c : Clause) : String := c.outlineAt 0

end SearchQuery
