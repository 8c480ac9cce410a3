import SearchQuery.Query.Basic

/-!
# The canonical text of a query

The text that a query is written as: one blank between clauses, joining keywords kept, and the
parts of a clause in the order marker, field, value, suffix of the value, boost.  The keyword of
the first clause of a sequence has nothing to join it to and is not written.
-/

namespace SearchQuery

/-- The brackets of a range. -/
def rangeBrackets (inclusive : Bool) : String × String :=
  if inclusive then ("[", "]") else ("\x7b", "\x7d")

/-- A range as it is written. -/
def rangeText (low high : String) (inclusive : Bool) : String :=
  (rangeBrackets inclusive).1 ++ low ++ " TO " ++ high ++ (rangeBrackets inclusive).2

/-- The text of an optional part. -/
def optionalText {α : Type} (part : Option α) (text : α → String) : String :=
  match part with
  | none => ""
  | some a => text a

namespace Similarity

/-- The suffix of a term. -/
def suffix : Similarity → String
  | default => "~"
  | value number => "~" ++ number

end Similarity

namespace Atom

/-- The text of a value with its suffix. -/
def render : Atom → String
  | term text similarity => text ++ optionalText similarity Similarity.suffix
  | phrase text distance => "\"" ++ text ++ "\"" ++ optionalText distance ("~" ++ ·)
  | range low high inclusive => rangeText low high inclusive

end Atom

namespace Modifiers

/-- What stands before the value of a clause. -/
def lead (m : Modifiers) : String :=
  optionalText m.marker Marker.sign ++ optionalText m.field (· ++ ":")

/-- What stands after the value of a clause. -/
def trail (m : Modifiers) : String := optionalText m.boost ("^" ++ ·)

/-- What joins a clause to the one before it. -/
def joint (m : Modifiers) : String := " " ++ optionalText m.operator (·.keyword ++ " ")

end Modifiers

mutual

/-- The canonical text of a query. -/
def Query.render : Query → String
  | .single c => c.render
  | .list [] => ""
  | .list (c :: cs) => c.render ++ Clause.renderJoined cs

/-- The text of a clause, without what joins it to the one before it. -/
def Clause.render : Clause → String
  | .atom value m => m.lead ++ value.render ++ m.trail
  | .group body m => m.lead ++ ("(" ++ body.render ++ ")") ++ m.trail

/-- The text of the clauses after the first one of a sequence. -/
def Clause.renderJoined : List Clause → String
  | [] => ""
  | c :: cs => c.modifiers.joint ++ c.render ++ Clause.renderJoined cs

end

end SearchQuery
