import SearchQuery.Query.Outline

/-!
# Queries as JSON

A clause is an object: its value under a key that names the kind of value, then the modifiers that
it has.  A bare clause is that object and a list of clauses is an array, so the difference between
the two stays visible.  A similarity without a number is `null`, which tells it from an absent one
and from an empty one.

The same text is laid out in two ways, compactly or with one member a line and two blanks a level.
`JsonLayout` holds all that differs; arrays and objects are put together from the texts of their
parts.
-/

namespace SearchQuery

/-- How the parts of arrays and objects are set apart. -/
inductive JsonLayout where
  | compact
  | pretty
deriving DecidableEq

namespace JsonLayout

/-- What stands before a part at a level of nesting, or before the closing bracket of the level
above. -/
def lineBreak : JsonLayout → (level : Nat) → String
  | compact, _ => ""
  | pretty, level => "\n" ++ Outline.indent level

/-- What stands between a key and its value. -/
def colon : JsonLayout → String
  | compact => ":"
  | pretty => ": "

/-- Parts between brackets, the parts being one level deeper than the brackets. -/
def enclose (layout : JsonLayout) (level : Nat) (opening closing : String) : List String → String
  | [] => opening ++ closing
  | parts =>
    let gap := layout.lineBreak (level + 1)
    opening ++ gap ++ String.intercalate ("," ++ gap) parts ++ layout.lineBreak level ++ closing

end JsonLayout

namespace Json

/-- The lower hexadecimal digit of a number below sixteen. -/
def hexDigit (n : Nat) : Char := if n < 10 then Char.ofNat (48 + n) else Char.ofNat (87 + n)

/-- A character inside a string.  Quotes, backslashes and the control characters below the blank
are escaped, all others stand for themselves. -/
def escape (c : Char) : List Char :=
  if c = '"' then ['\\', '"']
  else if c = '\\' then ['\\', '\\']
  else if c = '\x08' then ['\\', 'b']
  else if c = '\t' then ['\\', 't']
  else if c = '\n' then ['\\', 'n']
  else if c = '\x0c' then ['\\', 'f']
  else if c = '\r' then ['\\', 'r']
  else if c.toNat < 0x20 then
    ['\\', 'u', '0', '0', hexDigit (c.toNat / 16), hexDigit (c.toNat % 16)]
  else [c]

/-- A text as a string. -/
def string (text : String) : String :=
  "\"" ++ String.ofList (text.toList.flatMap escape) ++ "\""

/-- A key and the text of its value. -/
abbrev Member := String × String

/-- A member whose value is a string. -/
def stringMember (key text : String) : Member := (key, string text)

/-- An array of parts at a level of nesting. -/
def array (layout : JsonLayout) (level : Nat) (parts : List String) : String :=
  layout.enclose level "[" "]" parts

/-- An object at a level of nesting. -/
def object (layout : JsonLayout) (level : Nat) (members : List Member) : String :=
  layout.enclose level "\x7b" "\x7d"
    (members.map fun (key, value) => string key ++ layout.colon ++ value)

end Json

namespace Atom

/-- The members that show a value, in an object at a level of nesting. -/
def jsonMembers (layout : JsonLayout) (level : Nat) : Atom → List Json.Member
  | term text similarity =>
    Json.stringMember "term" text ::
      match similarity with
      | none => []
      | some .default => [("similarity", "null")]
      | some (.value number) => [Json.stringMember "similarity" number]
  | phrase text distance =>
    Json.stringMember "phrase" text :: distance.toList.map (Json.stringMember "distance")
  | range low high inclusive =>
    [(if inclusive then "inclusive_range" else "exclusive_range",
      Json.object layout (level + 1) [Json.stringMember "from" low, Json.stringMember "to" high])]

end Atom

namespace Modifiers

/-- The members that show modifiers. -/
def jsonMembers (m : Modifiers) : List Json.Member :=
  m.field.toList.map (Json.stringMember "field") ++
  m.marker.toList.map (fun marker => Json.stringMember marker.name marker.sign) ++
  m.boost.toList.map (Json.stringMember "boost") ++
  m.operator.toList.map (fun operator => Json.stringMember "op" operator.keyword)

end Modifiers

mutual

/-- The JSON text of a query at a level of nesting. -/
def Query.jsonAt (layout : JsonLayout) (level : Nat) : Query → String
  | .single c => c.jsonAt layout level
  | .list cs => Json.array layout level (Clause.jsonsAt layout (level + 1) cs)

/-- The JSON text of a clause at a level of nesting. -/
def Clause.jsonAt (layout : JsonLayout) (level : Nat) : Clause → String
  | .atom value m => Json.object layout level (value.jsonMembers layout level ++ m.jsonMembers)
  | .group body m =>
    Json.object layout level (("group", body.jsonAt layout (level + 1)) :: m.jsonMembers)

/-- The JSON texts of clauses at one level of nesting. -/
def Clause.jsonsAt (layout : JsonLayout) (level : Nat) : List Clause → List String
  | [] => []
  | c :: cs => c.jsonAt layout level :: Clause.jsonsAt layout level cs

end

/-- The JSON text of a query. -/
def Query.json (layout : JsonLayout) (q : Query) : String := q.jsonAt layout 0

/-- The JSON text of a clause. -/
def Clause.json (layout : JsonLayout) (c : Clause) : String := c.jsonAt layout 0

end SearchQuery
