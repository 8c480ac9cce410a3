/-!
# Kinds of tokens

The kinds of tokens that a query text is cut into, followed by the kinds that never occur as tokens
and only tell a reader what would have been accepted at a place: the separator of a range, the
number after a phrase, a bound of a range, and the end of the input.

The order of the constructors is the order in which expectations are listed.
-/

namespace SearchQuery

/-- What a token is, or what could have stood in its place. -/
inductive Kind where
  | openParen
  | closeParen
  | openBracket
  | closeBracket
  | openBrace
  | closeBrace
  | colon
  | plus
  | minus
  /-- A tilde with an optional number after it. -/
  | fuzzy
  /-- A caret with a number after it. -/
  | boost
  /-- A quoted phrase, quotes included. -/
  | phrase
  | keywordAnd
  | keywordOr
  | keywordNot
  | word
  | blank
  /-- A run of characters that belong to no token. -/
  | stray
  /-- The separator of a range, which is a word everywhere else. -/
  | rangeTo
  /-- The whole number after the tilde of a phrase. -/
  | distance
  | rangeBound
  | endOfInput
deriving DecidableEq, Inhabited

namespace Kind

/-- All kinds, in their order. -/
def all : List Kind :=
  [openParen, closeParen, openBracket, closeBracket, openBrace, closeBrace, colon, plus, minus,
   fuzzy, boost, phrase, keywordAnd, keywordOr, keywordNot, word, blank, stray, rangeTo, distance,
   rangeBound, endOfInput]

/-- The place of a kind in the order of all kinds. -/
def index : Kind → Nat
  | openParen => 0
  | closeParen => 1
  | openBracket => 2
  | closeBracket => 3
  | openBrace => 4
  | closeBrace => 5
  | colon => 6
  | plus => 7
  | minus => 8
  | fuzzy => 9
  | boost => 10
  | phrase => 11
  | keywordAnd => 12
  | keywordOr => 13
  | keywordNot => 14
  | word => 15
  | blank => 16
  | stray => 17
  | rangeTo => 18
  | distance => 19
  | rangeBound => 20
  | endOfInput => 21

/-- Whether a kind is one of the three joining keywords. -/
def isKeyword : Kind → Bool
  | keywordAnd | keywordOr | keywordNot => true
  | _ => false

/-- The words for a kind in a list of expectations. -/
def description : Kind → String
  | openParen => "`(`"
  | closeParen => "`)`"
  | openBracket => "`[`"
  | closeBracket => "`]`"
  | openBrace => "`\x7b`"
  | closeBrace => "`\x7d`"
  | colon => "`:`"
  | plus => "`+`"
  | minus => "`-`"
  | fuzzy => "`~`"
  | boost => "`^` followed by a number"
  | phrase => "phrase"
  | keywordAnd => "`AND`"
  | keywordOr => "`OR`"
  | keywordNot => "`NOT`"
  | word => "term"
  | blank => "whitespace"
  | stray => "unrecognized input"
  | rangeTo => "`TO`"
  | distance => "integer distance after `~`"
  | rangeBound => "range bound"
  | endOfInput => "end of input"

theorem index_lt (k : Kind) : k.index < 22 := by cases k <;> decide

theorem mem_all (k : Kind) : k ∈ all := by cases k <;> decide

theorem index_inj {j k : Kind} : j.index = k.index ↔ j = k := by
  constructor
  · intro h
    have get (k : Kind) : all[k.index]? = some k := by cases k <;> rfl
    exact Option.some.inj ((get j).symm.trans (h ▸ get k))
  · rintro rfl
    rfl

end Kind

end SearchQuery
