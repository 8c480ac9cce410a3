import SearchQuery.Text.Span
import SearchQuery.Token.Lexeme

/-!
# Tokens

A token is a kind and the span that it covers.  `Token.lexFrom` cuts a text into tokens from any
place between characters on, with spans that count from the start of the whole text, so that the
same place has the same span however the text was cut before it.
-/

namespace SearchQuery

/-- A kind and the stretch of the source that it covers. -/
structure Token where
  kind : Kind
  span : Span
deriving DecidableEq, Inhabited

namespace Token

/-- Lays lexemes side by side from a place on. -/
def place : (offset : Nat) → List Lexeme → List Token
  | _, [] => []
  | offset, ⟨kind, text⟩ :: more =>
    let size := Text.byteSize text
    ⟨kind, ⟨offset, size⟩⟩ :: place (offset + size) more

/-- The tokens of the source from the place `start` on.  There are none when `start` lies inside a
character or past the end. -/
def lexFrom (source : List Char) (start : Nat) : List Token :=
  match Text.dropBytes? start source with
  | none => []
  | some rest => place start (Lexeme.scan rest)

/-- The tokens of the whole source. -/
def lex (source : List Char) : List Token := lexFrom source 0

end Token

end SearchQuery
