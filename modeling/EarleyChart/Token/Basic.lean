import EarleyChart.Token.Location

/-!
Tokens: a kind, which a grammar maps to a terminal, with the text read and the
position where it begins. A `Span` is the stretch of source an error refers to.
-/

namespace EarleyChart

abbrev TokenKind := Nat

structure Token where
  kind : TokenKind
  text : String
  location : Location
  deriving DecidableEq, Repr, Inhabited

namespace Token

def endLocation (token : Token) : Location :=
  (token.location.advance token.text.toList).wrap

end Token

/-- A stretch of source between two byte offsets, with the line and column of
its beginning. -/
structure Span where
  start : Nat
  stop : Nat
  line : Nat
  column : Nat
  deriving DecidableEq, Repr

namespace Span

def point (offset line column : Nat) : Span := ⟨offset, offset, line, column⟩

def first : Span := Span.point 0 1 1

instance : Inhabited Span := ⟨first⟩

def ofLocation (location : Location) : Span :=
  point location.offset location.line location.column

def ofToken (token : Token) : Span :=
  { ofLocation token.location with
    stop := (token.location.offset + byteLength token.text.toList) % UInt64.size }

end Span
end EarleyChart
