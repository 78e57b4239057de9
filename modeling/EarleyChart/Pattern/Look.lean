import EarleyChart.Text.Word

/-!
Conditions on places between two characters, such as the beginning of a line or
the end of a word.
-/

namespace EarleyChart

inductive WordEdge where
  /-- Just one of them. -/
  | either
  /-- Both or none. -/
  | neither
  /-- The one after the place alone. -/
  | beginning
  /-- The one before the place alone. -/
  | ending
  /-- Not the one before. -/
  | noneBefore
  /-- Not the one after. -/
  | noneAfter
  deriving DecidableEq, Repr

inductive Look where
  | textStart
  | textEnd
  | lineStart
  | lineEnd
  /-- The beginning of a line that may end in a carriage return. -/
  | lineStartCRLF
  | lineEndCRLF
  /-- An edge of words of every script, or of ASCII. -/
  | word (edge : WordEdge) (unicode : Bool)
  deriving DecidableEq, Repr

namespace WordEdge

/-- Whether the condition holds if the characters before and after are, or are
not, of words. -/
def holds (edge : WordEdge) (before after : Bool) : Bool :=
  match edge with
  | .either => before != after
  | .neither => before == after
  | .beginning => !before && after
  | .ending => before && !after
  | .noneBefore => !before
  | .noneAfter => !after

end WordEdge

namespace Look

/-- Whether the condition holds between a character before and one after, each
absent at its end of the text. -/
def holds (look : Look) (before after : Option Char) : Bool :=
  match look with
  | .textStart => before.isNone
  | .textEnd => after.isNone
  | .lineStart => before.isNone || before == some '\n'
  | .lineEnd => after.isNone || after == some '\n'
  | .lineStartCRLF =>
      before.isNone || before == some '\n' || (before == some '\r' && after != some '\n')
  | .lineEndCRLF =>
      after.isNone || after == some '\r' || (after == some '\n' && before != some '\r')
  | .word edge true => edge.holds (before.any isWordChar) (after.any isWordChar)
  | .word edge false => edge.holds (before.any isAsciiWordChar) (after.any isAsciiWordChar)

end Look
end EarleyChart
