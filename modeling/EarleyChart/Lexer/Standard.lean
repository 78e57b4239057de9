import EarleyChart.Lexer.Basic
import EarleyChart.Pattern.Search
import EarleyChart.Pattern.Syntax

/-!
Lexers whose patterns are read and searched for by the definitions of this project.
-/

namespace EarleyChart

def Pattern.matcher (p : Pattern) : Matcher where
  matchEnd := (PatternSearch.ofPattern p).matchEnd
  matchEnd_le := PatternSearch.matchEnd_le

def Dialect.standard : Dialect where
  compile text :=
    match Pattern.parse? text with
    | some p => .ok p.matcher
    | none => .error "the pattern cannot be read"

def RegexLexer.ofDefs (s : Symbols) (defs : List TokenDef) : Except LexError RegexLexer :=
  ofDefsIn .standard s defs

end EarleyChart
