import EarleyChart.Forest.Basic
import EarleyChart.Parser.Run
import EarleyChart.Token.Stream

/-!
Runs over several inputs. Each input has a parser of its own, and the results
come in the order of the inputs.
-/

namespace EarleyChart

/-- The summary of a run: the verdict, the number of columns, and the lowest
cost of an accepted input. -/
structure BatchOutcome where
  verdict : Verdict
  columns : Nat
  errorCost : Option Nat
  deriving DecidableEq, Repr

namespace Grammar

def parseOne {σ : Type} [TokenSource σ] (g : Grammar) (config : Config) (source : σ) :
    Except ParseError BatchOutcome :=
  let outcome := (Parser.withConfig g config).parse source
  outcome.result.map fun verdict =>
    ⟨verdict, outcome.parser.columnCount, outcome.parser.acceptedCost⟩

def parseAll {σ : Type} [TokenSource σ] (g : Grammar) (config : Config) (sources : List σ) :
    List (Except ParseError BatchOutcome) :=
  sources.map (g.parseOne config)

/-- Parses several lists of tokens; the room set aside fits each of them. -/
def parseAllTokens (g : Grammar) (config : Config) (inputs : List (List Token)) :
    List (Except ParseError BatchOutcome) :=
  inputs.map fun tokens =>
    g.parseOne { config with expectedTokens := tokens.length } (TokenStream.ofList tokens)

end Grammar
end EarleyChart
