import EarleyChart.Grammar.Basic

/-!
Nonterminals that derive a string over a given set of symbols. With no symbol
given these are the nullable nonterminals, with all terminals given the
productive ones. The set is built from below: a round adds the left-hand side
of every rule whose right-hand side is made of given and already found symbols,
and rounds are repeated until one adds nothing.
-/

namespace EarleyChart
namespace Grammar

/-- Adds the left-hand side of a rule whose right-hand side is covered. -/
def generatingStep (given : SymbolId → Bool) (found : List SymbolId) (rule : Rule) :
    List SymbolId :=
  if found.contains rule.lhs then found
  else if rule.rhs.all fun s => given s || found.contains s then rule.lhs :: found
  else found

def generatingRound (g : Grammar) (given : SymbolId → Bool) (found : List SymbolId) :
    List SymbolId :=
  g.rules.toList.foldl (generatingStep given) found

/-- Repeats rounds until one adds nothing, at most as often as the first
argument says. -/
def generatingFrom (g : Grammar) (given : SymbolId → Bool) :
    Nat → List SymbolId → List SymbolId
  | 0, found => found
  | rounds + 1, found =>
      let more := g.generatingRound given found
      if more.length = found.length then found else generatingFrom g given rounds more

/-- The nonterminals that derive a string of given symbols. Every round but the
last adds a nonterminal, so their number bounds the rounds. -/
def generating (g : Grammar) (given : SymbolId → Bool) : List SymbolId :=
  g.generatingFrom given (g.nonterminalCount + 1) []

def nullables (g : Grammar) : List SymbolId :=
  g.generating fun _ => false

def nullable (g : Grammar) (symbol : SymbolId) : Bool :=
  g.nullables.contains symbol

def productive (g : Grammar) : List SymbolId :=
  g.generating g.isTerminal

/-- A search for symbols: those found, and those of them still to be looked at. -/
structure Search where
  found : List SymbolId
  stack : List SymbolId

def Search.meet (search : Search) (symbol : SymbolId) : Search :=
  if search.found.contains symbol then search
  else ⟨symbol :: search.found, symbol :: search.stack⟩

def Search.expand (g : Grammar) (search : Search) (symbol : SymbolId) : Search :=
  (g.rulesFor symbol).foldl
    (fun search rule => ((g.rule? rule).elim [] (·.rhs)).foldl Search.meet search) search

/-- Takes symbols from the stack until it is empty, at most as many as the first
argument says. -/
def Search.run (g : Grammar) : Nat → Search → Search
  | 0, search => search
  | steps + 1, search =>
      match search.stack with
      | [] => search
      | symbol :: stack => run g steps (expand g { search with stack } symbol)

/-- The symbols that occur in some sentential form of the start symbol. No symbol is
on the stack twice, so the number of symbols bounds the steps. -/
def reachable (g : Grammar) : List SymbolId :=
  (Search.run g (g.symbolCount + 1) ⟨[g.start], [g.start]⟩).found

end Grammar
end EarleyChart
