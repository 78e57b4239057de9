import EarleyChart.Grammar.Generating

/-!
Warnings about grammars that can be parsed but are probably mistakes:
nonterminals without rules, nonterminals that derive no string of terminals,
symbols out of reach of the start symbol, and nonterminals that derive
themselves.
-/

namespace EarleyChart

inductive WarningKind where
  | unreachable
  | unproductive
  | noProductions
  | cyclic
  deriving DecidableEq, Repr

namespace WarningKind

def label : WarningKind → String
  | .unreachable => "unreachable symbol"
  | .unproductive => "unproductive nonterminal"
  | .noProductions => "no productions"
  | .cyclic => "cyclic nonterminal"

end WarningKind

/-- A warning about a symbol, with the symbols that explain it. -/
structure Warning where
  kind : WarningKind
  symbol : SymbolId
  message : String
  related : List SymbolId
  deriving DecidableEq, Repr

namespace Warning

def render (w : Warning) : String :=
  let line := s!"[symbol {w.symbol}] {w.kind.label}: {w.message}"
  if w.related.isEmpty then line
  else
    let numbers := ", ".intercalate (w.related.map toString)
    s!"{line} (related symbols: [{numbers}])"

end Warning

namespace Grammar

def missingProductions (g : Grammar) : List Warning :=
  (g.nonterminalIds.filter fun a => (g.rulesFor a).isEmpty).map fun a =>
    ⟨.noProductions, a, s!"'{g.symbolName a}' has no rules and never matches", []⟩

def unproductiveNonterminals (g : Grammar) : List Warning :=
  let productive := g.productive
  (g.nonterminalIds.filter fun a =>
    !(g.rulesFor a).isEmpty && !productive.contains a).map fun a =>
    ⟨.unproductive, a, s!"'{g.symbolName a}' cannot derive any string of terminals", []⟩

def unreachableSymbols (g : Grammar) : List Warning :=
  let reachable := g.reachable
  ((g.terminalIds ++ g.nonterminalIds).filter fun a => !reachable.contains a).map fun a =>
    ⟨.unreachable, a,
      s!"'{g.symbolName a}' is not reachable from '{g.symbolName g.start}'", []⟩

/-- The nonterminals of a right-hand side all of whose other symbols are
nullable. -/
def unitSymbols (g : Grammar) (nullables : List SymbolId) (rhs : List SymbolId) :
    List SymbolId :=
  (rhs.zipIdx.filter fun (s, position) =>
    g.isNonterminal s && (rhs.eraseIdx position).all nullables.contains).map (·.1)

/-- The nonterminals that a nonterminal derives in one step, up to nullable
symbols around them. -/
def unitSuccessors (g : Grammar) (nullables : List SymbolId) (a : SymbolId) : List SymbolId :=
  ((g.rulesFor a).flatMap fun rule =>
    (g.rule? rule).elim [] fun r => g.unitSymbols nullables r.rhs).eraseDups

/-- Keeps the first path to each symbol that is not yet visited. -/
def keepFresh : List SymbolId → List (List SymbolId) → List (List SymbolId) × List SymbolId
  | visited, [] => ([], visited)
  | visited, path :: rest =>
      let last := path.getLast?.getD 0
      if visited.contains last then keepFresh visited rest
      else
        let (kept, visited) := keepFresh (last :: visited) rest
        (path :: kept, visited)

/-- Breadth-first search for a path that ends in the target: paths are extended
by one step at a time, and of several paths to a symbol the first is kept. -/
def shortestPath (successors : SymbolId → List SymbolId) (target : SymbolId) :
    Nat → List SymbolId → List (List SymbolId) → Option (List SymbolId)
  | 0, _, _ => none
  | steps + 1, visited, frontier =>
      let extended := frontier.flatMap fun path =>
        (successors (path.getLast?.getD 0)).map fun s => path ++ [s]
      match extended.find? (·.getLast? == some target) with
      | some path => some path
      | none =>
          let (fresh, visited) := keepFresh visited extended
          if fresh.isEmpty then none else shortestPath successors target steps visited fresh

/-- A shortest way from a nonterminal back to itself. Each step of the search
but the last visits a new nonterminal. -/
def cycle? (g : Grammar) (nullables : List SymbolId) (a : SymbolId) : Option (List SymbolId) :=
  shortestPath (g.unitSuccessors nullables) a (g.nonterminalCount + 1) [] [[a]]

def cyclicNonterminals (g : Grammar) : List Warning :=
  let nullables := g.nullables
  g.nonterminalIds.filterMap fun a =>
    (g.cycle? nullables a).map fun cycle =>
      let names := " => ".intercalate (cycle.map g.symbolName)
      ⟨.cyclic, a, s!"'{g.symbolName a}' derives itself: {names}", cycle⟩

/-- All warnings, by kind and then by symbol. -/
def warnings (g : Grammar) : List Warning :=
  g.missingProductions ++ g.unproductiveNonterminals ++ g.unreachableSymbols ++
    g.cyclicNonterminals

end Grammar
end EarleyChart
