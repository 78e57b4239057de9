import EarleyChart.Grammar.Basic
import EarleyChart.Text.Quoted

/-!
Grammars as GraphViz diagrams: terminals are ellipses, nonterminals are boxes,
and each rule has an edge from its left-hand side to every symbol it uses.
-/

namespace EarleyChart
namespace Grammar

def symbolNode (g : Grammar) (shape : String) (symbol : SymbolId) : String :=
  s!"  s{symbol} [label={quoted (g.symbolName symbol)}, shape={shape}]\n"

def ruleEdges (rule : Rule) (index : RuleId) : String :=
  String.join (rule.rhs.zipIdx.map fun (symbol, position) =>
    s!"  s{rule.lhs} -> s{symbol} [label=\"r{index}.{position}\"]\n")

def toDot (g : Grammar) : String :=
  "digraph Grammar \x7b\n" ++
  "  rankdir=TB;\n" ++
  String.join (g.terminalIds.map (g.symbolNode "ellipse")) ++
  String.join (g.nonterminalIds.map (g.symbolNode "box")) ++
  String.join (g.rules.toList.zipIdx.map fun (rule, index) => ruleEdges rule index) ++
  s!"  s{g.start} [style=filled, fillcolor=lightblue]\n" ++
  "\x7d\n"

end Grammar
end EarleyChart
