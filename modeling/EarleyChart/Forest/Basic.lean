import EarleyChart.Parser.Basic

/-!
The forest of an accepted run. The chart is a packed forest already: every item
lists its derivations, and each of them points back at the item it was advanced
from and at the completed item it was advanced over.
-/

namespace EarleyChart

/-- The chart of an accepted run. -/
structure Forest where
  grammar : Grammar
  chart : Chart

namespace Parser

def forest? (p : Parser) : Option Forest :=
  if p.state = .accepted then some ⟨p.grammar, p.chart⟩ else none

end Parser

namespace Forest

def item? (f : Forest) (id : ItemId) : Option Item := f.chart.item? id

def token? (f : Forest) (column : Nat) : Option Token :=
  (f.chart.columns[column]?).bind (·.token)

def itemCount (f : Forest) : Nat :=
  f.chart.columns.toList.foldr (fun column n => column.size + n) 0

/-- The completed items of the start symbol over the whole input. -/
def roots (f : Forest) : List ItemId :=
  match f.chart.newest? with
  | none => []
  | some column =>
      ((f.chart.waitingFor column 0).filter fun item =>
        item.origin == 0 && f.grammar.lhs item.rule == f.grammar.start).map (·.id)

def minCost (f : Forest) : Option Nat :=
  ((f.roots.filterMap f.item?).map (·.errorCost)).min?

/-- The symbol that a step over a token stands for. -/
def steppedTerminal? (f : Forest) (item : Item) (link : Link) : Option SymbolId :=
  match link.step with
  | .scanned | .substituted =>
      if item.dot = 0 then none else f.grammar.next? item.rule (item.dot - 1)
  | .deleted | .completed => none

end Forest

namespace Parser

def acceptedCost (p : Parser) : Option Nat := p.forest?.bind (·.minCost)

end Parser
end EarleyChart
