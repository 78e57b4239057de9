import EarleyChart.Parser.Basic

/-!
The closure of the newest column. Queued items are taken one at a time, the
oldest first. An item at the end of its rule advances every item of its origin
column that waits for the rule's nonterminal. An item before a nonterminal adds
the nonterminal's rules, once a column. An item before a terminal waits for the
next token.
-/

namespace EarleyChart
namespace Parser

/-- Adds the rules of a nonterminal to the newest column, once. -/
def predict (p : Parser) (symbol : SymbolId) : Parser :=
  match p.chart.newest?.bind (·.isPredicted? symbol) with
  | some false =>
      let news := p.chart.predictions p.grammar symbol
      let p := { p with
        chart := p.chart.modifyNewest (·.markPredicted symbol)
        tally := { p.tally with predictions := p.tally.predictions + 1 } }
      p.insertAll news
  | _ => p

/-- Advances the items that wait for a completed one. -/
def complete (p : Parser) (item : Item) : Parser :=
  let news := p.chart.completions p.grammar p.config.maxErrorValue item
  let p := { p with tally := { p.tally with completions := p.tally.completions + 1 } }
  p.insertAll news

/-- What an item of the newest column leads to within that column. -/
def process (p : Parser) (item : Item) : Parser :=
  match p.grammar.next? item.rule item.dot with
  | none => p.complete item
  | some symbol => if p.grammar.isNonterminal symbol then p.predict symbol else p

/-- The error of a chart with more items than the limit allows. -/
def limitError? (p : Parser) : Option ParseError :=
  if p.config.maxItems > 0 ∧ p.liveItems > p.config.maxItems then
    some (.itemLimitExceeded p.liveItems p.config.maxItems)
  else none

/-- Takes queued items until none is left or an error stops the run, at most as
many as the first argument says. -/
def closeFor : Nat → Parser → Parser × Option ParseError
  | 0, p => (p, none)
  | steps + 1, p =>
      match p.popItem with
      | (none, p) => (p, none)
      | (some id, p) =>
          match p.limitError? with
          | some e => (p, some e)
          | none =>
              match p.item? id with
              | none => (p, some (.internal s!"queued item {id.render} is not in the chart"))
              | some item => closeFor steps (p.process item)

/-- The number of dotted rules of a grammar. -/
def dottedRules (g : Grammar) : Nat :=
  g.rules.toList.foldr (fun r n => r.rhs.length + 1 + n) 0

/-- A bound on the items taken to close a column. The column holds at most one
item for each dotted rule and each origin. An item is queued when it is created,
when its cost is lowered, which happens less often than there are costs, and
again when an item that waits for it is created or lowered. -/
def closureBound (p : Parser) : Nat :=
  let items := p.columnCount * dottedRules p.grammar
  (maxCost + 2) * (items * (items + 1)) + 1

def close (p : Parser) : Parser × Option ParseError := closeFor p.closureBound p

end Parser
end EarleyChart
