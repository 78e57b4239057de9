import EarleyChart.Parser.Basic

/-!
Repair of the input around a token. For every item that waits for a terminal
there are two corrections: the token is dropped and the item stays as it is, or
the token is read as the terminal and the item is advanced. Each has a price
set by the cost provider, and none is made whose total cost is above the
ceiling.
-/

namespace EarleyChart
namespace Chart

/-- The items of the newest column that wait for a terminal, in the order of
their creation. -/
def waitingItems (c : Chart) (g : Grammar) : List WaitingItem :=
  match c.newest? with
  | none => []
  | some column =>
      let waiting := g.terminalIds.flatMap fun terminal =>
        (c.waitingFor column terminal).map fun item =>
          ⟨item.id, item.rule, item.dot, item.origin, terminal, item.errorCost⟩
      waiting.mergeSort fun a b => a.id.le b.id

end Chart

namespace WaitingItem

/-- The item kept after the token is dropped. -/
def deleting (w : WaitingItem) (cost : CorrectionCost) : Candidate where
  rule := w.rule
  dot := w.dot
  origin := w.origin
  errorCost := addCost w.errorCost cost.deletion
  link := some ⟨.deleted, w.id, none⟩

/-- The item advanced over the token read as its terminal. -/
def substituting (w : WaitingItem) (cost : CorrectionCost) : Candidate where
  rule := w.rule
  dot := w.dot + 1
  origin := w.origin
  errorCost := addCost w.errorCost cost.substitution
  link := some ⟨.substituted, w.id, none⟩

/-- The corrections of one item within the ceiling. A token is not read as the
terminal that it is. -/
def corrections (ceiling : Nat) (actual : Option SymbolId) (w : WaitingItem)
    (cost : CorrectionCost) : List Candidate :=
  [w.deleting cost].filter (·.errorCost ≤ ceiling) ++
    if actual = some w.expected then []
    else [w.substituting cost].filter (·.errorCost ≤ ceiling)

end WaitingItem

/-- What repair finds at a token. -/
inductive Corrections where
  /-- Items for the next column. -/
  | found (items : List Candidate)
  /-- No item waits for a terminal. -/
  | nothingWaiting
  /-- Every correction costs more than the ceiling. -/
  | overBudget
  deriving DecidableEq, Repr

/-- The items of the next column, or why there are none: a token can be read as
itself, and the corrections that were found are added. -/
def Corrections.reading (column : Nat) (token : Token) (scans : List Candidate) :
    Corrections → Except Rejection (List Candidate)
  | .found items => .ok (scans ++ items)
  | .nothingWaiting =>
      if scans.isEmpty then .error (.recoveryExhausted column token) else .ok scans
  | .overBudget =>
      if scans.isEmpty then .error (.budgetExceeded column token) else .ok scans

namespace Parser

/-- Looks for corrections of a token in the newest column. The cost provider is
asked only where an item waits, and must answer with one price for each. -/
def correct (p : Parser) (found : Token) : Except ParseError Corrections × Parser :=
  let waiting := p.chart.waitingItems p.grammar
  if waiting.isEmpty then (.ok .nothingWaiting, p)
  else
    let costs := p.costs p.grammar waiting found
    let p := { p with requests := ⟨found, waiting⟩ :: p.requests }
    if costs.length ≠ waiting.length then
      (.error (.collaborator
        s!"cost provider returned {costs.length} costs for {waiting.length} waiting items"), p)
    else
      let actual := p.grammar.terminalForKind? found.kind
      let items := (waiting.zip costs).flatMap fun (w, cost) =>
        w.corrections p.config.maxErrorValue actual cost
      let p := { p with
        tally := { p.tally with corrections := p.tally.corrections + items.length } }
      (.ok (if items.isEmpty then .overBudget else .found items), p)

end Parser
end EarleyChart
