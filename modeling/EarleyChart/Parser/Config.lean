import EarleyChart.Chart.Column

/-!
The settings of a run: when errors are repaired and at what greatest cost, and
the limits on columns, items and time. A limit of zero is no limit.
-/

namespace EarleyChart

inductive RecoveryMode where
  /-- Never: the first token that fits nowhere is rejected. -/
  | disabled
  /-- Only at a token that fits nowhere. -/
  | onFailure
  /-- At every token, beside the regular reading. -/
  | continuous
  deriving DecidableEq, Repr

structure Config where
  recovery : RecoveryMode
  maxErrorValue : Nat
  maxColumns : Nat
  maxItems : Nat
  timeoutMs : Nat
  expectedTokens : Nat
  deriving DecidableEq, Repr

namespace Config

/-- No repair, a ceiling of three, ten million items, and no other limit. -/
def standard : Config := ⟨.disabled, 3, 0, 10000000, 0, 0⟩

instance : Inhabited Config := ⟨standard⟩

end Config

/-- The price of the two corrections of one waiting item. -/
structure CorrectionCost where
  substitution : Nat
  deletion : Nat
  deriving DecidableEq, Repr

structure WaitingItem where
  id : ItemId
  rule : RuleId
  dot : Nat
  origin : Nat
  expected : SymbolId
  errorCost : Nat
  deriving DecidableEq, Repr

/-- Prices the corrections of a token for each of the waiting items in order. -/
abbrev CostProvider := Grammar → List WaitingItem → Token → List CorrectionCost

namespace CostProvider

def uniform (cost : CorrectionCost) : CostProvider :=
  fun _ waiting _ => waiting.map fun _ => cost

def each (price : Grammar → WaitingItem → Token → CorrectionCost) : CostProvider :=
  fun g waiting found => waiting.map fun w => price g w found

def standard : CostProvider := uniform ⟨1, 1⟩

end CostProvider

structure CostRequest where
  found : Token
  waiting : List WaitingItem
  deriving DecidableEq, Repr

end EarleyChart
