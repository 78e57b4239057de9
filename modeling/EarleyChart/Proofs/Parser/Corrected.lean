import EarleyChart.Parser.Recovery
import EarleyChart.Proofs.Chart.Growth

/-!
Corrected derivations, without a chart. An identity is derived in a column, at a
cost, from a rule begun anywhere: a token is scanned, read as another terminal
or dropped, and a waiting identity is joined with a completed one. Which
corrections are tried, and for what price, is told by a quote; a quote of none
leaves the derivations of the grammar alone.
-/

namespace EarleyChart

/-- The price of the two corrections of a token where an identity waits for a
terminal, if they are tried. -/
abbrev Quote := ItemKey → SymbolId → Token → Option CorrectionCost

def Quote.none : Quote := fun _ _ _ => Option.none

/-- The steps that a quote leads to: a correction only where one is tried. -/
def Quote.Allows (quote : Quote) (step : StepKind) : Prop :=
  step = .deleted ∨ step = .substituted →
    ∃ key terminal token, (quote key terminal token).isSome = true

def ItemKey.next (key : ItemKey) : ItemKey := ⟨key.rule, key.dot + 1, key.origin⟩

def Grammar.awaits? (g : Grammar) (key : ItemKey) : Option SymbolId := g.next? key.rule key.dot

inductive Corrected (g : Grammar) (quote : Quote) (tokens : List Token) :
    Nat → ItemKey → Nat → Prop
  | start (column : Nat) (rule : RuleId) (hcolumn : column ≤ tokens.length)
      (hrule : (g.rule? rule).isSome = true) :
      Corrected g quote tokens column ⟨rule, 0, column⟩ 0
  | scan {column : Nat} {key : ItemKey} {cost : Nat} {token : Token} {terminal : SymbolId}
      (h : Corrected g quote tokens column key cost) (htoken : tokens[column]? = some token)
      (hnext : g.awaits? key = some terminal)
      (hkind : g.terminalForKind? token.kind = some terminal) :
      Corrected g quote tokens (column + 1) key.next cost
  | substitute {column : Nat} {key : ItemKey} {cost : Nat} {token : Token}
      {terminal : SymbolId} {price : CorrectionCost}
      (h : Corrected g quote tokens column key cost) (htoken : tokens[column]? = some token)
      (hnext : g.awaits? key = some terminal) (hterminal : g.isTerminal terminal = true)
      (hkind : g.terminalForKind? token.kind ≠ some terminal)
      (hquote : quote key terminal token = some price) :
      Corrected g quote tokens (column + 1) key.next (addCost cost price.substitution)
  | delete {column : Nat} {key : ItemKey} {cost : Nat} {token : Token}
      {terminal : SymbolId} {price : CorrectionCost}
      (h : Corrected g quote tokens column key cost) (htoken : tokens[column]? = some token)
      (hnext : g.awaits? key = some terminal) (hterminal : g.isTerminal terminal = true)
      (hquote : quote key terminal token = some price) :
      Corrected g quote tokens (column + 1) key (addCost cost price.deletion)
  | join {column : Nat} {left right : ItemKey} {cost cost' : Nat}
      (h : Corrected g quote tokens right.origin left cost)
      (h' : Corrected g quote tokens column right cost')
      (hnext : g.awaits? left = some (g.lhs right.rule))
      (hend : g.awaits? right = Option.none) :
      Corrected g quote tokens column left.next (addCost cost cost')

/-- The rules that are called for in a column: those of the start symbol in the
first one, and those of a symbol that a derived identity waits for. -/
inductive Called (g : Grammar) (quote : Quote) (tokens : List Token) : RuleId → Nat → Prop
  | start (rule : RuleId) (hlhs : g.lhs rule = g.start) : Called g quote tokens rule 0
  | call {column : Nat} {key : ItemKey} {cost : Nat} (rule : RuleId)
      (h : Called g quote tokens key.rule key.origin)
      (hderived : Corrected g quote tokens column key cost)
      (hnext : g.awaits? key = some (g.lhs rule)) : Called g quote tokens rule column

/-- How one token is read where an item waits for a terminal. -/
inductive ReadsAs (g : Grammar) (quote : Quote) (token : Token) (id : ItemId) (item : Item) :
    Candidate → Prop
  | scan {terminal : SymbolId} (hnext : g.awaits? item.key = some terminal)
      (hkind : g.terminalForKind? token.kind = some terminal) :
      ReadsAs g quote token id item (Chart.scanOver item)
  | substitute {terminal : SymbolId} {price : CorrectionCost}
      (hnext : g.awaits? item.key = some terminal) (hterminal : g.isTerminal terminal = true)
      (hkind : g.terminalForKind? token.kind ≠ some terminal)
      (hquote : quote item.key terminal token = some price) :
      ReadsAs g quote token id item (WaitingItem.substituting
        ⟨id, item.rule, item.dot, item.origin, terminal, item.errorCost⟩ price)
  | delete {terminal : SymbolId} {price : CorrectionCost}
      (hnext : g.awaits? item.key = some terminal) (hterminal : g.isTerminal terminal = true)
      (hquote : quote item.key terminal token = some price) :
      ReadsAs g quote token id item (WaitingItem.deleting
        ⟨id, item.rule, item.dot, item.origin, terminal, item.errorCost⟩ price)

/-- Reading a token derives the identity of the candidate at its cost. -/
theorem ReadsAs.corrected {g : Grammar} {quote : Quote} {tokens : List Token} {token : Token}
    {id : ItemId} {item : Item} {new : Candidate} (h : ReadsAs g quote token id item new)
    (hitem : Corrected g quote tokens id.column item.key item.errorCost)
    (htoken : tokens[id.column]? = some token) :
    Corrected g quote tokens (id.column + 1) new.key new.errorCost := by
  cases h with
  | scan hnext hkind => exact .scan hitem htoken hnext hkind
  | substitute hnext hterminal hkind hquote =>
      exact .substitute hitem htoken hnext hterminal hkind hquote
  | delete hnext hterminal hquote => exact .delete hitem htoken hnext hterminal hquote

/-- Reading a token goes on with the rule that was called for. -/
theorem ReadsAs.called {g : Grammar} {quote : Quote} {tokens : List Token} {token : Token}
    {id : ItemId} {item : Item} {new : Candidate} (h : ReadsAs g quote token id item new)
    (hitem : Called g quote tokens item.key.rule item.key.origin) :
    Called g quote tokens new.key.rule new.key.origin := by
  cases h with
  | scan | substitute | delete => exact hitem

theorem ReadsAs.allows {g : Grammar} {quote : Quote} {token : Token} {id : ItemId} {item : Item}
    {new : Candidate} (h : ReadsAs g quote token id item new) :
    ∀ link, new.link = some link → quote.Allows link.step := by
  cases h with
  | scan =>
      rintro _ ⟨⟩ (hstep | hstep) <;> contradiction
  | substitute _ _ _ hquote | delete _ _ hquote =>
      rintro _ ⟨⟩ -
      exact ⟨_, _, _, by rw [hquote, Option.isSome_some]⟩

/-- Without repair every step scans or completes. -/
theorem Quote.none_allows {step : StepKind} (h : Quote.none.Allows step) :
    step = .scanned ∨ step = .completed := by
  cases step with
  | scanned => exact .inl rfl
  | completed => exact .inr rfl
  | deleted | substituted => simp [Allows, none] at h

/-- Without repair nothing costs anything. -/
theorem Corrected.cost_eq_zero {g : Grammar} {tokens : List Token} {column : Nat}
    {key : ItemKey} {cost : Nat} (h : Corrected g .none tokens column key cost) : cost = 0 := by
  induction h with
  | start => rfl
  | scan _ _ _ _ ih => exact ih
  | substitute _ _ _ _ _ hquote | delete _ _ _ _ hquote => contradiction
  | join _ _ _ _ ih ih' =>
      rw [ih, ih']
      rfl

end EarleyChart
