import EarleyChart.Proofs.Parser.Questions
import EarleyChart.Proofs.Parser.Reading

/-!
How a token is read without repair, and with repair at every token. In both
modes the candidates are exactly the readings of the token at the prices of a
quote, and the token is rejected where there is none.
-/

namespace EarleyChart

/-- A run tries the corrections of a quote: none at all, or all of them at every
token, each at a price that depends on identity, terminal and token only. -/
inductive Quotes (g : Grammar) (config : Config) (costs : CostProvider) : Quote → Prop
  | disabled (hmode : config.recovery = .disabled) : Quotes g config costs .none
  | continuous (hmode : config.recovery = .continuous)
      (price : ItemKey → SymbolId → Token → CorrectionCost)
      (hcosts : ∀ waiting found, costs g waiting found = waiting.map fun w =>
        price ⟨w.rule, w.dot, w.origin⟩ w.expected found) :
      Quotes g config costs fun key expected found => some (price key expected found)

theorem WaitingItem.mem_corrections (w : WaitingItem) (ceiling : Nat) (actual : Option SymbolId)
    (cost : CorrectionCost) (new : Candidate) :
    new ∈ w.corrections ceiling actual cost ↔
      (new = w.deleting cost ∨ actual ≠ some w.expected ∧ new = w.substituting cost) ∧
        new.errorCost ≤ ceiling := by
  simp only [WaitingItem.corrections, List.mem_append, List.mem_filter, List.mem_singleton,
    decide_eq_true_eq]
  split
  · next h => simp [h]
  · next h =>
      simp only [List.mem_filter, List.mem_singleton, decide_eq_true_eq, ne_eq, h,
        not_false_iff, true_and]
      exact or_and_right.symm

namespace Chart

variable {g : Grammar} {quote : Quote} {ceiling n : Nat} {tokens : List Token} {c : Chart}

/-- Scans are within the ceiling because their items are. -/
theorem Reading.mem_scans (hg : g.Numbered) (h : c.Reading g quote ceiling tokens n) (token : Token)
    (new : Candidate) : new ∈ c.scans g token ↔
      ∃ id item terminal, c.item? id = some item ∧ id.column = c.current ∧
        g.awaits? item.key = some terminal ∧ g.terminalForKind? token.kind = some terminal ∧
        new = scanOver item ∧ new.errorCost ≤ ceiling := by
  rw [Chart.mem_scans g c h.valid.filed hg]
  constructor
  · rintro ⟨id, item, terminal, hitem, hid, hkind, hnext, rfl⟩
    exact ⟨id, item, terminal, hitem, hid, hnext, hkind, rfl, (h.sound id item hitem).1.within⟩
  · rintro ⟨id, item, terminal, hitem, hid, hnext, hkind, rfl, -⟩
    exact ⟨id, item, terminal, hitem, hid, hkind, hnext, rfl⟩

theorem Reading.readings_scans (hg : g.Numbered) (h : c.Reading g .none ceiling tokens n)
    (token : Token) :
    c.Readings g .none ceiling token (c.scans g token) := by
  intro new
  rw [h.mem_scans hg]
  constructor
  · rintro ⟨id, item, terminal, hitem, hid, hnext, hkind, rfl, hcost⟩
    exact ⟨id, item, hitem, hid, .scan hnext hkind, hcost⟩
  · rintro ⟨id, item, hitem, hid, hreads, hcost⟩
    cases hreads with
    | scan hnext hkind => exact ⟨id, item, _, hitem, hid, hnext, hkind, rfl, hcost⟩
    | substitute _ _ _ hquote | delete _ _ hquote => contradiction

def corrected (c : Chart) (g : Grammar) (ceiling : Nat)
    (price : ItemKey → SymbolId → Token → CorrectionCost) (token : Token) : List Candidate :=
  (c.waitingItems g).flatMap fun w =>
    w.corrections ceiling (g.terminalForKind? token.kind)
      (price ⟨w.rule, w.dot, w.origin⟩ w.expected token)

theorem Reading.readings_corrected (hg : g.Numbered)
    (price : ItemKey → SymbolId → Token → CorrectionCost)
    (h : c.Reading g (fun key expected found => some (price key expected found)) ceiling
      tokens n) (token : Token) :
    c.Readings g (fun key expected found => some (price key expected found)) ceiling token
      (c.scans g token ++ c.corrected g ceiling price token) := by
  intro new
  rw [List.mem_append, h.mem_scans hg, corrected, List.mem_flatMap]
  constructor
  · rintro (⟨id, item, terminal, hitem, hid, hnext, hkind, rfl, hcost⟩ | ⟨w, hw, hnew⟩)
    · exact ⟨id, item, hitem, hid, .scan hnext hkind, hcost⟩
    · obtain ⟨id, item, terminal, hitem, hid, hnext, hterminal, rfl⟩ :=
        (mem_waitingItems g c h.valid.filed w).mp hw
      obtain ⟨hkind, hcost⟩ := (WaitingItem.mem_corrections _ _ _ _ new).mp hnew
      rcases hkind with rfl | ⟨hkind, rfl⟩
      · exact ⟨id, item, hitem, hid, .delete hnext hterminal rfl, hcost⟩
      · exact ⟨id, item, hitem, hid, .substitute hnext hterminal hkind rfl, hcost⟩
  · rintro ⟨id, item, hitem, hid, hreads, hcost⟩
    cases hreads with
    | scan hnext hkind => exact .inl ⟨id, item, _, hitem, hid, hnext, hkind, rfl, hcost⟩
    | @substitute terminal _ hnext hterminal hkind hquote =>
        obtain rfl := Option.some.inj hquote
        refine .inr ⟨_, (mem_waitingItems g c h.valid.filed _).mpr
          ⟨id, item, terminal, hitem, hid, hnext, hterminal, rfl⟩, ?_⟩
        exact (WaitingItem.mem_corrections _ _ _ _ _).mpr ⟨.inr ⟨hkind, rfl⟩, hcost⟩
    | @delete terminal _ hnext hterminal hquote =>
        obtain rfl := Option.some.inj hquote
        refine .inr ⟨_, (mem_waitingItems g c h.valid.filed _).mpr
          ⟨id, item, terminal, hitem, hid, hnext, hterminal, rfl⟩, ?_⟩
        exact (WaitingItem.mem_corrections _ _ _ _ _).mpr ⟨.inl rfl, hcost⟩

end Chart

namespace Parser

/-- At prices that are set for each identity, every waiting item has its price. -/
theorem proposals_eq (p : Parser) (price : ItemKey → SymbolId → Token → CorrectionCost)
    (token : Token) (hcosts : ∀ waiting, p.costs p.grammar waiting token = waiting.map fun w =>
      price ⟨w.rule, w.dot, w.origin⟩ w.expected token) :
    (p.prices token).length = (p.chart.waitingItems p.grammar).length ∧
      p.proposals token = p.chart.corrected p.grammar p.config.maxErrorValue price token := by
  have hzip : ∀ waiting : List WaitingItem,
      waiting.zip (waiting.map fun w => price ⟨w.rule, w.dot, w.origin⟩ w.expected token) =
        waiting.map fun w => (w, price ⟨w.rule, w.dot, w.origin⟩ w.expected token) := by
    intro waiting
    have h := List.zip_map' (f := id) (l := waiting)
      (g := fun w => price ⟨w.rule, w.dot, w.origin⟩ w.expected token)
    rwa [List.map_id] at h
  rw [proposals, prices, hcosts, hzip, List.flatMap_map]
  exact ⟨List.length_map _, rfl⟩

theorem corrected_of_idle (p : Parser) (price : ItemKey → SymbolId → Token → CorrectionCost)
    (token : Token) (h : p.chart.waitingItems p.grammar = []) :
    p.chart.corrected p.grammar p.config.maxErrorValue price token = [] := by
  rw [Chart.corrected, h, List.flatMap_nil]

/-- With repair at every token a token is read by its scans and by all corrections within the
ceiling, or rejected where there is none of them. -/
theorem readings_continuous {p : Parser} (hmode : p.config.recovery = .continuous)
    (price : ItemKey → SymbolId → Token → CorrectionCost) (token : Token)
    (hcosts : ∀ waiting, p.costs p.grammar waiting token = waiting.map fun w =>
      price ⟨w.rule, w.dot, w.origin⟩ w.expected token) :
    let news := p.chart.scans p.grammar token ++
      p.chart.corrected p.grammar p.config.maxErrorValue price token
    ∃ why requests tally, p.readings token =
      (.ok (if news.isEmpty then .error why else .ok news),
        { p with requests := requests, tally := tally }) := by
  intro news
  obtain ⟨hpriced, hproposals⟩ := p.proposals_eq price token hcosts
  have hidle := p.corrected_of_idle price token
  have hinterprets := p.readings_interprets token
  generalize p.readings token = outcome at hinterprets
  cases hinterprets with
  | refused hdisabled => exact absurd (hmode.symm.trans hdisabled) (by simp)
  | unpriced _ _ hprices => exact absurd hpriced hprices
  | scanned hsome hwaiting =>
      have hnews : news = p.chart.scans p.grammar token := by simp [news, hidle (hwaiting hmode)]
      refine ⟨.recoveryExhausted p.chart.current token, p.requests, p.tally, ?_⟩
      rw [hnews, if_neg (mt List.isEmpty_iff.mp hsome)]
  | scannedAsking _ hsome _ hnone =>
      have hnews : news = p.chart.scans p.grammar token := by simp [news, ← hproposals, hnone]
      refine ⟨.recoveryExhausted p.chart.current token, (p.asking token).requests, p.tally, ?_⟩
      rw [hnews, if_neg (mt List.isEmpty_iff.mp hsome)]
      rfl
  | exhausted _ hscans hwaiting =>
      have hnews : news = [] := by simp [news, hscans, hidle hwaiting]
      refine ⟨.recoveryExhausted p.chart.current token, p.requests, p.tally, ?_⟩
      rw [hnews]
      rfl
  | overBudget _ hscans _ hnone =>
      have hnews : news = [] := by simp [news, hscans, ← hproposals, hnone]
      refine ⟨.budgetExceeded p.chart.current token, (p.asking token).requests, p.tally, ?_⟩
      rw [hnews]
      rfl
  | corrected _ _ _ hsome =>
      refine ⟨.recoveryExhausted p.chart.current token, (p.proposing token).requests,
        (p.proposing token).tally, ?_⟩
      rw [if_neg (by simp [news, ← hproposals, hsome]), hproposals]
      rfl

/-- A run over the first tokens of an input, before it asks for the next one. -/
structure Reads (g : Grammar) (config : Config) (costs : CostProvider) (quote : Quote)
    (tokens : List Token) (n : Nat) (p : Parser) : Prop where
  grammar_eq : p.grammar = g
  config_eq : p.config = config
  costs_eq : p.costs = costs
  state_eq : p.state = .scanning
  error_eq : p.error = none
  chart : p.chart.Reading g quote config.maxErrorValue tokens n

/-- A token is read in all the ways of the quote, or rejected where there is none. -/
theorem readings_spec {g : Grammar} {config : Config} {costs : CostProvider} {quote : Quote}
    {tokens : List Token} {n : Nat} {p : Parser} (h : p.Reads g config costs quote tokens n)
    (hg : g.Numbered) (hquote : Quotes g config costs quote) (token : Token) :
    ∃ news why requests tally, p.readings token =
        (.ok (if news.isEmpty then .error why else .ok news),
          { p with requests := requests, tally := tally }) ∧
      p.chart.Readings g quote config.maxErrorValue token news := by
  obtain ⟨rfl, rfl, rfl, -, -, hchart⟩ := h
  cases hquote with
  | disabled hmode =>
      refine ⟨_, .unexpectedToken p.chart.current token p.expectedTerminals, p.requests,
        p.tally, ?_, hchart.readings_scans hg token⟩
      simp only [readings, hmode]
      split <;> rfl
  | continuous hmode price hcosts =>
      obtain ⟨why, requests, tally, heq⟩ := readings_continuous hmode price token (hcosts · token)
      exact ⟨_, why, requests, tally, heq, hchart.readings_corrected hg price token⟩

end Parser
end EarleyChart
