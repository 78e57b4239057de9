import EarleyChart.Proofs.Parser.InRange
import EarleyChart.Proofs.Parser.Refusal

/-!
Steps that end a run or fail before a column is opened. They leave the chart and
the counts as they were, whatever was tried first; only the question about the
token may have been put. Why a token is refused is told by the mode, by what the
newest column waits for and by the answer of the cost provider.
-/

namespace EarleyChart

/-- Every correction of an item costs more than the ceiling. -/
theorem WaitingItem.corrections_eq_nil_iff (w : WaitingItem) (ceiling : Nat)
    (actual : Option SymbolId) (cost : CorrectionCost) :
    w.corrections ceiling actual cost = [] ↔ ceiling < addCost w.errorCost cost.deletion ∧
      (actual ≠ some w.expected → ceiling < addCost w.errorCost cost.substitution) := by
  rw [List.eq_nil_iff_forall_not_mem]
  simp only [mem_corrections, not_and, Nat.not_le]
  constructor
  · exact fun h => ⟨h _ (.inl rfl), fun hother => h _ (.inr ⟨hother, rfl⟩)⟩
  · rintro ⟨hdeletion, hsubstitution⟩ new (rfl | ⟨hother, rfl⟩)
    · exact hdeletion
    · exact hsubstitution hother

/-- No item is asked about where none of the newest column waits for a terminal. -/
theorem Chart.waitingItems_eq_nil_iff {g : Grammar} {c : Chart} (hc : c.Filed g) :
    c.waitingItems g = [] ↔ ∀ terminal, g.isTerminal terminal = true → ¬ c.Awaits g terminal := by
  rw [List.eq_nil_iff_forall_not_mem]
  simp only [mem_waitingItems g c hc]
  constructor
  · rintro h terminal hterminal ⟨id, item, hitem, hid, hnext⟩
    exact h _ ⟨id, item, terminal, hitem, hid, hnext, hterminal, rfl⟩
  · rintro h w ⟨id, item, terminal, hitem, hid, hnext, hterminal, -⟩
    exact h terminal hterminal ⟨id, item, hitem, hid, hnext⟩

namespace Parser

def AwaitsToken (p : Parser) (token : Token) : Prop :=
  ∃ terminal, p.grammar.terminalForKind? token.kind = some terminal ∧
    p.chart.Awaits p.grammar terminal

def AwaitsTerminal (p : Parser) : Prop :=
  ∃ terminal, p.grammar.isTerminal terminal = true ∧ p.chart.Awaits p.grammar terminal

/-- The cost provider has one price for each waiting item, and at these prices every
correction costs more than the ceiling. -/
structure Unaffordable (p : Parser) (token : Token) : Prop where
  priced : (p.prices token).length = (p.chart.waitingItems p.grammar).length
  above : ∀ w cost, (w, cost) ∈ (p.chart.waitingItems p.grammar).zip (p.prices token) →
    p.config.maxErrorValue < addCost w.errorCost cost.deletion ∧
      (p.grammar.terminalForKind? token.kind ≠ some w.expected →
        p.config.maxErrorValue < addCost w.errorCost cost.substitution)

/-- Why a token is refused, if it is. -/
structure Refuses (p : Parser) (token : Token) (result : Except ParseError Progress) : Prop where
  reasons : ∀ why, result = .ok (.done (.rejected why)) →
    why = .unexpectedToken p.chart.current token p.expectedTerminals ∨
      why = .recoveryExhausted p.chart.current token ∨ why = .budgetExceeded p.chart.current token
  unexpected : result = .ok (.done
      (.rejected (.unexpectedToken p.chart.current token p.expectedTerminals))) ↔
    p.config.recovery = .disabled ∧ ¬ p.AwaitsToken token
  exhausted : result = .ok (.done (.rejected (.recoveryExhausted p.chart.current token))) ↔
    p.config.recovery ≠ .disabled ∧ ¬ p.AwaitsTerminal
  overBudget : result = .ok (.done (.rejected (.budgetExceeded p.chart.current token))) ↔
    p.config.recovery ≠ .disabled ∧ p.AwaitsTerminal ∧ ¬ p.AwaitsToken token ∧
      p.Unaffordable token

variable {g : Grammar} {p : Parser} {token : Token}

theorem scans_eq_nil_iff (hg : p.grammar.Numbered) (hc : p.chart.Filed p.grammar) (token : Token) :
    p.chart.scans p.grammar token = [] ↔ ¬ p.AwaitsToken token := by
  rw [AwaitsToken, ← Chart.scans_ne_nil_iff hg hc, not_not]

theorem waitingItems_eq_nil_iff (hc : p.chart.Filed p.grammar) :
    p.chart.waitingItems p.grammar = [] ↔ ¬ p.AwaitsTerminal := by
  rw [Chart.waitingItems_eq_nil_iff hc, AwaitsTerminal]
  simp only [not_exists, not_and]

theorem unaffordable_iff (hwaiting : p.chart.waitingItems p.grammar ≠ []) :
    p.Unaffordable token ↔ p.Answered token ∧ p.proposals token = [] := by
  have hproposals : p.proposals token = [] ↔
      ∀ w cost, (w, cost) ∈ (p.chart.waitingItems p.grammar).zip (p.prices token) →
        p.config.maxErrorValue < addCost w.errorCost cost.deletion ∧
          (p.grammar.terminalForKind? token.kind ≠ some w.expected →
            p.config.maxErrorValue < addCost w.errorCost cost.substitution) := by
    simp only [proposals, List.flatMap_eq_nil_iff, Prod.forall,
      WaitingItem.corrections_eq_nil_iff]
  rw [hproposals]
  constructor
  · exact fun h => ⟨⟨hwaiting, h.priced⟩, h.above⟩
  · exact fun h => ⟨h.1.priced, h.2⟩

/-- A token is refused for one of three reasons, told by what is scanned, what waits and
what is proposed. -/
theorem Interprets.refusals
    {outcome : Except ParseError (Except Rejection (List Candidate)) × Parser}
    (h : p.Interprets token outcome)
    (hidle : p.chart.waitingItems p.grammar = [] → p.chart.scans p.grammar token = []) :
    (∀ why, outcome.1 = .ok (.error why) →
      why = .unexpectedToken p.chart.current token p.expectedTerminals ∨
        why = .recoveryExhausted p.chart.current token ∨
        why = .budgetExceeded p.chart.current token) ∧
    (outcome.1 = .ok (.error (.unexpectedToken p.chart.current token p.expectedTerminals)) ↔
      p.config.recovery = .disabled ∧ p.chart.scans p.grammar token = []) ∧
    (outcome.1 = .ok (.error (.recoveryExhausted p.chart.current token)) ↔
      p.config.recovery ≠ .disabled ∧ p.chart.waitingItems p.grammar = []) ∧
    (outcome.1 = .ok (.error (.budgetExceeded p.chart.current token)) ↔
      p.config.recovery ≠ .disabled ∧ p.chart.scans p.grammar token = [] ∧ p.Answered token ∧
        p.proposals token = []) := by
  cases h with
  | refused hmode hnone => simp [hmode, hnone]
  | scanned hsome | scannedAsking _ hsome =>
      have hwaiting := mt hidle hsome
      simp [hsome, hwaiting]
  | unpriced hmode hwaiting hprices reason =>
      have hanswered : ¬ p.Answered token := fun h => hprices h.priced
      simp [hmode, hwaiting, hanswered]
  | exhausted hmode hnone hidle =>
      have hanswered : ¬ p.Answered token := fun h => h.waiting hidle
      simp [hmode, hidle, hanswered]
  | overBudget hmode hnone hanswered hproposals =>
      simp [hmode, hnone, hanswered, hanswered.waiting, hproposals]
  | corrected hmode hwhen hanswered hproposals =>
      simp [hmode, hanswered.waiting, hproposals]

theorem feedToken_rejected_iff
    (hroom : ¬ (p.config.maxColumns > 0 ∧ p.columnCount ≥ p.config.maxColumns)) (why : Rejection) :
    (p.feedToken token).1 = .ok (.done (.rejected why)) ↔
      (p.readings token).1 = .ok (.error why) := by
  rw [feedToken, if_neg hroom]
  rcases p.readings token with ⟨e | why' | news, q⟩
  · simp
  · simp [reject]
  · cases hclosed : (q.openColumn token news).closeColumn.1 <;> simp [Except.map, hclosed]

/-- A token is refused for one of three reasons, each under a condition of its own. -/
theorem feedToken_refuses (hg : p.grammar.Numbered) (hc : p.chart.Filed p.grammar)
    (hroom : ¬ (p.config.maxColumns > 0 ∧ p.columnCount ≥ p.config.maxColumns)) :
    p.Refuses token (p.feedToken token).1 := by
  have hscans := scans_eq_nil_iff hg hc token
  have hwaiting := waitingItems_eq_nil_iff hc
  have hterminal : p.AwaitsToken token → p.AwaitsTerminal := by
    rintro ⟨terminal, hkind, hawaits⟩
    exact ⟨terminal, Symbols.terminalForKind?_isTerminal hg.tabled hkind, hawaits⟩
  obtain ⟨hreasons, hunexpected, hexhausted, hover⟩ := (p.readings_interprets token).refusals
    fun hidle => hscans.mpr fun hawaits => hwaiting.mp hidle (hterminal hawaits)
  constructor
  case reasons =>
    intro why hwhy
    exact hreasons why ((feedToken_rejected_iff hroom why).mp hwhy)
  case unexpected => rw [feedToken_rejected_iff hroom, hunexpected, hscans]
  case exhausted => rw [feedToken_rejected_iff hroom, hexhausted, hwaiting]
  case overBudget =>
    rw [feedToken_rejected_iff hroom, hover, hscans]
    refine and_congr_right fun _ => ?_
    constructor
    · rintro ⟨hawaits, hanswered, hnone⟩
      have hunaffordable := (unaffordable_iff hanswered.waiting).mpr ⟨hanswered, hnone⟩
      exact ⟨not_not.mp (mt hwaiting.mpr hanswered.waiting), hawaits, hunaffordable⟩
    · rintro ⟨hsome, hawaits, hunaffordable⟩
      have hne : p.chart.waitingItems p.grammar ≠ [] := fun hidle => hwaiting.mp hidle hsome
      exact ⟨hawaits, (unaffordable_iff hne).mp hunaffordable⟩

/-! ### Steps that leave the chart as it was -/

theorem Fills.error_eq (hg : g.Numbered) {q : Parser} (hp : p.Healthy g) (h : p.Fills q) :
    q.error = none := by
  rcases fills_cases hg hp h with ⟨-, herror, tally, rfl⟩ | ⟨hscanning, _, _, _, _, _, -, -, rfl⟩
  · exact herror
  · exact hscanning.error_eq

/-- A filled column is closed, or the limit on items stops its closure. -/
theorem Fills.closeColumn_early (hg : g.Numbered) (hp : p.Healthy g) {q : Parser}
    (h : p.Fills q) {e : ParseError} (herror : q.closeColumn.1 = .error e) : e.early = false := by
  obtain ⟨rfl, hc⟩ := h.closable hg hp
  obtain ⟨items, limit, rfl⟩ := closeColumn_limit hg hc (h.error_eq hg hp) herror
  rfl

/-- The step leaves all as it was but the verdict and the state that goes with it, or
the error. At most one question was put. -/
structure Spares (p : Parser) (result : Except ParseError Progress) (next : Parser) : Prop where
  verdict : ∀ verdict, result = .ok (.done verdict) → ∃ requests, p.Asks requests ∧
    next = { p with state := verdict.state, verdict := some verdict, requests := requests }
  error : ∀ e, result = .error e → e.early = true → ∃ requests, p.Asks requests ∧
    next = { p with error := some e, requests := requests }

theorem Fed.spares (hg : g.Numbered) (hp : p.Healthy g)
    {fed : Except ParseError Progress × Parser} (h : p.Fed fed) : p.Spares fed.1 fed.2 := by
  cases h with
  | failed e hearly hasks =>
      refine ⟨by simp, ?_⟩
      rintro _ ⟨⟩ -
      exact ⟨_, hasks, rfl⟩
  | ended verdict hasks =>
      refine ⟨?_, by simp⟩
      rintro _ ⟨⟩
      exact ⟨_, hasks, rfl⟩
  | @filled q hfills =>
      constructor
      · intro verdict hdone
        cases hclosed : q.closeColumn.1 <;> simp [Except.map, hclosed] at hdone
      · intro e herror hearly
        cases hclosed : q.closeColumn.1 with
        | error cause =>
            obtain rfl : cause = e := by simpa [Except.map, hclosed] using herror
            rw [hfills.closeColumn_early hg hp hclosed] at hearly
            contradiction
        | ok => simp [Except.map, hclosed] at herror

theorem begin_spares (hg : g.Numbered) (hp : p.Healthy g) (hstart : p.state = .start)
    (herror : p.error = none) : p.Spares (p.begin.1.map fun _ => .more) p.begin.2 := by
  have hbegin : p.begin = p.seed := by rw [begin, herror, hstart]
  rw [hbegin]
  rcases seed_fills hstart herror with ⟨reason, hseed⟩ | ⟨q, hfills, hseed⟩
  · rw [hseed]
    refine ⟨by simp [Except.map], ?_⟩
    rintro _ ⟨⟩ hearly
    contradiction
  · rw [hseed]
    exact (Fed.filled hfills).spares hg hp

theorem advance_spares (hg : g.Numbered) (hp : p.Healthy g) (hopen : p.state.isFinal = false)
    {σ : Type} [TokenSource σ] (source : σ) :
    p.Spares (p.advance source).result (p.advance source).parser := by
  cases herror : p.error with
  | some e =>
      have hsettled : p.settled? = some (.error e) := by rw [settled?, herror]
      rw [advance_settled hsettled]
      refine ⟨by simp [Except.map], ?_⟩
      rintro _ ⟨⟩ -
      exact ⟨p.requests, .silent, by rw [← herror]⟩
  | none =>
      have hsettled : p.settled? = none := by rw [settled?, herror, hopen]; rfl
      by_cases hstart : p.state = .start
      · rw [advance_start hsettled hstart]
        exact begin_spares hg hp hstart herror
      · have hscanning := hp.scanning hsettled hstart
        cases hnext : TokenSource.next source with
        | mk answer rest =>
            rw [hscanning.advance_eq hnext]
            exact (feed_fed hscanning.state_eq herror answer).spares hg hp

/-- A step that gives a verdict, and one that fails before it opens a column, leaves all
but the verdict and the error as it was: the columns with their items and links, the pool,
the queue and the counts. Where the limit on columns lets a token pass, it is refused for
one of three reasons: without repair where nothing waits for it, with repair where nothing
waits for any terminal, and with repair where something waits, but not for the token, and
every correction at the prices of the provider costs more than the ceiling. -/
theorem failing_step_atomic (d : GrammarDef) (g : Grammar) (hd : d.toGrammar = .ok g)
    (p : Parser) (hp : Attained g p) (hopen : p.state.isFinal = false) {σ : Type}
    [TokenSource σ] (source : σ) :
    p.Spares (p.advance source).result (p.advance source).parser ∧
      ∀ token rest, TokenSource.next source = (.ok (some token), rest) → p.error = none →
        p.state ≠ .start →
        ¬ (p.config.maxColumns > 0 ∧ p.columnCount ≥ p.config.maxColumns) →
        p.Refuses token (p.advance source).result := by
  have hg := d.toGrammar_numbered g hd
  have hhealthy := (hp.intact hg).healthy
  refine ⟨advance_spares hg hhealthy hopen source, ?_⟩
  intro token rest hnext herror hstart hroom
  have hsettled : p.settled? = none := by rw [settled?, herror, hopen]; rfl
  have hscanning := hhealthy.scanning hsettled hstart
  rw [hscanning.advance_eq hnext]
  obtain rfl := hhealthy.grammar_eq
  exact feedToken_refuses hg hscanning.valid.filed hroom

def thrifty : Parser :=
  let p := withConfig pair ⟨.onFailure, 1, 0, 0, 0, 0⟩
  ((p.perform (.setCosts (.uniform ⟨2, 5⟩))).2.perform .begin).2

theorem attained_thrifty : Attained pair thrifty :=
  ((Attained.created _).performed (.setCosts _)).performed .begin

/-- A `b` where an `a` is waited for is refused, since dropping it costs five and reading
it as an `a` costs two. -/
theorem failing_step_atomic_thrifty :
    (thrifty.advance (TokenStream.ofList [⟨1, "b", .start⟩])).result =
        .ok (.done (.rejected (.budgetExceeded 0 ⟨1, "b", .start⟩))) ∧
      (∃ requests, thrifty.Asks requests ∧
        (thrifty.advance (TokenStream.ofList [⟨1, "b", .start⟩])).parser = { thrifty with
          state := .rejected
          verdict := some (.rejected (.budgetExceeded 0 ⟨1, "b", .start⟩))
          requests := requests }) ∧
      thrifty.AwaitsTerminal ∧ ¬ thrifty.AwaitsToken ⟨1, "b", .start⟩ ∧
      thrifty.Unaffordable ⟨1, "b", .start⟩ := by
  have hopen : thrifty.state.isFinal = false := by decide +kernel
  have hcurrent : thrifty.chart.current = 0 := by decide +kernel
  have hresult : (thrifty.advance (TokenStream.ofList [⟨1, "b", .start⟩])).result =
      .ok (.done (.rejected (.budgetExceeded 0 ⟨1, "b", .start⟩))) := by decide +kernel
  have herror : thrifty.error = none := by decide +kernel
  have hbegun : thrifty.state ≠ .start := by decide +kernel
  have hroom : ¬ (thrifty.config.maxColumns > 0 ∧
      thrifty.columnCount ≥ thrifty.config.maxColumns) := by decide +kernel
  obtain ⟨hspares, hrefuses⟩ := failing_step_atomic pairDef pair rfl thrifty attained_thrifty
    hopen (TokenStream.ofList [⟨1, "b", .start⟩])
  have hover := (hrefuses ⟨1, "b", .start⟩ _ rfl herror hbegun hroom).overBudget
  rw [hcurrent] at hover
  exact ⟨hresult, hspares.verdict _ hresult, (hover.mp hresult).2⟩

end Parser
end EarleyChart
