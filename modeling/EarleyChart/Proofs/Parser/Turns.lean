import EarleyChart.Proofs.Parser.Loop
import EarleyChart.Proofs.Parser.Steps

/-!
What whole runs keep. A run is made of one beginning and of answers taken in one
by one, so that a property that both of them keep survives `advance` and `parse`.
Either of them leaves the chart as it is, or opens one column, fills it and closes
it as far as the limit on items and the clock allow; this is all that ever happens
to the chart of a run.
-/

namespace EarleyChart
namespace Parser

structure Carried (g : Grammar) (property : Parser → Prop) : Prop where
  begun : ∀ {p : Parser}, p.Healthy g → property p → property p.begin.2
  fed : ∀ {p : Parser} (answer : TokenAnswer), p.Scanning g → property p →
    property (p.feed answer).2

namespace Carried

variable {g : Grammar} {property : Parser → Prop} (h : Carried g property) {p : Parser}
  {σ : Type} [TokenSource σ]

include h in
theorem advance (hp : p.Healthy g) (hproperty : property p) (source : σ) :
    property (p.advance source).parser := by
  rw [Parser.advance]
  cases hsettled : p.settled? with
  | some result => exact hproperty
  | none =>
      simp only
      split
      · exact h.begun hp hproperty
      · next hstate => exact h.fed _ (hp.scanning hsettled hstate) hproperty

include h in
theorem parse (hg : g.Numbered) (hp : p.Healthy g) (hproperty : property p) (source : σ) :
    property (p.parse source).parser := by
  refine ((hp.parses hg source).kept (fun q => q.Healthy g ∧ property q) ?_ ⟨hp, hproperty⟩).2
  intro q rest hq
  exact ⟨advance_healthy hg hq.1 rest, h.advance hq.1 hq.2 rest⟩

end Carried

/-- What closing a column comes to: the closure runs until nothing is queued or the limit on
items is met, or the clock breaks it off. -/
inductive ClosesTo (p : Parser) : Parser → Prop
  | whole : ClosesTo p p.closeColumn.2
  | timedOut (steps elapsed : Nat) :
      ClosesTo p (({ p with state := .closing } : Parser).timedOut steps elapsed)

/-- What a beginning or an answer does to the chart: nothing, or it opens a column,
fills it with predictions or with readings of a token, and closes it. -/
inductive Turn (g : Grammar) (p : Parser) : Parser → Prop
  | stays {next : Parser} (hchart : next.chart = p.chart) (hconfig : next.config = p.config)
      (hstate : next.state = p.state ∨ p.state = .scanning ∧ next.state.isFinal = true) :
      Turn g p next
  | seeds {next : Parser} (tally : Tally) (hstart : p.state = .start) (herror : p.error = none)
      (hcloses : (p.seeded tally).ClosesTo next) : Turn g p next
  | reads {next : Parser} (hscanning : p.Scanning g) {token : Token} {news : List Candidate}
      (hnews : (p.readings token).1 = .ok (.ok news)) {price : ItemId → Option CorrectionCost}
      (hread : ∀ new ∈ news, p.Read price token new) (requests : List CostRequest)
      (tally : Tally) (hcloses : (p.opened token news requests tally).ClosesTo next) :
      Turn g p next

variable {g : Grammar} {p q next : Parser}

/-- Before a column is closed, the parser only says so. -/
theorem ClosesTo.of_closing (h : ({ p with state := .closing } : Parser).ClosesTo next) :
    p.ClosesTo next := by
  cases h with
  | whole => exact .whole
  | timedOut steps elapsed => exact .timedOut steps elapsed

/-- The column of a token holds readings of it. -/
theorem FillsFor.opened (hg : g.Numbered) (hp : p.Healthy g) {token : Token}
    (h : p.FillsFor token q) : p.Scanning g ∧ ∃ news price requests tally,
      (p.readings token).1 = .ok (.ok news) ∧ (∀ new ∈ news, p.Read price token new) ∧
        q = { p.opened token news requests tally with state := .closing } := by
  obtain ⟨hstate, herror, hroom, news, hread⟩ := h
  have hscanning := hp.waiting hstate herror
  have hnews : (p.readings token).1 = .ok (.ok news) := congrArg Prod.fst hread
  obtain rfl := hp.grammar_eq
  obtain ⟨result, requests, tally, heq, hreads⟩ := readings_read hg hscanning.valid.filed token
  rw [hread] at heq
  obtain ⟨rfl, rfl⟩ := Prod.mk.inj heq
  obtain ⟨tally', hopen⟩ := p.exists_opened token news requests tally
  rw [hopen]
  exact ⟨hscanning, news, _, requests, tally', hnews, hreads news rfl, rfl⟩

/-- A filled column holds the rules of the start symbol, or readings of a token. -/
theorem fills_cases (hg : g.Numbered) (hp : p.Healthy g) (h : p.Fills q) :
    (p.state = .start ∧ p.error = none ∧ ∃ tally, q = { p.seeded tally with state := .closing }) ∨
      p.Scanning g ∧ ∃ token news price requests tally,
        (p.readings token).1 = .ok (.ok news) ∧ (∀ new ∈ news, p.Read price token new) ∧
          q = { p.opened token news requests tally with state := .closing } := by
  cases h with
  | first hstart herror hrules =>
      obtain ⟨tally, hseeded⟩ := p.exists_seeded
      rw [hseeded]
      exact .inl ⟨hstart, herror, tally, rfl⟩
  | next hstate herror hroom token news hread =>
      have hfor : p.FillsFor token _ := .intro hstate herror hroom news hread
      obtain ⟨hscanning, hopened⟩ := hfor.opened hg hp
      exact .inr ⟨hscanning, token, hopened⟩

/-- To fill a column and close it is a turn, wherever the closure ends. -/
theorem Fills.turn (hg : g.Numbered) (h : p.Fills q) (hp : p.Healthy g)
    (hcloses : q.ClosesTo next) :
    p.Turn g next := by
  rcases fills_cases hg hp h with ⟨hstart, herror, tally, rfl⟩ |
    ⟨hscanning, token, news, price, requests, tally, hnews, hread, rfl⟩
  · exact .seeds tally hstart herror hcloses.of_closing
  · exact .reads hscanning hnews hread requests tally hcloses.of_closing

theorem begin_turn (hg : g.Numbered) (hp : p.Healthy g) : p.Turn g p.begin.2 := by
  rcases begin_cases p with ⟨e, -, heq⟩ | ⟨herror, hstart, heq⟩ | ⟨-, -, heq⟩
  · rw [heq]
    exact .stays rfl rfl (.inl rfl)
  · rcases seed_fills hstart herror with ⟨reason, hseed⟩ | ⟨q, hfills, hseed⟩
    · rw [heq, hseed]
      exact .stays rfl rfl (.inl rfl)
    · rw [heq, hseed]
      exact hfills.turn hg hp .whole
  · rw [heq]
    exact .stays rfl rfl (.inl rfl)

theorem feed_turn (hg : g.Numbered) (h : p.Scanning g) (answer : TokenAnswer) :
    p.Turn g (p.feed answer).2 := by
  have hfed := feed_fed h.state_eq h.error_eq answer
  generalize p.feed answer = fed at hfed
  cases hfed with
  | failed => exact .stays rfl rfl (.inl rfl)
  | ended verdict => exact .stays rfl rfl (.inr ⟨h.state_eq, by cases verdict <;> rfl⟩)
  | filled hfills => exact hfills.turn hg h.healthy .whole

/-- What every turn keeps survives whole runs. -/
theorem Carried.of_turn (hg : g.Numbered) {property : Parser → Prop}
    (h : ∀ {p next : Parser}, p.Healthy g → p.Turn g next → property p → property next) :
    Carried g property where
  begun hp := h hp (begin_turn hg hp)
  fed answer hp := h hp.healthy (feed_turn hg hp answer)

/-- What is kept when a filled column is closed, and does not depend on state, verdict, error
and questions, survives whole runs. -/
theorem Carried.of_fills {property : Parser → Prop}
    (hclosed : ∀ {p q : Parser}, p.Healthy g → p.Fills q → property p → property q.closeColumn.2)
    (hended : ∀ {p : Parser} (state : EngineState) (verdict : Option Verdict)
      (error : Option ParseError) (requests : List CostRequest), property p →
        property { p with
          state := state
          verdict := verdict
          error := error
          requests := requests }) :
    Carried g property where
  begun := by
    intro p hp h
    rcases begin_cases p with ⟨e, -, heq⟩ | ⟨herror, hstart, heq⟩ | ⟨-, -, heq⟩
    · rwa [heq]
    · rw [heq]
      rcases seed_fills hstart herror with ⟨reason, hseed⟩ | ⟨q, hfills, hseed⟩
      · rw [hseed]
        exact hended p.state p.verdict (some (.invalidGrammar reason)) p.requests h
      · rw [hseed]
        exact hclosed hp hfills h
    · rwa [heq]
  fed := by
    intro p answer hp h
    have hfed := feed_fed hp.state_eq hp.error_eq answer
    generalize p.feed answer = fed at hfed
    cases hfed with
    | failed e => exact hended p.state p.verdict (some e) _ h
    | ended verdict => exact hended verdict.state (some verdict) p.error _ h
    | filled hfills => exact hclosed hp.healthy hfills h

section closing

variable (h : p.ClosesTo next) (hg : p.grammar.Numbered) (hc : p.chart.Closable p.grammar)

include h hg hc in
/-- A column is closed until nothing is queued, or the limit on items or the clock cuts off
a step that has taken its item out of the queue. -/
theorem ClosesTo.outcome : ∃ before,
    Chart.TakesAll p.grammar p.config.maxErrorValue p.chart before ∧ next.config = p.config ∧
      (next.chart = before ∧ next.state = .scanning ∧ before.worklist.toList = [] ∨
        (∃ queue, next.chart = { before with worklist := queue }) ∧ next.state = .closing) := by
  cases h with
  | whole =>
      obtain ⟨chart, tally, error, heq, hcloses⟩ := close_spec { p with state := .closing } hg hc
      rw [closeColumn, heq]
      cases error with
      | none =>
          obtain ⟨hall, hidle⟩ := hcloses.done rfl
          exact ⟨chart, hall, rfl, .inl ⟨rfl, rfl, hidle⟩⟩
      | some e =>
          obtain ⟨-, -, before, id, hall, -, heq⟩ := hcloses.limit e rfl
          exact ⟨before, hall, rfl, .inr ⟨⟨_, heq⟩, rfl⟩⟩
  | timedOut steps elapsed =>
      let q : Parser := { p with state := .closing }
      obtain ⟨before, queue, hall, hchart⟩ := q.closeFor_takesAll hg hc steps
      refine ⟨before, hall, (closeFor_continues (p := q) hg hc steps).config_eq,
        .inr ⟨⟨queue.pop.2, ?_⟩, q.closeFor_state steps⟩⟩
      change (q.closeFor steps).1.chart.popped = _
      rw [hchart]
      rfl

include h hg hc in
/-- Closing a column changes the chart along the steps of the closure. -/
theorem ClosesTo.takesAll : ∃ before queue,
    Chart.TakesAll p.grammar p.config.maxErrorValue p.chart before ∧
      next.chart = { before with worklist := queue } ∧ next.config = p.config ∧
      next.state ≠ .start := by
  obtain ⟨before, hall, hconfig, ⟨hchart, hstate, -⟩ | ⟨⟨queue, hchart⟩, hstate⟩⟩ :=
    h.outcome hg hc
  · exact ⟨before, before.worklist, hall, hchart, hconfig, by simp [hstate]⟩
  · exact ⟨before, queue, hall, hchart, hconfig, by simp [hstate]⟩

include h hg hc in
theorem ClosesTo.preserved {inv : Chart → Prop} {may : Chart → Candidate → Prop}
    (hpreserved : Chart.Preserved p.grammar p.config.maxErrorValue inv may)
    (hinv : inv p.chart) : inv next.chart := by
  obtain ⟨before, queue, hall, hchart, -⟩ := h.takesAll hg hc
  rw [hchart]
  exact hpreserved.same (before.progresses_requeued queue) (fun _ => rfl)
    (hpreserved.takesAll hg hall hc hinv)

end closing

variable (hg : g.Numbered)

include hg in
theorem Fills.closable (hp : p.Healthy g) (h : p.Fills q) :
    q.grammar = g ∧ q.chart.Closable g := by
  rcases fills_cases hg hp h with ⟨-, herror, tally, rfl⟩ |
    ⟨hscanning, token, news, price, requests, tally, -, hread, rfl⟩
  · exact ⟨hp.grammar_eq, hp.seeded_closable hg herror tally⟩
  · exact ⟨hp.grammar_eq, hscanning.opened_closable hg hread requests tally⟩

theorem Fills.state_eq (h : p.Fills q) : q.state = .closing := by
  cases h <;> rfl

theorem Fills.timedOut_state (h : p.Fills q) (steps elapsed : Nat) :
    (q.timedOut steps elapsed).state = .closing := (q.closeFor_state steps).trans h.state_eq

include hg in
/-- Where the clock breaks off the closure of a filled column, a turn is over. -/
theorem Fills.timedOut_turn (h : p.Fills q) (hp : p.Healthy g) (steps elapsed : Nat) :
    p.Turn g (q.timedOut steps elapsed) := by
  apply h.turn hg hp
  have hclosing : ({ q with state := .closing } : Parser) = q := by
    rw [← h.state_eq]
  have hcloses : q.ClosesTo _ := .timedOut steps elapsed
  rwa [hclosing] at hcloses

include hg in
/-- A parser stays well formed where the clock breaks off a closure. -/
theorem Fills.timedOut_healthy (h : p.Fills q) (hp : p.Healthy g) (steps elapsed : Nat) :
    (q.timedOut steps elapsed).Healthy g := by
  obtain ⟨rfl, hc⟩ := h.closable hg hp
  have hcontinues := closeFor_continues hg hc steps
  apply healthy_fail (q.closeFor steps).1.popped hcontinues.grammar_eq
    (popped_closable hcontinues.closable).valid
  change (q.timedOut steps elapsed).state ≠ .accepted
  rw [h.timedOut_state]
  exact EngineState.noConfusion

def Unbegun (p : Parser) : Prop := p.state = .start → p.chart.columns = #[]

include hg in
theorem Turn.unbegun (hp : p.Healthy g) (h : p.Turn g next) (hblank : p.Unbegun) :
    next.Unbegun := by
  obtain rfl := hp.grammar_eq
  intro hstate
  cases h with
  | stays hchart hconfig hkept =>
      rw [hchart]
      rcases hkept with hsame | ⟨-, hfinal⟩
      · exact hblank (hsame.symm.trans hstate)
      · rw [hstate] at hfinal
        contradiction
  | seeds tally hstart herror hcloses =>
      have hready := hp.seeded_closable hg herror tally
      obtain ⟨-, -, -, -, -, hlater⟩ := hcloses.takesAll hg hready
      exact absurd hstate hlater
  | reads hscanning hnews hread requests tally hcloses =>
      have hready := hscanning.opened_closable hg hread requests tally
      obtain ⟨-, -, -, -, -, hlater⟩ := hcloses.takesAll hg hready
      exact absurd hstate hlater

section readings

variable (token : Token) {news : List Candidate}

/-- A token that is read is read in some way, and each way is a scan, or a correction
within the ceiling. -/
theorem readings_news (h : (p.readings token).1 = .ok (.ok news)) :
    news ≠ [] ∧ ∀ new ∈ news,
      new ∈ p.chart.scans p.grammar token ∨ new.errorCost ≤ p.config.maxErrorValue := by
  obtain ⟨corrections, requests, rfl, hne, hfound, -⟩ := readings_ok (Prod.ext h rfl)
  refine ⟨hne, fun new hnew => ?_⟩
  rcases List.mem_append.mp hnew with hscan | hcorrection
  · exact .inl hscan
  · rcases hfound with rfl | ⟨-, rfl⟩
    · contradiction
    · obtain ⟨⟨w, cost⟩, -, hmem⟩ := List.mem_flatMap.mp hcorrection
      exact .inr ((WaitingItem.mem_corrections _ _ _ _ new).mp hmem).2

end readings

end Parser
end EarleyChart
