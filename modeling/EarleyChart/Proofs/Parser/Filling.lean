import EarleyChart.Proofs.Parser.History

/-!
The moments at which a column is closed. A run closes its first column once it is
filled with the rules of the start symbol, and every other one once it is filled with
the readings of a token. The closure then goes on item by item.
-/

namespace EarleyChart
namespace Parser

inductive Filled (g : Grammar) : Parser → Prop
  | first {p : Parser} (h : Reached g p) (hstart : p.state = .start) (herror : p.error = none)
      (hrules : (g.rulesFor g.start).isEmpty = false) :
      Filled g
        { ({ p with state := .seeding, chart := p.chart.openColumn g none } : Parser).predict
            g.start with state := .closing }
  | next {p q : Parser} (h : Reached g p) (hstate : p.state = .scanning)
      (herror : p.error = none)
      (hroom : ¬ (p.config.maxColumns > 0 ∧ p.columnCount ≥ p.config.maxColumns))
      (token : Token) (news : List Candidate)
      (hread : p.readings token = (.ok (.ok news), q)) :
      Filled g { q.openColumn token news with state := .closing }

variable {g : Grammar} {p q : Parser} (hg : g.Numbered)

theorem Filled.closing (h : Filled g q) : ({ q with state := .closing } : Parser) = q := by
  cases h <;> rfl

include hg in
theorem Filled.fills (h : Filled g q) : ∃ p, Reached g p ∧ p.Fills q := by
  cases h with
  | @first p h hstart herror hrules =>
      obtain rfl := (h.healthy hg).grammar_eq
      exact ⟨p, h, .first hstart herror hrules⟩
  | @next p q h hstate herror hroom token news hread =>
      exact ⟨p, h, .next hstate herror hroom token news hread⟩

include hg in
theorem Filled.closable (h : Filled g q) : q.grammar = g ∧ q.chart.Closable g := by
  obtain ⟨p, hp, hfills⟩ := h.fills hg
  exact hfills.closable hg (hp.healthy hg)

include hg in
/-- A filled column is closed in the course of an operation. -/
theorem Filled.closed (h : Filled g q) : Reached g q.closeColumn.2 := by
  cases h with
  | @first p h hstart herror hrules =>
      obtain rfl := (h.healthy hg).grammar_eq
      have hbegin := h.begin
      rw [begin, herror, hstart] at hbegin
      simp only [seed, hrules] at hbegin
      exact hbegin
  | @next p q h hstate herror hroom token news hread =>
      have hscanning := (h.healthy hg).waiting hstate herror
      have hadvance := h.advance (TokenStream.ofList [token])
      have hnext : TokenSource.next (TokenStream.ofList [token]) =
          (.ok (some token), ⟨[token], []⟩) := rfl
      rw [hscanning.advance_eq hnext] at hadvance
      simp only [feed, feedToken, if_neg hroom, hread] at hadvance
      exact hadvance

theorem Fills.filled (hp : Reached g p) (hgrammar : p.grammar = g) (h : p.Fills q) :
    Filled g q := by
  subst hgrammar
  cases h with
  | first hstart herror hrules => exact .first hp hstart herror hrules
  | next hstate herror hroom token news hread =>
      exact .next hp hstate herror hroom token news hread

/-- An answer leaves the chart as it is, or leads to a filled column that is closed. -/
theorem Scanning.feed_filled (hp : p.Scanning g) (h : Reached g p) (answer : TokenAnswer) :
    (p.feed answer).2.chart = p.chart ∨
      ∃ q, Filled g q ∧ (p.feed answer).2 = q.closeColumn.2 := by
  have hfed := feed_fed hp.state_eq hp.error_eq answer
  generalize p.feed answer = fed at hfed
  cases hfed with
  | failed | ended => exact .inl rfl
  | filled hfills => exact .inr ⟨_, hfills.filled h hp.grammar_eq, rfl⟩

include hg in
/-- A step leaves the chart as it is, or it closes a filled column. -/
theorem Reached.advance_filled (h : Reached g p) {σ : Type} [TokenSource σ] (source : σ) :
    (p.advance source).parser.chart = p.chart ∨
      ∃ q, Filled g q ∧ (p.advance source).parser = q.closeColumn.2 := by
  have hhealthy := h.healthy hg
  cases hsettled : p.settled? with
  | some result =>
      rw [advance_settled hsettled]
      exact .inl rfl
  | none =>
      by_cases hstart : p.state = .start
      · rw [advance_start hsettled hstart]
        rcases begin_cases p with ⟨e, -, heq⟩ | ⟨herror, -, heq⟩ | ⟨-, -, heq⟩
        · rw [heq]
          exact .inl rfl
        · rw [heq]
          rcases seed_fills hstart herror with ⟨reason, hseed⟩ | ⟨q, hfills, hseed⟩
          · rw [hseed]
            exact .inl rfl
          · exact .inr ⟨q, hfills.filled h hhealthy.grammar_eq, by rw [hseed]⟩
        · rw [heq]
          exact .inl rfl
      · have hscanning := hhealthy.scanning hsettled hstart
        cases hnext : TokenSource.next source with
        | mk answer rest =>
            rw [hscanning.advance_eq hnext]
            exact hscanning.feed_filled h answer

end Parser
end EarleyChart
