import EarleyChart.Proofs.Parser.Health
import EarleyChart.Proofs.Parser.Questions

/-!
What a step of a run comes to. It stops with an error or ends with a verdict and
leaves the chart and the counts as they were, or it fills a column and closes it.
-/

namespace EarleyChart

def Verdict.state : Verdict → EngineState
  | .accepted => .accepted
  | .rejected _ => .rejected

def ParseError.early : ParseError → Bool
  | .lex _ => true
  | e => e.turnsAway

namespace Parser

/-- A parser is about to close a column that it filled, when it begins or has read a
token. -/
inductive Fills (p : Parser) : Parser → Prop
  | first (hstart : p.state = .start) (herror : p.error = none)
      (hrules : (p.grammar.rulesFor p.grammar.start).isEmpty = false) :
      Fills p
        { ({ p with state := .seeding, chart := p.chart.openColumn p.grammar none } :
            Parser).predict p.grammar.start with state := .closing }
  | next {q : Parser} (hstate : p.state = .scanning) (herror : p.error = none)
      (hroom : ¬ (p.config.maxColumns > 0 ∧ p.columnCount ≥ p.config.maxColumns))
      (token : Token) (news : List Candidate)
      (hread : p.readings token = (.ok (.ok news), q)) :
      Fills p { q.openColumn token news with state := .closing }

inductive FillsFor (p : Parser) (token : Token) : Parser → Prop
  | intro {q : Parser} (hstate : p.state = .scanning) (herror : p.error = none)
      (hroom : ¬ (p.config.maxColumns > 0 ∧ p.columnCount ≥ p.config.maxColumns))
      (news : List Candidate) (hread : p.readings token = (.ok (.ok news), q)) :
      FillsFor p token { q.openColumn token news with state := .closing }

/-- At most the question about one token was put. -/
inductive Asks (p : Parser) : List CostRequest → Prop
  | silent : Asks p p.requests
  | once (token : Token) : Asks p (p.question token :: p.requests)

/-- What taking in an answer comes to. -/
inductive Fed (p : Parser) : Except ParseError Progress × Parser → Prop
  | failed (e : ParseError) (hearly : e.early = true) {requests : List CostRequest}
      (hasks : p.Asks requests) : Fed p (.error e, { p with error := some e, requests := requests })
  | ended (verdict : Verdict) {requests : List CostRequest} (hasks : p.Asks requests) :
      Fed p (.ok (.done verdict),
        { p with state := verdict.state, verdict := some verdict, requests := requests })
  | filled {q : Parser} (hfills : p.Fills q) :
      Fed p (q.closeColumn.1.map fun _ => .more, q.closeColumn.2)

variable {p q : Parser}

theorem FillsFor.fills {token : Token} (h : p.FillsFor token q) : p.Fills q := by
  obtain ⟨hstate, herror, hroom, news, hread⟩ := h
  exact .next hstate herror hroom token news hread

theorem finish_fed (p : Parser) : p.Fed (.ok (.done p.finish.1), p.finish.2) := by
  rw [finish]
  split
  · exact .ended .accepted .silent
  · exact .ended (.rejected _) .silent

theorem feedToken_fed (hstate : p.state = .scanning) (herror : p.error = none) (token : Token) :
    p.Fed (p.feedToken token) := by
  rw [feedToken]
  split
  · exact .failed _ rfl .silent
  next hroom =>
  have hinterprets := p.readings_interprets token
  have hfilled : ∀ (news : List Candidate) (q : Parser), p.readings token = (.ok (.ok news), q) →
      p.Fed ((q.openColumn token news).closeColumn.1.map fun _ => .more,
        (q.openColumn token news).closeColumn.2) := fun news q hread =>
    .filled (q := { q.openColumn token news with state := .closing })
      (.next hstate herror hroom token news hread)
  generalize p.readings token = outcome at hinterprets hfilled
  cases hinterprets with
  | refused | exhausted => exact .ended (.rejected _) .silent
  | overBudget => exact .ended (.rejected _) (.once token)
  | unpriced hmode hwaiting hprices reason => exact .failed _ rfl (.once token)
  | scanned | scannedAsking | corrected => exact hfilled _ _ rfl

/-- An answer is turned down, ends the run, or fills a column that is then closed. -/
theorem feed_fed (hstate : p.state = .scanning) (herror : p.error = none) (answer : TokenAnswer) :
    p.Fed (p.feed answer) := by
  rcases answer with cause | ⟨⟩ | token
  · exact .failed _ rfl .silent
  · exact finish_fed p
  · exact feedToken_fed hstate herror token

/-- A run that is to begin fails for lack of rules, or fills the first column and closes it. -/
theorem seed_fills (hstart : p.state = .start) (herror : p.error = none) :
    (∃ reason, p.seed = (.error (.invalidGrammar reason), p.fail (.invalidGrammar reason))) ∨
      ∃ q, p.Fills q ∧ p.seed = q.closeColumn := by
  rw [seed]
  split
  · exact .inl ⟨_, rfl⟩
  · next hrules => exact .inr ⟨_, .first hstart herror (Bool.eq_false_of_not_eq_true hrules), rfl⟩

end Parser
end EarleyChart
