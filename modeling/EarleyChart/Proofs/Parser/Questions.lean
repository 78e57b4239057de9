import EarleyChart.Parser.Run

/-!
How a token is read, case by case. Corrections are looked for where repair is
on, and in the mode that waits for a failure only where the token cannot be
scanned. The cost provider is asked where an item waits for a terminal, and its
answer is turned down unless it has one price for each such item. The count of
corrections grows only by those that the token is then read with.
-/

namespace EarleyChart
namespace Parser

def question (p : Parser) (token : Token) : CostRequest :=
  ⟨token, p.chart.waitingItems p.grammar⟩

def prices (p : Parser) (token : Token) : List CorrectionCost :=
  p.costs p.grammar (p.chart.waitingItems p.grammar) token

/-- The corrections of a token at these prices, as far as the ceiling allows them. -/
def proposals (p : Parser) (token : Token) : List Candidate :=
  ((p.chart.waitingItems p.grammar).zip (p.prices token)).flatMap fun (w, cost) =>
    w.corrections p.config.maxErrorValue (p.grammar.terminalForKind? token.kind) cost

def asking (p : Parser) (token : Token) : Parser :=
  { p with requests := p.question token :: p.requests }

def proposing (p : Parser) (token : Token) : Parser :=
  { p.asking token with
    tally := { p.tally with corrections := p.tally.corrections + (p.proposals token).length } }

/-- The cost provider is asked about a token, and its answer has one price for each
item that waits. -/
structure Answered (p : Parser) (token : Token) : Prop where
  waiting : p.chart.waitingItems p.grammar ≠ []
  priced : (p.prices token).length = (p.chart.waitingItems p.grammar).length

/-- What looking for corrections of a token comes to. -/
inductive Corrects (p : Parser) (token : Token) : Except ParseError Corrections × Parser → Prop
  | idle (hidle : p.chart.waitingItems p.grammar = []) : Corrects p token (.ok .nothingWaiting, p)
  | unpriced (hwaiting : p.chart.waitingItems p.grammar ≠ [])
      (hprices : (p.prices token).length ≠ (p.chart.waitingItems p.grammar).length)
      (reason : String) : Corrects p token (.error (.collaborator reason), p.asking token)
  | overBudget (hanswered : p.Answered token) (hnone : p.proposals token = []) :
      Corrects p token (.ok .overBudget, p.asking token)
  | found (hanswered : p.Answered token) (hsome : p.proposals token ≠ []) :
      Corrects p token (.ok (.found (p.proposals token)), p.proposing token)

theorem correct_def (p : Parser) (token : Token) : ∃ reason, p.correct token =
    if (p.chart.waitingItems p.grammar).isEmpty then (.ok .nothingWaiting, p)
    else if (p.prices token).length ≠ (p.chart.waitingItems p.grammar).length then
      (.error (.collaborator reason), p.asking token)
    else
      (.ok (if (p.proposals token).isEmpty then .overBudget else .found (p.proposals token)),
        p.proposing token) := ⟨_, rfl⟩

theorem proposing_of_nil {p : Parser} {token : Token} (h : p.proposals token = []) :
    p.proposing token = p.asking token := by
  rw [proposing, h]
  rfl

theorem correct_corrects (p : Parser) (token : Token) : p.Corrects token (p.correct token) := by
  obtain ⟨reason, heq⟩ := p.correct_def token
  rw [heq]
  split
  · next hidle => exact .idle (List.isEmpty_iff.mp hidle)
  next hwaiting =>
  rw [List.isEmpty_iff] at hwaiting
  split
  · next hprices => exact .unpriced hwaiting hprices reason
  next hprices =>
  have hanswered : p.Answered token := ⟨hwaiting, Decidable.not_not.mp hprices⟩
  by_cases hnone : p.proposals token = []
  · rw [proposing_of_nil hnone, hnone]
    exact .overBudget hanswered hnone
  · rw [if_neg (mt List.isEmpty_iff.mp hnone)]
    exact .found hanswered hnone

/-- What reading a token comes to, before a column is opened for it. -/
inductive Interprets (p : Parser) (token : Token) :
    Except ParseError (Except Rejection (List Candidate)) × Parser → Prop
  | refused (hmode : p.config.recovery = .disabled)
      (hnone : p.chart.scans p.grammar token = []) :
      Interprets p token
        (.ok (.error (.unexpectedToken p.chart.current token p.expectedTerminals)), p)
  | scanned (hsome : p.chart.scans p.grammar token ≠ [])
      (hidle : p.config.recovery = .continuous → p.chart.waitingItems p.grammar = []) :
      Interprets p token (.ok (.ok (p.chart.scans p.grammar token)), p)
  | scannedAsking (hmode : p.config.recovery = .continuous)
      (hsome : p.chart.scans p.grammar token ≠ []) (hanswered : p.Answered token)
      (hproposals : p.proposals token = []) :
      Interprets p token (.ok (.ok (p.chart.scans p.grammar token)), p.asking token)
  | unpriced (hmode : p.config.recovery ≠ .disabled)
      (hwaiting : p.chart.waitingItems p.grammar ≠ [])
      (hprices : (p.prices token).length ≠ (p.chart.waitingItems p.grammar).length)
      (reason : String) : Interprets p token (.error (.collaborator reason), p.asking token)
  | exhausted (hmode : p.config.recovery ≠ .disabled)
      (hnone : p.chart.scans p.grammar token = [])
      (hidle : p.chart.waitingItems p.grammar = []) :
      Interprets p token (.ok (.error (.recoveryExhausted p.chart.current token)), p)
  | overBudget (hmode : p.config.recovery ≠ .disabled)
      (hnone : p.chart.scans p.grammar token = []) (hanswered : p.Answered token)
      (hproposals : p.proposals token = []) :
      Interprets p token
        (.ok (.error (.budgetExceeded p.chart.current token)), p.asking token)
  | corrected (hmode : p.config.recovery ≠ .disabled)
      (hwhen : p.config.recovery = .onFailure → p.chart.scans p.grammar token = [])
      (hanswered : p.Answered token) (hproposals : p.proposals token ≠ []) :
      Interprets p token
        (.ok (.ok (p.chart.scans p.grammar token ++ p.proposals token)), p.proposing token)

/-- A token is read with what was found for it, and where nothing was, as it is. -/
theorem interprets_of_corrects {p : Parser} {token : Token}
    (hmode : p.config.recovery ≠ .disabled)
    (hwhen : p.config.recovery = .onFailure → p.chart.scans p.grammar token = [])
    {found : Except ParseError Corrections × Parser} (h : p.Corrects token found) :
    p.Interprets token (found.1.map
      (·.reading p.chart.current token (p.chart.scans p.grammar token)), found.2) := by
  cases h with
  | idle hidle =>
      by_cases hnone : p.chart.scans p.grammar token = []
      · rw [hnone]
        exact .exhausted hmode hnone hidle
      · simp only [Except.map, Corrections.reading, List.isEmpty_iff, hnone, if_false]
        exact .scanned hnone fun _ => hidle
  | unpriced hwaiting hprices reason => exact .unpriced hmode hwaiting hprices reason
  | overBudget hanswered hproposals =>
      by_cases hnone : p.chart.scans p.grammar token = []
      · rw [hnone]
        exact .overBudget hmode hnone hanswered hproposals
      · have hcontinuous : p.config.recovery = .continuous := by
          cases hrecovery : p.config.recovery with
          | disabled => exact absurd hrecovery hmode
          | onFailure => exact absurd (hwhen hrecovery) hnone
          | continuous => rfl
        simp only [Except.map, Corrections.reading, List.isEmpty_iff, hnone, if_false]
        exact .scannedAsking hcontinuous hnone hanswered hproposals
  | found hanswered hproposals => exact .corrected hmode hwhen hanswered hproposals

theorem readings_interprets (p : Parser) (token : Token) :
    p.Interprets token (p.readings token) := by
  have hcorrect := p.correct_corrects token
  rw [readings]
  cases hmode : p.config.recovery with
  | disabled =>
      simp only [List.isEmpty_iff]
      split
      · next hnone => exact .refused hmode hnone
      · next hsome => exact .scanned hsome (by simp [hmode])
  | onFailure =>
      simp only [List.isEmpty_iff]
      split
      · next hnone =>
          have hinterprets := interprets_of_corrects (by simp [hmode]) (fun _ => hnone) hcorrect
          rwa [hnone] at hinterprets
      · next hsome => exact .scanned hsome (by simp [hmode])
  | continuous =>
      exact interprets_of_corrects (by simp [hmode]) (by simp [hmode]) hcorrect

/-- What a token is read as: all its scans, and the corrections that were found and counted. -/
theorem readings_ok {p q : Parser} {token : Token} {news : List Candidate}
    (h : p.readings token = (.ok (.ok news), q)) : ∃ corrections requests,
      news = p.chart.scans p.grammar token ++ corrections ∧ news ≠ [] ∧
      (corrections = [] ∨ p.Answered token ∧ corrections = p.proposals token) ∧
      q = { p with
        requests := requests
        tally := { p.tally with corrections := p.tally.corrections + corrections.length } } := by
  have hinterprets := p.readings_interprets token
  rw [h] at hinterprets
  cases hinterprets with
  | scanned hsome => exact ⟨[], p.requests, (List.append_nil _).symm, hsome, .inl rfl, rfl⟩
  | scannedAsking hmode hsome => exact ⟨[], _, (List.append_nil _).symm, hsome, .inl rfl, rfl⟩
  | corrected hmode hwhen hanswered hproposals =>
      exact ⟨_, _, rfl, fun hnil => hproposals (List.append_eq_nil_iff.mp hnil).2,
        .inr ⟨hanswered, rfl⟩, rfl⟩

end Parser
end EarleyChart
