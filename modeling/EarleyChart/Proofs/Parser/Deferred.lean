import EarleyChart.Proofs.Parser.Closed
import EarleyChart.Proofs.Parser.Settings

/-!
Repair that waits for a token that fits nowhere. Up to such a token the run is the one
without repair: the mode of repair and the cost provider play no part in filling and
closing a column, and as long as a token can be scanned nothing is asked.
-/

namespace EarleyChart

def Verdict.Unexpected (verdict : Verdict) : Prop :=
  ∃ column token expected, verdict = .rejected (.unexpectedToken column token expected)

namespace Parser

def withRepair (p : Parser) (mode : RecoveryMode) (costs : CostProvider) : Parser :=
  { p with config := { p.config with recovery := mode }, costs := costs }

section closure

variable (p : Parser) (mode : RecoveryMode) (costs : CostProvider)

variable {p} in
theorem withRepair_of_config {q : Parser} (h : q.config = p.config) : q.withRepair mode costs =
    q.withSettings { p.config with recovery := mode } costs := by
  rw [withRepair, h]
  rfl

theorem closeColumn_withRepair : (p.withRepair mode costs).closeColumn =
    (p.closeColumn.1, p.closeColumn.2.withRepair mode costs) := by
  rw [withRepair_of_config mode costs (closeColumn_hasSettings ⟨rfl, rfl⟩).1]
  exact p.closeColumn_withSettings { p.config with recovery := mode } costs rfl rfl

theorem begin_withRepair : (p.withRepair mode costs).begin =
    (p.begin.1, p.begin.2.withRepair mode costs) := by
  rw [withRepair_of_config mode costs (begin_hasSettings ⟨rfl, rfl⟩).1]
  exact p.begin_withSettings { p.config with recovery := mode } costs rfl rfl

theorem openColumn_withRepair (token : Token) (news : List Candidate) :
    (p.withRepair mode costs).openColumn token news =
      (p.openColumn token news).withRepair mode costs := by
  rw [withRepair_of_config mode costs (openColumn_hasSettings ⟨rfl, rfl⟩ token news).1]
  exact p.openColumn_withSettings { p.config with recovery := mode } costs token news

theorem finish_withRepair : (p.withRepair mode costs).finish =
    (p.finish.1, p.finish.2.withRepair mode costs) := by
  rw [withRepair_of_config mode costs (finish_hasSettings ⟨rfl, rfl⟩).1]
  exact p.finish_withSettings { p.config with recovery := mode } costs

end closure

structure Plain (p : Parser) : Prop where
  mode : p.config.recovery = .disabled
  requests : p.requests = []

section plain

variable {p : Parser}

theorem closeColumn_plain (h : p.Plain) : p.closeColumn.2.Plain := by
  apply closeColumn_kept Plain
  case hpopped => exact fun h => ⟨h.mode, h.requests⟩
  case hprocess =>
    intro q item h
    obtain ⟨tally, hprocess⟩ := process_eq q item
    rw [hprocess]
    exact ⟨h.mode, h.requests⟩
  case hended => exact fun _ _ h => ⟨h.mode, h.requests⟩
  case h => exact h

theorem begin_plain (h : p.Plain) : p.begin.2.Plain := by
  rcases begin_cases p with ⟨e, -, heq⟩ | ⟨-, -, heq⟩ | ⟨-, -, heq⟩
  · rwa [heq]
  · rcases seed_cases p with ⟨reason, hseed⟩ | ⟨tally, hseed⟩
    · rw [heq, hseed]
      exact ⟨h.mode, h.requests⟩
    · rw [heq, hseed]
      exact closeColumn_plain ⟨h.mode, h.requests⟩
  · rwa [heq]

end plain

section steps

variable {p : Parser} (h : p.Plain) (costs : CostProvider)

include h in
/-- A token is rejected where it fits nowhere, or it is taken in as without repair. -/
theorem feedToken_deferred (token : Token) :
    (∃ why, (Verdict.rejected why).Unexpected ∧
      p.feedToken token = (.ok (.done (.rejected why)), (p.reject why).2)) ∨
    (p.feedToken token).2.Plain ∧ (p.withRepair .onFailure costs).feedToken token =
      ((p.feedToken token).1, (p.feedToken token).2.withRepair .onFailure costs) := by
  have hscans : (p.withRepair .onFailure costs).chart.scans
      (p.withRepair .onFailure costs).grammar token = p.chart.scans p.grammar token := rfl
  have hcount : (p.withRepair .onFailure costs).columnCount = p.columnCount := rfl
  have hmax : (p.withRepair .onFailure costs).config.maxColumns = p.config.maxColumns := rfl
  have hmode : (p.withRepair .onFailure costs).config.recovery = .onFailure := rfl
  rw [feedToken, feedToken, hcount, hmax]
  split
  · exact .inr ⟨⟨h.mode, h.requests⟩, rfl⟩
  simp only [readings, h.mode, hmode, hscans]
  by_cases hnone : (p.chart.scans p.grammar token).isEmpty = true
  · rw [if_pos hnone]
    exact .inl ⟨_, ⟨_, _, _, rfl⟩, rfl⟩
  · simp only [if_neg hnone]
    obtain ⟨tally, hopen⟩ : ∃ tally, p.openColumn token (p.chart.scans p.grammar token) =
        p.opened token (p.chart.scans p.grammar token) p.requests tally := insertAll_eq _ _
    refine .inr ⟨?_, ?_⟩
    · rw [hopen]
      exact closeColumn_plain ⟨h.mode, h.requests⟩
    · rw [openColumn_withRepair, closeColumn_withRepair]

include h in
theorem feed_deferred (answer : TokenAnswer) :
    (∃ why, (Verdict.rejected why).Unexpected ∧
      p.feed answer = (.ok (.done (.rejected why)), (p.reject why).2)) ∨
    (p.feed answer).2.Plain ∧ (p.withRepair .onFailure costs).feed answer =
      ((p.feed answer).1, (p.feed answer).2.withRepair .onFailure costs) := by
  cases answer with
  | error cause => exact .inr ⟨⟨h.mode, h.requests⟩, rfl⟩
  | ok token? =>
      cases token? with
      | some token => exact feedToken_deferred h costs token
      | none =>
          refine .inr ⟨?_, ?_⟩
          · change p.finish.2.Plain
            rw [finish]
            split <;> exact ⟨h.mode, h.requests⟩
          · simp only [feed, p.finish_withRepair .onFailure costs]

variable {σ : Type} [TokenSource σ]

include h in
/-- A step is the one without repair, unless it rejects a token that fits nowhere. -/
theorem advance_deferred (source : σ) :
    (∃ verdict : Verdict, verdict.Unexpected ∧
      (p.advance source).parser.settled? = some (.ok verdict) ∧
      (p.advance source).parser.verdict = some verdict) ∨
    (p.advance source).parser.Plain ∧ (p.withRepair .onFailure costs).advance source =
      ⟨(p.advance source).result, (p.advance source).parser.withRepair .onFailure costs,
        (p.advance source).source⟩ := by
  have hsettled : (p.withRepair .onFailure costs).settled? = p.settled? := rfl
  have hstate : (p.withRepair .onFailure costs).state = p.state := rfl
  rw [advance, advance, hsettled, hstate]
  cases hnone : p.settled? with
  | some result => exact .inr ⟨h, rfl⟩
  | none =>
      simp only
      split
      · rw [begin_withRepair]
        exact .inr ⟨begin_plain h, rfl⟩
      · rcases feed_deferred h costs (TokenSource.next source).1 with
          ⟨why, hwhy, heq⟩ | ⟨hplain, heq⟩
        · refine .inl ⟨_, hwhy, ?_, ?_⟩
          · have herror : p.error = none := by
              rw [settled?] at hnone
              split at hnone
              · contradiction
              · assumption
            rw [heq]
            simp only [settled?, reject, herror]
            rfl
          · rw [heq]
            rfl
        · rw [heq]
          exact .inr ⟨hplain, rfl⟩

include h in
theorem parseTokens_deferred (source : σ) :
    (∃ verdict : Verdict, verdict.Unexpected ∧ (p.parseTokens source).result = .ok verdict) ∨
    (p.parseTokens source).parser.Plain ∧ (p.withRepair .onFailure costs).parseTokens source =
      ⟨(p.parseTokens source).result, (p.parseTokens source).parser.withRepair .onFailure costs,
        (p.parseTokens source).source⟩ := by
  induction hn : TokenSource.size source using Nat.strong_induction_on generalizing p source with
  | _ n ih =>
  cases hnext : TokenSource.next source with
  | mk answer rest =>
      have hmore := feed_more (p := p) answer
      rw [parseTokens_next hnext, parseTokens_next hnext]
      rcases feed_deferred h costs answer with ⟨why, hwhy, heq⟩ | ⟨hplain, heq⟩
      · rw [heq]
        exact .inl ⟨_, hwhy, rfl⟩
      · rw [heq]
        generalize p.feed answer = fed at hplain hmore
        obtain ⟨result, next⟩ := fed
        cases result with
        | error e => exact .inr ⟨hplain, rfl⟩
        | ok progress =>
            cases progress with
            | done verdict => exact .inr ⟨hplain, rfl⟩
            | more =>
                obtain ⟨token, rfl⟩ := hmore rfl
                have hsize : TokenSource.size rest < n := hn ▸ TokenSource.size_next hnext
                exact ih _ hsize hplain rest rfl

include h in
/-- A whole run is the one without repair, unless that one rejects a token that fits
nowhere. -/
theorem parse_deferred (hnew : p.settled? = none) (source : σ) :
    (∃ verdict : Verdict, verdict.Unexpected ∧ (p.parse source).result = .ok verdict) ∨
    (p.parse source).parser.Plain ∧ (p.withRepair .onFailure costs).parse source =
      ⟨(p.parse source).result, (p.parse source).parser.withRepair .onFailure costs,
        (p.parse source).source⟩ := by
  have hsettled : (p.withRepair .onFailure costs).settled? = p.settled? := rfl
  have hplain := begin_plain h
  rw [parse, parse, hsettled, hnew, begin_withRepair]
  generalize p.begin = begun at hplain
  rcases begun with ⟨begun, q⟩
  cases begun with
  | error e => exact .inr ⟨hplain, rfl⟩
  | ok => exact parseTokens_deferred hplain costs source

end steps

theorem advances_settled {p : Parser} {result : Except ParseError Verdict}
    (h : p.settled? = some result) (n : Nat) (source : TokenStream) :
    advances n p source = (p, source) := by
  induction n with
  | zero => rfl
  | succ n ih => rw [advances, advance_settled h, ih]

/-- Step by step the run is the one without repair, as long as that one has not rejected a
token that fits nowhere. -/
theorem advances_deferred {p : Parser} (h : p.Plain) (costs : CostProvider) (n : Nat)
    (source : TokenStream)
    (hfits : ∀ verdict : Verdict, (advances n p source).1.verdict = some verdict →
      ¬ verdict.Unexpected) :
    (advances n p source).1.requests = [] ∧
      advances n (p.withRepair .onFailure costs) source =
        ((advances n p source).1.withRepair .onFailure costs, (advances n p source).2) := by
  induction n generalizing p source with
  | zero => exact ⟨h.requests, rfl⟩
  | succ n ih =>
      rw [advances] at hfits ⊢
      rcases advance_deferred h costs source with
        ⟨verdict, hwhy, hsettled, hverdict⟩ | ⟨hplain, heq⟩
      · rw [advances_settled hsettled] at hfits
        exact absurd hwhy (hfits verdict hverdict)
      · rw [advances, heq]
        exact ih hplain _ hfits

end Parser
end EarleyChart
