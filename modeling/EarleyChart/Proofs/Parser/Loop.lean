import EarleyChart.Proofs.Parser.Health

/-!
A whole run is a loop of steps. What a step does is told by the state: a run that is
over answers as before, the first step begins the run, and every other step takes in
one answer of the source.
-/

namespace EarleyChart
namespace Parser

variable {g : Grammar} {p : Parser} {σ : Type} [TokenSource σ]

theorem advance_settled {result : Except ParseError Verdict} (h : p.settled? = some result)
    (source : σ) : p.advance source = ⟨result.map .done, p, source⟩ := by
  rw [advance, h]

theorem parse_settled {result : Except ParseError Verdict} (h : p.settled? = some result)
    (source : σ) : p.parse source = ⟨result, p, source⟩ := by
  rw [parse, h]

theorem advance_start (h : p.settled? = none) (hstate : p.state = .start) (source : σ) :
    p.advance source = ⟨p.begin.1.map fun _ => .more, p.begin.2, source⟩ := by
  rw [advance, h]
  exact if_pos hstate

theorem advance_next (h : p.settled? = none) (hstate : p.state ≠ .start) {source rest : σ}
    {answer : TokenAnswer} (hnext : TokenSource.next source = (answer, rest)) :
    p.advance source = ⟨(p.feed answer).1, (p.feed answer).2, rest⟩ := by
  simp only [advance, h, hnext]
  exact if_neg hstate

theorem Scanning.unsettled (h : p.Scanning g) : p.settled? = none := by
  rw [settled?, h.error_eq, h.state_eq]
  rfl

theorem Scanning.advance_eq (h : p.Scanning g) {source rest : σ} {answer : TokenAnswer}
    (hnext : TokenSource.next source = (answer, rest)) :
    p.advance source = ⟨(p.feed answer).1, (p.feed answer).2, rest⟩ := by
  apply advance_next h.unsettled _ hnext
  rw [h.state_eq]
  exact EngineState.noConfusion

/-- Only a token leads on. -/
theorem feed_more (answer : TokenAnswer) (h : (p.feed answer).1 = .ok .more) :
    ∃ token, answer = .ok (some token) := by
  cases answer with
  | error cause => contradiction
  | ok token? =>
      cases token? with
      | none => simp [feed] at h
      | some token => exact ⟨token, rfl⟩

/-- Reading tokens is taking in one answer after another. -/
theorem parseTokens_next {source rest : σ} {answer : TokenAnswer}
    (hnext : TokenSource.next source = (answer, rest)) :
    p.parseTokens source = match p.feed answer with
      | (.ok .more, next) => next.parseTokens rest
      | (.ok (.done verdict), next) => ⟨.ok verdict, next, rest⟩
      | (.error e, next) => ⟨.error e, next, rest⟩ := by
  rw [parseTokens]
  split
  · next token after heq =>
      obtain ⟨rfl, rfl⟩ := Prod.mk.inj (hnext.symm.trans heq)
      rfl
  · next after heq =>
      obtain ⟨rfl, rfl⟩ := Prod.mk.inj (hnext.symm.trans heq)
      rfl
  · next cause after heq =>
      obtain ⟨rfl, rfl⟩ := Prod.mk.inj (hnext.symm.trans heq)
      rfl

/-- Steps over a source, up to the one that ends the run. -/
inductive Parses : Parser → σ → Outcome σ → Prop
  | ended {p next : Parser} {source rest : σ} {verdict : Verdict}
      (h : p.advance source = ⟨.ok (.done verdict), next, rest⟩) :
      Parses p source ⟨.ok verdict, next, rest⟩
  | failed {p next : Parser} {source rest : σ} {e : ParseError}
      (h : p.advance source = ⟨.error e, next, rest⟩) : Parses p source ⟨.error e, next, rest⟩
  | more {p next : Parser} {source rest : σ} {outcome : Outcome σ}
      (h : p.advance source = ⟨.ok .more, next, rest⟩) (hrest : Parses next rest outcome) :
      Parses p source outcome

/-- What every step keeps holds at the end of a run. -/
theorem Parses.kept {source : σ} {outcome : Outcome σ} (h : Parses p source outcome)
    (property : Parser → Prop)
    (hstep : ∀ {p : Parser} (source : σ), property p → property (p.advance source).parser)
    (hproperty : property p) : property outcome.parser := by
  induction h with
  | @ended p next source rest verdict heq | @failed p next source rest e heq =>
      have hnext := hstep source hproperty
      rwa [heq] at hnext
  | @more p next source rest outcome heq hrest ih =>
      have hnext := hstep source hproperty
      rw [heq] at hnext
      exact ih hnext

variable (hg : g.Numbered)

include hg in
theorem Scanning.parses (h : p.Scanning g) (source : σ) :
    Parses p source (p.parseTokens source) := by
  induction hn : TokenSource.size source using Nat.strong_induction_on generalizing p source with
  | _ n ih =>
  cases hnext : TokenSource.next source with
  | mk answer rest =>
      have hadvance := h.advance_eq hnext
      have hscanning := (feed_healthy hg h answer).1
      have hmore := feed_more (p := p) answer
      rw [parseTokens_next hnext]
      generalize p.feed answer = fed at hadvance hscanning hmore
      obtain ⟨result, next⟩ := fed
      cases result with
      | error e => exact .failed hadvance
      | ok progress =>
          cases progress with
          | done verdict => exact .ended hadvance
          | more =>
              obtain ⟨token, rfl⟩ := hmore rfl
              have hsize : TokenSource.size rest < n := hn ▸ TokenSource.size_next hnext
              exact .more hadvance (ih _ hsize (hscanning rfl) rest rfl)

include hg in
/-- A whole run is made of steps, the last of which ends it. -/
theorem Healthy.parses (h : p.Healthy g) (source : σ) : Parses p source (p.parse source) := by
  cases hsettled : p.settled? with
  | some result =>
      have hadvance := advance_settled hsettled source
      rw [parse_settled hsettled]
      cases result with
      | error e => exact .failed hadvance
      | ok verdict => exact .ended hadvance
  | none =>
      have hscanning := begin_scanning hg h hsettled
      rw [parse, hsettled]
      by_cases hstate : p.state = .start
      · have hadvance := advance_start hsettled hstate source
        generalize p.begin = begun at hadvance hscanning
        obtain ⟨result, next⟩ := begun
        cases result with
        | error e => exact .failed hadvance
        | ok => exact .more hadvance ((hscanning rfl).parses hg source)
      · have hp := h.scanning hsettled hstate
        have hbegin : p.begin = (.ok (), p) := by
          rw [begin, hp.error_eq, hp.state_eq]
        rw [hbegin]
        exact hp.parses hg source

end Parser
end EarleyChart
