import EarleyChart.Proofs.Parser.History
import EarleyChart.Proofs.Parser.Loop

/-!
What an operation asks of its source. A source is put behind a record of its answers;
the operation cannot tell, so that the record says what was asked and answered. An
operation runs to its end, or the clock breaks off the closure of a column that it filled.
-/

namespace EarleyChart

/-- A source with the answers that it has given, the first one first. -/
structure Recorded (σ : Type) where
  source : σ
  answers : List TokenAnswer

namespace Recorded

variable {σ : Type} [TokenSource σ]

instance : TokenSource (Recorded σ) where
  next s :=
    let (answer, rest) := TokenSource.next s.source
    (answer, ⟨rest, s.answers ++ [answer]⟩)
  atEnd s := TokenSource.atEnd s.source
  size s := TokenSource.size s.source
  size_next := by
    intro s rest token h
    obtain ⟨hanswer, rfl⟩ := Prod.mk.inj h
    exact TokenSource.size_next (Prod.ext hanswer rfl)

theorem next_eq {source rest : σ} {answer : TokenAnswer}
    (h : TokenSource.next source = (answer, rest)) (answers : List TokenAnswer) :
    TokenSource.next (⟨source, answers⟩ : Recorded σ) = (answer, ⟨rest, answers ++ [answer]⟩) := by
  change ((TokenSource.next source).1, (⟨(TokenSource.next source).2,
    answers ++ [(TokenSource.next source).1]⟩ : Recorded σ)) = _
  rw [h]

end Recorded

namespace Parser

section

variable {σ : Type} [TokenSource σ] (p : Parser) (source : σ) (answers : List TokenAnswer)

theorem advance_recorded : ∃ asked, p.advance (⟨source, answers⟩ : Recorded σ) =
    ⟨(p.advance source).result, (p.advance source).parser,
      ⟨(p.advance source).source, answers ++ asked⟩⟩ := by
  cases hsettled : p.settled? with
  | some result =>
      refine ⟨[], ?_⟩
      rw [advance_settled hsettled, advance_settled hsettled, List.append_nil]
  | none =>
      by_cases hstate : p.state = .start
      · refine ⟨[], ?_⟩
        rw [advance_start hsettled hstate, advance_start hsettled hstate, List.append_nil]
      · cases hnext : TokenSource.next source with
        | mk answer rest =>
            refine ⟨[answer], ?_⟩
            rw [advance_next hsettled hstate hnext,
              advance_next hsettled hstate (Recorded.next_eq hnext answers)]

theorem parseTokens_recorded : ∃ asked, p.parseTokens (⟨source, answers⟩ : Recorded σ) =
    ⟨(p.parseTokens source).result, (p.parseTokens source).parser,
      ⟨(p.parseTokens source).source, answers ++ asked⟩⟩ := by
  induction hn : TokenSource.size source using Nat.strong_induction_on
    generalizing p source answers with
  | _ n ih =>
  cases hnext : TokenSource.next source with
  | mk answer rest =>
      have hmore := feed_more (p := p) answer
      rw [parseTokens_next hnext, parseTokens_next (Recorded.next_eq hnext answers)]
      generalize p.feed answer = fed at hmore
      obtain ⟨result, next⟩ := fed
      cases result with
      | error e => exact ⟨[answer], rfl⟩
      | ok progress =>
          cases progress with
          | done verdict => exact ⟨[answer], rfl⟩
          | more =>
              obtain ⟨token, rfl⟩ := hmore rfl
              have hsize : TokenSource.size rest < n := hn ▸ TokenSource.size_next hnext
              obtain ⟨asked, h⟩ := ih _ hsize next rest (answers ++ [.ok (some token)]) rfl
              refine ⟨[.ok (some token)] ++ asked, ?_⟩
              rw [← List.append_assoc]
              exact h

theorem parse_recorded : ∃ asked, p.parse (⟨source, answers⟩ : Recorded σ) =
    ⟨(p.parse source).result, (p.parse source).parser,
      ⟨(p.parse source).source, answers ++ asked⟩⟩ := by
  rw [parse, parse]
  cases p.settled? with
  | some result => exact ⟨[], by rw [List.append_nil]⟩
  | none =>
      rcases p.begin with ⟨e | ⟨⟩, begun⟩
      · exact ⟨[], by rw [List.append_nil]⟩
      · exact begun.parseTokens_recorded source answers

end

def asked (p : Parser) : Operation → List TokenAnswer
  | .setConfig _ | .setCosts _ | .reset | .begin => []
  | @Operation.advance σ _ source => (p.advance (⟨source, []⟩ : Recorded σ)).source.answers
  | @Operation.parse σ _ source => (p.parse (⟨source, []⟩ : Recorded σ)).source.answers

def tokensOf (answers : List TokenAnswer) : List Token :=
  answers.filterMap fun
    | .ok token? => token?
    | .error _ => none

def taken (p : Parser) (operation : Operation) : List Token := tokensOf (p.asked operation)

/-- What operations ask their sources, one operation after another. -/
def askedAll (p : Parser) : List Operation → List TokenAnswer
  | [] => []
  | operation :: rest => p.asked operation ++ (p.perform operation).2.askedAll rest

/-- A step in which the clock breaks off the closure of the column that was filled, with
what the source was asked, the error, and what the step leaves. -/
inductive BrokenStep {σ : Type} [TokenSource σ] (p : Parser) (source : σ) :
    List TokenAnswer → ParseError → Parser → σ → Prop
  | first {q : Parser} (hstart : p.state = .start) (hfills : p.Fills q) (steps elapsed : Nat) :
      BrokenStep p source [] (.timeoutExceeded elapsed q.config.timeoutMs)
        (q.timedOut steps elapsed) source
  | next {q : Parser} {token : Token} {rest : σ}
      (hnext : TokenSource.next source = (.ok (some token), rest)) (hfills : p.FillsFor token q)
      (steps elapsed : Nat) :
      BrokenStep p source [.ok (some token)] (.timeoutExceeded elapsed q.config.timeoutMs)
        (q.timedOut steps elapsed) rest

inductive BrokenParse {σ : Type} [TokenSource σ] : Parser → σ →
    List TokenAnswer → ParseError → Parser → σ → Prop
  | here {p next : Parser} {source rest : σ} {asked : List TokenAnswer} {e : ParseError}
      (h : p.BrokenStep source asked e next rest) : BrokenParse p source asked e next rest
  | later {p next last : Parser} {source between rest : σ} {asked : List TokenAnswer}
      {e : ParseError} (h : p.advance source = ⟨.ok .more, next, between⟩)
      (hrest : BrokenParse next between asked e last rest) :
      BrokenParse p source (p.asked (.advance source) ++ asked) e last rest

/-- What becomes of an operation, with its answer and what its source was asked. -/
inductive Performs (p : Parser) : Operation → Answer → List TokenAnswer → Parser → Prop
  | whole (operation : Operation) :
      Performs p operation (p.perform operation).1 (p.asked operation) (p.perform operation).2
  | begin {q : Parser} (hstart : p.state = .start) (hfills : p.Fills q) (steps elapsed : Nat) :
      Performs p .begin (.begun (.error (.timeoutExceeded elapsed q.config.timeoutMs))) []
        (q.timedOut steps elapsed)
  | advance {σ : Type} [TokenSource σ] {source rest : σ} {asked : List TokenAnswer}
      {e : ParseError} {next : Parser} (h : p.BrokenStep source asked e next rest) :
      Performs p (.advance source) (.advanced (.error e) rest) asked next
  | parse {σ : Type} [TokenSource σ] {source rest : σ} {asked : List TokenAnswer}
      {e : ParseError} {next : Parser} (h : p.BrokenParse source asked e next rest) :
      Performs p (.parse source) (.parsed (.error e) rest) asked next

inductive Runs : Parser → List Operation → List Answer → List TokenAnswer → Parser → Prop
  | nil {p : Parser} : Runs p [] [] [] p
  | cons {p next last : Parser} {operation : Operation} {rest : List Operation}
      {answer : Answer} {answers : List Answer} {asked more : List TokenAnswer}
      (h : p.Performs operation answer asked next) (hrest : Runs next rest answers more last) :
      Runs p (operation :: rest) (answer :: answers) (asked ++ more) last

variable {p next last : Parser}

/-- The clock need not break anything off. -/
theorem runs_performAll (p : Parser) (operations : List Operation) :
    p.Runs operations (p.performAll operations).1 (p.askedAll operations)
      (p.performAll operations).2 := by
  induction operations generalizing p with
  | nil => exact .nil
  | cons operation rest ih => exact .cons (.whole operation) (ih _)

section reached

variable {g : Grammar} {asked : List TokenAnswer} {e : ParseError}

theorem BrokenStep.reached {σ : Type} [TokenSource σ] {source rest : σ}
    (h : p.BrokenStep source asked e next rest) (hp : Reached g p) : Reached g next := by
  cases h with
  | first hstart hfills steps elapsed => exact hp.timedOut hfills steps elapsed
  | next hnext hfills steps elapsed => exact hp.timedOut hfills.fills steps elapsed

theorem BrokenParse.reached {σ : Type} [TokenSource σ] {source rest : σ}
    (h : BrokenParse p source asked e next rest) (hp : Reached g p) : Reached g next := by
  induction h with
  | here hstep => exact hstep.reached hp
  | @later p next last source between rest asked e h hrest ih =>
      have hreached := hp.advance source
      rw [h] at hreached
      exact ih hreached

theorem Performs.reached {operation : Operation} {answer : Answer}
    (h : p.Performs operation answer asked next) (hp : Reached g p) : Reached g next := by
  cases h with
  | whole => exact hp.perform operation
  | begin hstart hfills steps elapsed => exact hp.timedOut hfills steps elapsed
  | advance hstep => exact hstep.reached hp
  | parse hparse => exact hparse.reached hp

theorem Runs.reached {operations : List Operation} {answers : List Answer}
    (h : p.Runs operations answers asked last) (hp : Reached g p) : Reached g last := by
  induction h with
  | nil => exact hp
  | cons hperforms hrest ih => exact ih (hperforms.reached hp)

end reached

end Parser
end EarleyChart
