import EarleyChart.Proofs.Parser.Accounts
import EarleyChart.Proofs.Parser.Closed

/-!
Runs between two resets, over any operations and any sources, where the clock may break
off any closure. The account of the tokens taken is kept by each operation, and the first
verdict or error lasts: from then on no operation asks its source or changes the parser.
-/

namespace EarleyChart

def Answer.final? : Answer → Option (Except ParseError Verdict)
  | .silent | .begun (.ok ()) | .advanced (.ok .more) _ => none
  | .begun (.error e) | .advanced (.error e) _ => some (.error e)
  | .advanced (.ok (.done verdict)) _ => some (.ok verdict)
  | .parsed result _ => some result

namespace Parser

variable {g : Grammar} {p : Parser} {taken : List Token} {result : Except ParseError Verdict}

section account

variable {σ : Type} [TokenSource σ]

theorem asked_advance_settled (h : p.settled? = some result) (source : σ) :
    p.asked (.advance source) = [] := by
  rw [asked, advance_settled h]

/-- A step asks for one token at most, and for none where it fills the first column. -/
theorem asked_advance (p : Parser) (source : σ) : (p.asked (.advance source)).length ≤ 1 ∧
    (p.state = .start → p.asked (.advance source) = []) := by
  cases hsettled : p.settled? with
  | some result =>
      rw [asked_advance_settled hsettled]
      exact ⟨Nat.zero_le _, fun _ => rfl⟩
  | none =>
      by_cases hstate : p.state = .start
      · rw [asked, advance_start hsettled hstate]
        exact ⟨Nat.zero_le _, fun _ => rfl⟩
      · cases hnext : TokenSource.next source with
        | mk answer rest =>
            rw [asked, advance_next hsettled hstate (Recorded.next_eq hnext [])]
            exact ⟨Nat.le_refl _, fun h => absurd h hstate⟩

variable (hg : g.Numbered)

theorem tokensOf_append (answers more : List TokenAnswer) :
    tokensOf (answers ++ more) = tokensOf answers ++ tokensOf more := List.filterMap_append

include hg in
theorem Accounted.advance (hp : Reached g p) (source : Recorded σ)
    (h : p.Accounted (taken ++ tokensOf source.answers)) :
    (p.advance source).parser.Accounted
      (taken ++ tokensOf (p.advance source).source.answers) := by
  cases hsettled : p.settled? with
  | some result => rwa [advance_settled hsettled]
  | none =>
      by_cases hstate : p.state = .start
      · rw [advance_start hsettled hstate]
        exact h.begin hg (hp.healthy hg) (hp.unbegun hg)
      · cases hnext : TokenSource.next source.source with
        | mk answer rest =>
            rw [advance_next hsettled hstate (Recorded.next_eq hnext source.answers),
              tokensOf_append, ← List.append_assoc]
            exact h.feed hg ((hp.healthy hg).scanning hsettled hstate) answer

include hg in
theorem Parses.accounted {source : Recorded σ} {outcome : Outcome (Recorded σ)}
    (hparses : Parses p source outcome) (hp : Reached g p)
    (h : p.Accounted (taken ++ tokensOf source.answers)) :
    outcome.parser.Accounted (taken ++ tokensOf outcome.source.answers) := by
  induction hparses with
  | ended heq | failed heq =>
      have hnext := h.advance hg hp
      rwa [heq] at hnext
  | @more p next source rest outcome heq hrest ih =>
      have hreached := hp.advance source
      have hnext := h.advance hg hp
      rw [heq] at hreached hnext
      exact ih hreached hnext

end account

variable (hg : g.Numbered)

include hg in
/-- Every operation but a reset keeps the account, with the tokens that it takes. -/
theorem Accounted.perform (h : p.Accounted taken) (hp : Reached g p) {operation : Operation}
    (hkeep : operation ≠ .reset) :
    (p.perform operation).2.Accounted (taken ++ p.taken operation) := by
  have hnone : taken ++ tokensOf [] = taken := List.append_nil taken
  cases operation with
  | setConfig config | setCosts costs =>
      rw [Parser.taken, asked, hnone]
      exact ⟨h.blank, h.untaken, h.first, h.column, h.count, h.last, h.accepted, h.rejected⟩
  | reset => contradiction
  | begin =>
      rw [Parser.taken, asked, hnone]
      exact h.begin hg (hp.healthy hg) (hp.unbegun hg)
  | advance source =>
      have hstart : p.Accounted (taken ++ tokensOf (⟨source, []⟩ : Recorded _).answers) :=
        hnone.symm ▸ h
      have hnext := hstart.advance hg hp
      obtain ⟨answers, heq⟩ := p.advance_recorded source []
      rw [Parser.taken, asked]
      rw [heq] at hnext ⊢
      exact hnext
  | parse source =>
      have hparses := (hp.healthy hg).parses hg (⟨source, []⟩ : Recorded _)
      have hstart : p.Accounted (taken ++ tokensOf (⟨source, []⟩ : Recorded _).answers) :=
        hnone.symm ▸ h
      have hnext := hparses.accounted hg hp hstart
      obtain ⟨answers, heq⟩ := p.parse_recorded source []
      rw [Parser.taken, asked]
      rw [heq] at hnext ⊢
      exact hnext

section clock

variable {σ : Type} [TokenSource σ] {source rest : σ} {asked : List TokenAnswer} {e : ParseError}
  {next last : Parser}

include hg in
theorem BrokenStep.accounted (hstep : p.BrokenStep source asked e next rest) (hp : Reached g p)
    (h : p.Accounted taken) : next.Accounted (taken ++ tokensOf asked) := by
  cases hstep with
  | first hstart hfills steps elapsed =>
      have hnext := h.first_timedOut hg (hp.healthy hg) (hp.unbegun hg) hstart hfills steps elapsed
      exact (List.append_nil taken).symm ▸ hnext
  | next hnext hfills steps elapsed =>
      exact h.next_timedOut hg (hp.healthy hg) hfills steps elapsed

include hg in
theorem BrokenParse.accounted (hparse : BrokenParse p source asked e next rest)
    (hp : Reached g p) (h : p.Accounted taken) : next.Accounted (taken ++ tokensOf asked) := by
  induction hparse generalizing taken with
  | here hstep => exact hstep.accounted hg hp h
  | @later p next last source between rest asked e heq hrest ih =>
      have hreached := hp.advance source
      have hkeep : Operation.advance source ≠ .reset := Operation.noConfusion
      have hnext : (p.advance source).parser.Accounted _ := h.perform hg hp hkeep
      rw [heq] at hreached hnext
      rw [tokensOf_append, ← List.append_assoc]
      exact ih hreached hnext

include hg in
theorem Performs.accounted {operation : Operation} {answer : Answer}
    (hperforms : p.Performs operation answer asked next) (hp : Reached g p)
    (h : p.Accounted taken) (hkeep : operation ≠ .reset) :
    next.Accounted (taken ++ tokensOf asked) := by
  cases hperforms with
  | whole => exact h.perform hg hp hkeep
  | begin hstart hfills steps elapsed =>
      have hnext := h.first_timedOut hg (hp.healthy hg) (hp.unbegun hg) hstart hfills steps elapsed
      exact (List.append_nil taken).symm ▸ hnext
  | advance hstep => exact hstep.accounted hg hp h
  | parse hparse => exact hparse.accounted hg hp h

include hg in
theorem Runs.accounted {operations : List Operation} {answers : List Answer}
    (hrun : p.Runs operations answers asked last) (hp : Reached g p) (h : p.Accounted taken)
    (hkeep : .reset ∉ operations) : last.Accounted (taken ++ tokensOf asked) := by
  induction hrun generalizing taken with
  | nil => exact (List.append_nil taken).symm ▸ h
  | cons hperforms hrest ih =>
      have hnext := hperforms.accounted hg hp h fun heq => hkeep (heq ▸ List.mem_cons_self)
      rw [tokensOf_append, ← List.append_assoc]
      exact ih (hperforms.reached hp) hnext fun hmem => hkeep (List.mem_cons_of_mem _ hmem)

/-- However a step ends, it has asked for one token at most, and for none where it fills the
first column. -/
theorem Performs.asked_advance {answer : Answer}
    (h : p.Performs (.advance source) answer asked next) :
    asked.length ≤ 1 ∧ (p.state = .start → asked = []) := by
  cases h with
  | whole => exact p.asked_advance source
  | advance hstep =>
      cases hstep with
      | first => exact ⟨Nat.zero_le _, fun _ => rfl⟩
      | next hnext hfills =>
          obtain ⟨hstate, -⟩ := hfills
          refine ⟨Nat.le_refl _, fun hstart => ?_⟩
          rw [hstate] at hstart
          contradiction

end clock

theorem accounted_reset (p : Parser) : p.reset.Accounted [] where
  blank := ⟨fun _ => rfl, fun _ => rfl⟩
  untaken _ := rfl
  first := rfl
  column k hk := absurd hk (Nat.not_lt_zero _)
  count h := absurd h (Nat.lt_irrefl 0)
  last := by simp [reset]
  accepted := by simp [reset]
  rejected := by simp [reset]

/-- A run that is over with a result. Whatever becomes of an operation, it asks its source
for nothing, does not change the parser, and answers with the result. -/
structure Over (p : Parser) (result : Except ParseError Verdict) : Prop where
  begin : ∀ answer asked next, p.Performs .begin answer asked next →
    answer = .begun (result.map fun _ => ()) ∧ asked = [] ∧ next = p
  advance : ∀ {σ : Type} [TokenSource σ] (source : σ) answer asked next,
    p.Performs (.advance source) answer asked next →
      answer = .advanced (result.map .done) source ∧ asked = [] ∧ next = p
  parse : ∀ {σ : Type} [TokenSource σ] (source : σ) answer asked next,
    p.Performs (.parse source) answer asked next →
      answer = .parsed result source ∧ asked = [] ∧ next = p

theorem Accounted.settled_cases (h : p.Accounted taken) (hsettled : p.settled? = some result) :
    (∃ e, p.error = some e ∧ result = .error e) ∨
      p.error = none ∧ p.state ≠ .start ∧ ∃ verdict, result = .ok verdict := by
  rw [settled?] at hsettled
  split at hsettled
  · next e herror => exact .inl ⟨e, herror, (Option.some.inj hsettled).symm⟩
  · next herror =>
      split at hsettled
      · next hfinal =>
          have hstate : p.state ≠ .start := by
            intro hstart
            rw [hstart] at hfinal
            contradiction
          split at hsettled
          · next verdict hverdict =>
              exact .inr ⟨herror, hstate, verdict, (Option.some.inj hsettled).symm⟩
          -- A state that is final has its verdict by the account.
          · next hverdict =>
              have haccepted := h.accepted
              have hrejected := h.rejected
              cases hend : p.state <;>
                simp [hend, hverdict, EngineState.isFinal] at hfinal haccepted hrejected
      · contradiction

theorem begin_settled (h : p.settled? = some result) : p.begin.2 = p := by
  rcases begin_cases p with ⟨e, -, heq⟩ | ⟨herror, hstart, -⟩ | ⟨-, -, heq⟩
  · rw [heq]
  · rw [settled?, herror, hstart] at h
    contradiction
  · rw [heq]

theorem Accounted.begin_over (h : p.Accounted taken) (hsettled : p.settled? = some result) :
    p.begin = (result.map fun _ => (), p) := by
  rcases h.settled_cases hsettled with ⟨e, herror, rfl⟩ | ⟨herror, hstate, verdict, rfl⟩
  · rw [Parser.begin, herror]
    rfl
  · rcases begin_cases p with ⟨e, hfailed, -⟩ | ⟨-, hstart, -⟩ | ⟨-, -, heq⟩
    · rw [herror] at hfailed
      contradiction
    · contradiction
    · exact heq

theorem Fills.unsettled {q : Parser} (h : p.Fills q) : p.settled? = none := by
  cases h with
  | first hstate herror | next hstate herror => simp_all [settled?, EngineState.isFinal]

theorem BrokenStep.unsettled {σ : Type} [TokenSource σ] {source rest : σ}
    {asked : List TokenAnswer} {e : ParseError} {next : Parser}
    (h : p.BrokenStep source asked e next rest) : p.settled? = none := by
  cases h with
  | first hstart hfills => exact hfills.unsettled
  | next hnext hfills => exact hfills.fills.unsettled

theorem BrokenParse.unsettled {σ : Type} [TokenSource σ] {source rest : σ}
    {asked : List TokenAnswer} {e : ParseError} {next : Parser}
    (h : BrokenParse p source asked e next rest) : p.settled? = none := by
  cases h with
  | here hstep => exact hstep.unsettled
  | later heq =>
      -- A step of a run that is over does not lead on.
      cases hsettled : p.settled? with
      | none => rfl
      | some result =>
          rw [advance_settled hsettled] at heq
          cases result <;> simp [Except.map] at heq

/-- Once a run is over, no closure is left for the clock to break off. -/
theorem Performs.whole_of_settled (hsettled : p.settled? = some result) {operation : Operation}
    {answer : Answer} {asked : List TokenAnswer} {next : Parser}
    (h : p.Performs operation answer asked next) : answer = (p.perform operation).1 ∧
      asked = p.asked operation ∧ next = (p.perform operation).2 := by
  have hopen : p.settled? ≠ none := by
    rw [hsettled]
    exact Option.some_ne_none result
  cases h with
  | whole => exact ⟨rfl, rfl, rfl⟩
  | begin hstart hfills => exact absurd hfills.unsettled hopen
  | advance hstep => exact absurd hstep.unsettled hopen
  | parse hparse => exact absurd hparse.unsettled hopen

theorem Accounted.lasts (h : p.Accounted taken) (hsettled : p.settled? = some result) :
    p.Over result where
  begin := by
    intro answer asked next hperforms
    obtain ⟨rfl, rfl, rfl⟩ := hperforms.whole_of_settled hsettled
    simp [Parser.perform, Parser.asked, h.begin_over hsettled]
  advance := by
    intro σ _ source answer asked next hperforms
    obtain ⟨rfl, rfl, rfl⟩ := hperforms.whole_of_settled hsettled
    simp [Parser.perform, asked_advance_settled hsettled, advance_settled hsettled]
  parse := by
    intro σ _ source answer asked next hperforms
    obtain ⟨rfl, rfl, rfl⟩ := hperforms.whole_of_settled hsettled
    simp [Parser.perform, Parser.asked, parse_settled hsettled]

theorem Scanning.feed_done (hg : g.Numbered) (h : p.Scanning g) (answer : TokenAnswer)
    (verdict : Verdict) (hdone : (p.feed answer).1 = .ok (.done verdict)) :
    (p.feed answer).2.settled? = some (.ok verdict) := by
  cases answer with
  | error cause => contradiction
  | ok token? =>
      cases token? with
      | none =>
          simp only [feed, finish] at hdone ⊢
          split at hdone
          · next hcompleted =>
              obtain rfl := Progress.done.inj (Except.ok.inj hdone)
              simp [hcompleted, settled?, accept, h.error_eq, EngineState.isFinal]
          · next hcompleted =>
              obtain rfl := Progress.done.inj (Except.ok.inj hdone)
              simp [hcompleted, settled?, reject, h.error_eq, EngineState.isFinal]
      | some token =>
          have hfeeds := h.feeds hg token
          simp only [feed] at hdone ⊢
          generalize p.feedToken token = outcome at hfeeds hdone
          cases hfeeds with
          | failed | stopped | closed => simp at hdone
          | rejected why requests tally htoken =>
              obtain rfl := Progress.done.inj (Except.ok.inj hdone)
              simp [settled?, reject, h.error_eq, EngineState.isFinal]

theorem settled_of_error {e : ParseError} (h : p.error = some e) :
    p.settled? = some (.error e) := by
  rw [settled?, h]

theorem begin_error {e : ParseError} (h : p.begin.1 = .error e) : p.begin.2.error = some e := by
  rcases begin_cases p with ⟨cause, herror, heq⟩ | ⟨-, -, heq⟩ | ⟨-, -, heq⟩
  · rw [heq] at h ⊢
    exact herror.trans (congrArg some (Except.error.inj h))
  · rw [heq] at h ⊢
    exact seed_error p e h
  · rw [heq] at h
    contradiction

/-- The verdict or the error that a step answers is there to stay. -/
theorem Healthy.advance_final (hg : g.Numbered) (hp : p.Healthy g) {σ : Type} [TokenSource σ]
    (source : σ)
    (h : Answer.final? (.advanced (p.advance source).result (p.advance source).source) =
      some result) : (p.advance source).parser.settled? = some result := by
  cases hsettled : p.settled? with
  | some before =>
      rw [advance_settled hsettled] at h ⊢
      cases before with
      | error e => exact hsettled.trans h
      | ok verdict => exact hsettled.trans h
  | none =>
      by_cases hstate : p.state = .start
      · rw [advance_start hsettled hstate] at h ⊢
        cases hbegun : p.begin.1 with
        | ok => simp [hbegun, Except.map, Answer.final?] at h
        | error e =>
            rw [hbegun] at h
            exact (settled_of_error (begin_error hbegun)).trans h
      · cases hnext : TokenSource.next source with
        | mk answer rest =>
            have hscanning := hp.scanning hsettled hstate
            rw [advance_next hsettled hstate hnext] at h ⊢
            cases hfed : (p.feed answer).1 with
            | error e =>
                rw [hfed] at h
                exact (settled_of_error (feed_error hg hscanning answer e hfed)).trans h
            | ok progress =>
                rw [hfed] at h
                cases progress with
                | more => contradiction
                | done verdict => exact (hscanning.feed_done hg answer verdict hfed).trans h

theorem Parses.final {σ : Type} [TokenSource σ] (hg : g.Numbered) {source : σ}
    {outcome : Outcome σ} (h : Parses p source outcome) (hp : p.Healthy g) :
    outcome.parser.settled? = some outcome.result := by
  induction h with
  | @ended p next source rest verdict heq | @failed p next source rest e heq =>
      have hnext : (p.advance source).parser = next := by rw [heq]
      rw [← hnext]
      apply hp.advance_final hg source
      rw [heq]
      rfl
  | @more p next source rest outcome heq hrest ih =>
      have hnext := advance_healthy hg hp source
      rw [heq] at hnext
      exact ih hnext

include hg in
theorem Healthy.perform_final (hp : p.Healthy g) (operation : Operation)
    (h : (p.perform operation).1.final? = some result) :
    (p.perform operation).2.settled? = some result := by
  cases operation with
  | setConfig | setCosts | reset => contradiction
  | begin =>
      simp only [Parser.perform] at h ⊢
      cases hbegun : p.begin.1 with
      | ok => simp [hbegun, Answer.final?] at h
      | error e =>
          rw [hbegun] at h
          exact (settled_of_error (begin_error hbegun)).trans h
  | advance source => exact hp.advance_final hg source h
  | parse source => exact ((hp.parses hg source).final hg hp).trans h

theorem settled_perform (h : p.settled? = some result) {operation : Operation}
    (hkeep : operation ≠ .reset) : (p.perform operation).2.settled? = some result := by
  cases operation with
  | setConfig | setCosts => exact h
  | reset => contradiction
  | begin =>
      simp only [perform, begin_settled h]
      exact h
  | advance source =>
      simp only [perform, advance_settled h]
      exact h
  | parse source =>
      simp only [perform, parse_settled h]
      exact h

section clock

variable {asked : List TokenAnswer} {e : ParseError} {next last : Parser}

theorem BrokenStep.error_eq {σ : Type} [TokenSource σ] {source rest : σ}
    (h : p.BrokenStep source asked e next rest) : next.error = some e := by
  cases h <;> rfl

theorem BrokenParse.error_eq {σ : Type} [TokenSource σ] {source rest : σ}
    (h : BrokenParse p source asked e next rest) : next.error = some e := by
  induction h with
  | here hstep => exact hstep.error_eq
  | later heq hrest ih => exact ih

include hg in
theorem Performs.final (hp : p.Healthy g) {operation : Operation} {answer : Answer}
    (h : p.Performs operation answer asked next) (hfinal : answer.final? = some result) :
    next.settled? = some result := by
  cases h with
  | whole => exact hp.perform_final hg operation hfinal
  | begin hstart hfills steps elapsed => exact (settled_of_error rfl).trans hfinal
  | advance hstep => exact (settled_of_error hstep.error_eq).trans hfinal
  | parse hparse => exact (settled_of_error hparse.error_eq).trans hfinal

theorem Runs.settled {operations : List Operation} {answers : List Answer}
    (hrun : p.Runs operations answers asked last) (h : p.settled? = some result)
    (hkeep : .reset ∉ operations) : last.settled? = some result := by
  induction hrun with
  | nil => exact h
  | cons hperforms hrest ih =>
      obtain ⟨-, -, rfl⟩ := hperforms.whole_of_settled h
      have hnext := settled_perform h fun heq => hkeep (heq ▸ List.mem_cons_self)
      exact ih hnext fun hmem => hkeep (List.mem_cons_of_mem _ hmem)

include hg in
theorem Runs.final {operations : List Operation} {answers : List Answer}
    (hrun : p.Runs operations answers asked last) (hp : Reached g p)
    (hkeep : .reset ∉ operations) {answer : Answer} (hanswer : answer ∈ answers)
    (h : answer.final? = some result) : last.settled? = some result := by
  induction hrun with
  | nil => contradiction
  | cons hperforms hrest ih =>
      have hlater := fun hmem => hkeep (List.mem_cons_of_mem _ hmem)
      -- The first operation ends the run, and the others find it over, or a later one does.
      cases List.mem_cons.mp hanswer with
      | inl hfirst =>
          subst hfirst
          exact hrest.settled (hperforms.final hg (hp.healthy hg) h) hlater
      | inr hmem => exact ih (hperforms.reached hp) hlater hmem

end clock

theorem forest?_isSome_iff (p : Parser) : p.forest?.isSome = true ↔ p.state = .accepted := by
  rw [forest?]
  split
  · next h => simp [h]
  · next h => simp [h]

/-- Between two resets, or from a new parser on, the operations keep the account of the
tokens that they take, whatever the sources are and wherever the clock breaks off a
closure. A step asks for one token at most, and for none where it fills the first column.
There is a forest where the verdict is to accept, and then the last column is completed.
Once an answer was final, so that it is the verdict or an error, every operation answers
the same, asks nothing and changes nothing. -/
theorem account_kept_until_reset (d : GrammarDef) (g : Grammar) (hd : d.toGrammar = .ok g)
    (p : Parser) (hp : Reached g p) (operations : List Operation)
    (hkeep : .reset ∉ operations) (answers : List Answer) (asked : List TokenAnswer)
    (last : Parser) (hrun : p.reset.Runs operations answers asked last) :
    last.Accounted (tokensOf asked) ∧
      (last.verdict = some .accepted ↔ last.forest?.isSome = true) ∧
      (last.verdict = some .accepted → last.chart.newest?.any (·.completed) = true) ∧
      (∀ {σ : Type} [TokenSource σ] (source : σ) answer more next,
        last.Performs (.advance source) answer more next →
          more.length ≤ 1 ∧ (last.columnCount = 0 → more = [])) ∧
      ∀ answer ∈ answers, ∀ result, answer.final? = some result → last.Over result := by
  have hg := d.toGrammar_numbered g hd
  have hstart := hp.reset
  have haccount := hrun.accounted hg hstart p.accounted_reset hkeep
  rw [List.nil_append] at haccount
  have hhealthy := (hrun.reached hstart).healthy hg
  refine ⟨haccount, ?_, ?_, ?_, ?_⟩
  · rw [forest?_isSome_iff, haccount.accepted]
  · exact fun hverdict => hhealthy.complete (haccount.accepted.mpr hverdict)
  · intro σ _ source answer more next hperforms
    obtain ⟨hone, hnone⟩ := hperforms.asked_advance
    exact ⟨hone, fun hblank => hnone (haccount.blank.mp hblank)⟩
  · intro answer hanswer result hfinal
    exact haccount.lasts (hrun.final hg hstart hkeep hanswer hfinal)

def refusing : List Operation :=
  [.begin, .advance (TokenStream.ofList [⟨0, "a", .start⟩]),
    .parse (TokenStream.ofList [⟨0, "a", .start⟩, ⟨1, "b", .start⟩])]

def halfway : Parser :=
  let p := (withConfig pair ⟨.disabled, 3, 0, 0, 5, 0⟩).reset.begin.2
  { p.openColumn ⟨0, "a", .start⟩ (p.chart.scans pair ⟨0, "a", .start⟩) with state := .closing }

theorem scanned_of_disabled {token : Token} (hmode : p.config.recovery = .disabled)
    (hsome : (p.chart.scans p.grammar token).isEmpty = false) :
    p.readings token = (.ok (.ok (p.chart.scans p.grammar token)), p) := by
  simp [readings, hmode, hsome]

/-- The clock breaks off the second step of a run, and a whole run is asked for next. -/
theorem halfway_runs (source : TokenStream) :
    (withConfig pair ⟨.disabled, 3, 0, 0, 5, 0⟩).reset.Runs
      [.begin, .advance (TokenStream.ofList [⟨0, "a", .start⟩]), .parse source]
      [.begun (.ok ()), .advanced (.error (.timeoutExceeded 6 5)) (⟨[⟨0, "a", .start⟩], []⟩ :
        TokenStream), .parsed (.error (.timeoutExceeded 6 5)) source]
      [.ok (some ⟨0, "a", .start⟩)] (halfway.timedOut 0 6) := by
  let begun := (withConfig pair ⟨.disabled, 3, 0, 0, 5, 0⟩).reset.begin.2
  have hscans : (begun.chart.scans pair ⟨0, "a", .start⟩).isEmpty = false := by decide +kernel
  have hread : begun.readings ⟨0, "a", .start⟩ =
      (.ok (.ok (begun.chart.scans pair ⟨0, "a", .start⟩)), begun) := scanned_of_disabled rfl hscans
  have hfills : begun.FillsFor ⟨0, "a", .start⟩ halfway :=
    .intro rfl rfl (by decide) (begun.chart.scans pair ⟨0, "a", .start⟩) hread
  have hstep : begun.BrokenStep (TokenStream.ofList [⟨0, "a", .start⟩]) _ _ _
      (⟨[⟨0, "a", .start⟩], []⟩ : TokenStream) := .next rfl hfills 0 6
  exact .cons (.whole .begin) (.cons (.advance hstep) (.cons (.whole (.parse source)) .nil))

/-- Two tokens are taken, the second one is turned away, and the rejection lasts. So does
the error of a run whose second column is half closed. -/
theorem account_kept_until_reset_refusing :
    let p := withConfig pair .standard
    let run := p.reset.performAll refusing
    tokensOf (p.reset.askedAll refusing) = [⟨0, "a", .start⟩, ⟨0, "a", .start⟩] ∧
      run.2.Accounted [⟨0, "a", .start⟩, ⟨0, "a", .start⟩] ∧ run.2.columnCount = 2 ∧
      run.2.turnedAway = true ∧
      run.2.Over (.ok (.rejected (.unexpectedToken 1 ⟨0, "a", .start⟩ [2]))) ∧
      (halfway.timedOut 0 6).Accounted [⟨0, "a", .start⟩] ∧
      (halfway.timedOut 0 6).columnCount = 2 ∧ (halfway.timedOut 0 6).state = .closing ∧
      (halfway.timedOut 0 6).Over (.error (.timeoutExceeded 6 5)) := by
  intro p run
  have htaken : tokensOf (p.reset.askedAll refusing) =
      [⟨0, "a", .start⟩, ⟨0, "a", .start⟩] := by decide +kernel
  obtain ⟨haccount, -, -, -, hover⟩ :=
    account_kept_until_reset pairDef pair rfl p (.created _) refusing (by simp [refusing]) _ _ _
      (p.reset.runs_performAll refusing)
  obtain ⟨hlate, -, -, -, hlasts⟩ :=
    account_kept_until_reset pairDef pair rfl _ (.created _) _ (by simp) _ _ _
      (halfway_runs .empty)
  rw [htaken] at haccount
  refine ⟨htaken, haccount, by decide +kernel, by decide +kernel, ?_, hlate, by decide +kernel,
    rfl, ?_⟩
  · exact hover _ (.tail _ (.tail _ (.head _))) _ (by decide +kernel)
  · exact hlasts _ (.tail _ (.head _)) _ rfl

end Parser
end EarleyChart
