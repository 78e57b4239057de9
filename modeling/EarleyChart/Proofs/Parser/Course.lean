import EarleyChart.Proofs.Parser.Readings
import EarleyChart.Token.Stream

/-!
The course of a run over a list of tokens. Each token brings the chart from one
reading to the next, ends the run with a rejection, or runs into a limit that is
set; there is no other outcome.
-/

namespace EarleyChart

def Config.Limits (config : Config) : ParseError → Prop
  | .itemLimitExceeded _ limit => limit = config.maxItems ∧ 0 < config.maxItems
  | .inputTooLarge _ limit => limit = config.maxColumns ∧ 0 < config.maxColumns
  | _ => False

/-- Where no limit is set, none stops a run. -/
theorem Config.not_limits {config : Config} (hitems : config.maxItems = 0)
    (hcolumns : config.maxColumns = 0) (e : ParseError) : ¬ config.Limits e := by
  cases e <;> simp [Limits, hitems, hcolumns]

namespace Parser

def Stopped (config : Config) (result : Except ParseError Verdict) : Prop :=
  ∃ e, result = .error e ∧ config.Limits e

/-- A column is closed with nothing left in the queue, or the limit on items
stops the run. -/
theorem closeColumn_spec (p : Parser) (hg : p.grammar.Numbered)
    (hc : p.chart.Closable p.grammar) :
    (∃ chart tally, p.closeColumn =
        (.ok (), { p with chart := chart, tally := tally, state := .scanning }) ∧
      Chart.TakesAll p.grammar p.config.maxErrorValue p.chart chart ∧
      chart.worklist.toList = []) ∨
    ∃ e p', p.closeColumn = (.error e, p') ∧ p.config.Limits e := by
  obtain ⟨chart, tally, error, heq, hcloses⟩ := close_spec { p with state := .closing } hg hc
  rw [closeColumn, heq]
  cases error with
  | none => exact .inl ⟨chart, tally, rfl, hcloses.done rfl⟩
  | some e =>
      obtain ⟨hmax, ⟨n, rfl⟩, -⟩ := hcloses.limit e rfl
      exact .inr ⟨_, _, rfl, rfl, hmax⟩

/-- A column that is opened with candidates that may enter it is closed, or the limit on
items stops the run. -/
theorem openColumn_closes (p : Parser) (hg : p.grammar.Numbered) (hc : p.chart.Valid p.grammar)
    (hidle : p.chart.worklist.toList = []) (token : Token) (news : List Candidate)
    (hfits : ∀ new ∈ news, (p.chart.openColumn p.grammar (some token)).Fits p.grammar new)
    (requests : List CostRequest) (tally : Tally) :
    (∃ chart tally',
      (openColumn { p with requests := requests, tally := tally } token news).closeColumn =
        (.ok (), { p with
          chart := chart, requests := requests, tally := tally', state := .scanning }) ∧
      Chart.TakesAll p.grammar p.config.maxErrorValue
        ((p.chart.openColumn p.grammar (some token)).insertAll p.grammar news) chart ∧
      chart.worklist.toList = []) ∨
    ∃ e p', (openColumn { p with requests := requests, tally := tally } token news).closeColumn =
      (.error e, p') ∧ p.config.Limits e := by
  obtain ⟨tally', hopen⟩ := p.exists_opened token news requests tally
  have hclosing := Chart.closing_opened hg p.config.maxErrorValue (some token) hc hidle hfits
  rw [hopen]
  rcases closeColumn_spec (p.opened token news requests tally') hg
    ⟨hclosing.valid, hclosing.nonempty⟩ with
    ⟨chart, tally'', heq, htakes, hidle⟩ | ⟨e, p', heq, hlimit⟩
  · exact .inl ⟨chart, tally'', heq, htakes, hidle⟩
  · exact .inr ⟨e, p', heq, hlimit⟩

/-- A run that is over, with the chart of the tokens that were read: all tokens,
or all up to one that has no reading. -/
structure Finished (g : Grammar) (config : Config) (quote : Quote) (tokens : List Token)
    (verdict : Verdict) (p : Parser) : Prop where
  grammar_eq : p.grammar = g
  chart : ∃ n, p.chart.Reading g quote config.maxErrorValue tokens n ∧
    (∀ token, tokens[n]? = some token →
      p.chart.Readings g quote config.maxErrorValue token []) ∧
    (verdict = .accepted ↔ n = tokens.length ∧ p.chart.newest?.any (·.completed) = true)
  state_iff : p.state = .accepted ↔ verdict = .accepted

section read

variable {g : Grammar} (hg : g.Numbered) {config : Config} {costs : CostProvider}
  {quote : Quote} (hquote : Quotes g config costs quote) {tokens : List Token} {n : Nat}
  {p : Parser}

include hg in
/-- A column opened with the readings of a token is closed, or a limit is hit. -/
theorem openColumn_spec (h : p.Reads g config costs quote tokens n) {token : Token}
    (htoken : tokens[n]? = some token) (news : List Candidate)
    (hnews : p.chart.Readings g quote config.maxErrorValue token news)
    (requests : List CostRequest) (tally : Tally) :
    (∃ p', (openColumn { p with requests := requests, tally := tally } token news).closeColumn =
        (.ok (), p') ∧ p'.Reads g config costs quote tokens (n + 1)) ∨
    ∃ e p', (openColumn { p with requests := requests, tally := tally } token news).closeColumn =
      (.error e, p') ∧ config.Limits e := by
  obtain ⟨rfl, rfl, rfl, -, herror, hchart⟩ := h
  have hfits := hnews.fits hchart.valid hchart.gathers.nonempty
  rcases openColumn_closes p hg hchart.valid hchart.idle token news hfits requests tally with
    ⟨chart, tally', heq, htakes, hidle⟩ | hlimit
  · exact .inl ⟨_, heq, rfl, rfl, rfl, rfl, herror, hchart.step hg htoken hnews htakes hidle⟩
  · exact .inr hlimit

include hg hquote in
/-- What reading one token comes to. -/
theorem feedToken_spec (h : p.Reads g config costs quote tokens n) {token : Token}
    (htoken : tokens[n]? = some token) :
    (∃ p', p.feedToken token = (.ok .more, p') ∧ p'.Reads g config costs quote tokens (n + 1)) ∨
    (∃ verdict p', p.feedToken token = (.ok (.done verdict), p') ∧
      p'.Finished g config quote tokens verdict) ∨
    ∃ e p', p.feedToken token = (.error e, p') ∧ config.Limits e := by
  obtain ⟨news, why, requests, tally, heq, hnews⟩ := readings_spec h hg hquote token
  have hlt := (List.getElem?_eq_some_iff.mp htoken).1
  rw [feedToken]
  split
  · next hmax =>
      rw [h.config_eq] at hmax
      exact .inr (.inr ⟨_, _, rfl, by rw [h.config_eq], hmax.1⟩)
  rw [heq]
  by_cases hempty : news.isEmpty = true
  · rw [if_pos hempty]
    refine .inr (.inl ⟨.rejected why, _, rfl, h.grammar_eq, ⟨n, h.chart, ?_, ?_⟩, ?_⟩)
    · intro found hfound
      obtain rfl := Option.some.inj (htoken.symm.trans hfound)
      rwa [List.isEmpty_iff.mp hempty] at hnews
    · simp only [reduceCtorEq, false_iff]
      omega
    · simp
  · rw [if_neg hempty]
    rcases openColumn_spec hg h htoken news hnews requests tally with
      ⟨p', hclose, hreads⟩ | ⟨e, p', hclose, hlimit⟩
    · exact .inl ⟨p', by simp only [hclose, Except.map], hreads⟩
    · exact .inr (.inr ⟨e, p', by simp only [hclose, Except.map], hlimit⟩)

/-- At its end the input is accepted or rejected. -/
theorem finish_spec (h : p.Reads g config costs quote tokens n) (hn : tokens.length ≤ n) :
    p.finish.2.Finished g config quote tokens p.finish.1 := by
  obtain rfl := Nat.le_antisymm h.chart.length hn
  rw [finish]
  split
  · next hcompleted =>
      exact ⟨h.grammar_eq, ⟨_, h.chart, by simp, by simpa [accept] using hcompleted⟩,
        by simp [accept]⟩
  · next hcompleted =>
      exact ⟨h.grammar_eq, ⟨_, h.chart, by simp, by simpa [reject] using hcompleted⟩,
        by simp [reject]⟩

end read

def readAll (p : Parser) : List Token → Except ParseError Verdict × Parser
  | [] => (.ok p.finish.1, p.finish.2)
  | token :: rest =>
      match p.feedToken token with
      | (.ok .more, p) => readAll p rest
      | (.ok (.done verdict), p) => (.ok verdict, p)
      | (.error e, p) => (.error e, p)

theorem parseTokens_eq (all rest : List Token) (p : Parser) :
    ((p.parseTokens (⟨all, rest⟩ : TokenStream)).result,
      (p.parseTokens (⟨all, rest⟩ : TokenStream)).parser) = p.readAll rest := by
  induction rest generalizing p with
  | nil =>
      rw [parseTokens]
      rfl
  | cons token rest ih =>
      rw [parseTokens, readAll]
      split
      · next found after hnext =>
          obtain ⟨⟨⟩, ⟨⟩⟩ := Prod.mk.inj hnext
          rcases p.feedToken token with ⟨e | ⟨⟩ | ⟨verdict⟩, p'⟩
          · rfl
          · exact ih p'
          · rfl
      · next after hnext => exact absurd hnext (by simp [TokenSource.next, TokenStream.next])
      · next after hnext => exact absurd hnext (by simp [TokenSource.next, TokenStream.next])

/-- What holds of a parser after a number of tokens, and what holds at the end of its run:
each token leads on, ends the run, or runs into a limit. -/
structure Courses (config : Config) (tokens : List Token) (stage : Nat → Parser → Prop)
    (final : Verdict → Parser → Prop) : Prop where
  feed : ∀ {n : Nat} {p : Parser} {token : Token}, stage n p → tokens[n]? = some token →
    (∃ p', p.feedToken token = (.ok .more, p') ∧ stage (n + 1) p') ∨
    (∃ verdict p', p.feedToken token = (.ok (.done verdict), p') ∧ final verdict p') ∨
    ∃ e p', p.feedToken token = (.error e, p') ∧ config.Limits e
  finish : ∀ {n : Nat} {p : Parser}, stage n p → tokens.length ≤ n → final p.finish.1 p.finish.2

/-- A run over the rest of the input ends with a verdict or at a limit. -/
theorem Courses.readAll {config : Config} {tokens : List Token} {stage : Nat → Parser → Prop}
    {final : Verdict → Parser → Prop} (h : Courses config tokens stage final) (rest : List Token)
    {n : Nat} {p : Parser} (hstage : stage n p) (hrest : tokens.drop n = rest) :
    (∃ verdict p', p.readAll rest = (.ok verdict, p') ∧ final verdict p') ∨
    ∃ e p', p.readAll rest = (.error e, p') ∧ config.Limits e := by
  induction rest generalizing p n with
  | nil => exact .inl ⟨_, _, rfl, h.finish hstage (List.drop_eq_nil_iff.mp hrest)⟩
  | cons token rest ih =>
      have htoken : tokens[n]? = some token := by
        rw [← List.head?_drop, hrest, List.head?_cons]
      have hrest' : tokens.drop (n + 1) = rest := by
        rw [← List.tail_drop, hrest, List.tail_cons]
      rw [Parser.readAll]
      rcases h.feed hstage htoken with ⟨p', heq, hnext⟩ | ⟨verdict, p', heq, hfinal⟩ |
        ⟨e, p', heq, hlimit⟩
      · rw [heq]
        exact ih hnext hrest'
      · rw [heq]
        exact .inl ⟨verdict, p', rfl, hfinal⟩
      · rw [heq]
        exact .inr ⟨e, p', rfl, hlimit⟩

section parse

variable {g : Grammar} (hg : g.Numbered) (config : Config) (costs : CostProvider)
  {quote : Quote} (tokens : List Token)

def fresh (g : Grammar) (config : Config) (costs : CostProvider) : Parser :=
  (withConfig g config).setCosts costs

theorem parse_fresh (source : TokenStream) : (fresh g config costs).parse source =
    match (fresh g config costs).seed with
    | (.error e, p) => ⟨.error e, p, source⟩
    | (.ok (), p) => p.parseTokens source := rfl

include hg in
/-- The first column is filled and closed, or a limit is hit. -/
theorem seed_closes (hrules : g.rulesFor g.start ≠ []) :
    (∃ chart tally, (fresh g config costs).seed =
        (.ok (), { fresh g config costs with
          chart := chart, tally := tally, state := .scanning }) ∧
      Chart.TakesAll g config.maxErrorValue
        (((Chart.empty (.forTokens config.expectedTokens)).openColumn g none).predict g g.start)
        chart ∧ chart.worklist.toList = []) ∨
    ∃ e p, (fresh g config costs).seed = (.error e, p) ∧ config.Limits e := by
  let opened := (Chart.empty (.forTokens config.expectedTokens)).openColumn g none
  have hopened : opened.Closing g config.maxErrorValue fun _ => False :=
    Chart.closing_openColumn _ none (Chart.valid_empty _ rfl) rfl
  obtain ⟨hvalid, hprogress⟩ := Chart.predict_valid hg hopened.valid hopened.nonempty g.start
  have hnonempty : 0 < (opened.predict g g.start).columns.size := by
    rw [hprogress.size]
    exact hopened.nonempty
  obtain ⟨tally, hseed⟩ := seed_of_rules (p := fresh g config costs) hrules
  rw [hseed]
  rcases closeColumn_spec ((fresh g config costs).seeded tally) hg ⟨hvalid, hnonempty⟩ with
    ⟨chart, tally', heq, htakes, hidle⟩ | ⟨e, p, heq, hlimit⟩
  · exact .inl ⟨chart, tally', heq, htakes, hidle⟩
  · exact .inr ⟨e, p, heq, hlimit⟩

include hg in
theorem seed_spec (quote : Quote) (hrules : g.rulesFor g.start ≠ []) :
    (∃ p, (fresh g config costs).seed = (.ok (), p) ∧ p.Reads g config costs quote tokens 0) ∨
    ∃ e p, (fresh g config costs).seed = (.error e, p) ∧ config.Limits e := by
  rcases seed_closes hg config costs hrules with ⟨chart, tally, heq, htakes, hidle⟩ | hlimit
  · exact .inl ⟨_, heq, rfl, rfl, rfl, rfl, rfl, Chart.Reading.first hg _ rfl htakes hidle⟩
  · exact .inr hlimit

variable {config costs tokens} in
/-- A whole run ends with a verdict or at a limit. -/
theorem Courses.parse {stage : Nat → Parser → Prop} {final : Verdict → Parser → Prop}
    (h : Courses config tokens stage final)
    (hseed : (∃ p, (fresh g config costs).seed = (.ok (), p) ∧ stage 0 p) ∨
      ∃ e p, (fresh g config costs).seed = (.error e, p) ∧ config.Limits e) :
    let outcome := (fresh g config costs).parse (TokenStream.ofList tokens)
    (∃ verdict, outcome.result = .ok verdict ∧ final verdict outcome.parser) ∨
    Stopped config outcome.result := by
  intro outcome
  have hparse := parse_fresh (g := g) config costs (TokenStream.ofList tokens)
  rcases hseed with ⟨p, hseed, hstage⟩ | ⟨e, p, hseed, hlimit⟩
  · rw [hseed] at hparse
    have hread := parseTokens_eq tokens tokens p
    rw [show outcome = p.parseTokens (TokenStream.ofList tokens) from hparse]
    rcases h.readAll tokens hstage List.drop_zero with
      ⟨verdict, p', heq, hfinal⟩ | ⟨e, p', heq, hlimit⟩
    · rw [heq, Prod.mk.injEq] at hread
      exact .inl ⟨verdict, hread.1, hread.2 ▸ hfinal⟩
    · rw [heq, Prod.mk.injEq] at hread
      exact .inr ⟨e, hread.1, hlimit⟩
  · rw [hseed] at hparse
    exact .inr ⟨e, by rw [show outcome = _ from hparse], hlimit⟩

include hg in
/-- A run ends with a verdict on the whole input, or at a limit that is set. -/
theorem parse_spec (hquote : Quotes g config costs quote) (hrules : g.rulesFor g.start ≠ []) :
    let outcome := (fresh g config costs).parse (TokenStream.ofList tokens)
    (∃ verdict, outcome.result = .ok verdict ∧
      outcome.parser.Finished g config quote tokens verdict) ∨
    Stopped config outcome.result := by
  have hcourses : Courses config tokens
      (fun n p => p.Reads g config costs quote tokens n)
      (fun verdict p => p.Finished g config quote tokens verdict) :=
    ⟨fun h htoken => feedToken_spec hg hquote h htoken, finish_spec⟩
  exact hcourses.parse (seed_spec hg config costs tokens quote hrules)

/-- Without rules for the start symbol there is no run. -/
theorem parse_without_rules (hrules : g.rulesFor g.start = []) : ∃ reason,
    ((fresh g config costs).parse (TokenStream.ofList tokens)).result =
      .error (.invalidGrammar reason) := by
  refine ⟨s!"start symbol '{g.symbolName g.start}' has no productions", ?_⟩
  have hseed : (fresh g config costs).seed = (.error (.invalidGrammar
      s!"start symbol '{g.symbolName g.start}' has no productions"),
      (fresh g config costs).fail (.invalidGrammar
        s!"start symbol '{g.symbolName g.start}' has no productions")) := by
    rw [seed]
    exact if_pos (List.isEmpty_iff.mpr hrules)
  rw [parse_fresh, hseed]

end parse

end Parser
end EarleyChart
