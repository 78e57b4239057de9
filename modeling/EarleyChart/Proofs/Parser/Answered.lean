import EarleyChart.Proofs.Parser.Course
import EarleyChart.Proofs.Parser.Quotation

/-!
A run in any mode of repair, with a cost provider that answers every question with one
price for each waiting item. Whatever the prices are, each token is scanned wherever it
can be scanned, and the run ends with a verdict or at a limit.
-/

namespace EarleyChart

/-- A cost provider that has one price for each waiting item. -/
def CostProvider.Answers (costs : CostProvider) (g : Grammar) : Prop :=
  ∀ waiting found, (costs g waiting found).length = waiting.length

namespace Parser

section readings

variable {p : Parser} (token : Token)

/-- What a token is read as includes all scans, in every mode. -/
theorem mem_readings_of_scans (news : List Candidate) (h : (p.readings token).1 = .ok (.ok news)) :
    ∀ new ∈ p.chart.scans p.grammar token, new ∈ news := by
  obtain ⟨corrections, -, rfl, -⟩ := readings_ok (Prod.ext h rfl)
  exact fun new hnew => List.mem_append_left corrections hnew

/-- A token is rejected only where it cannot be scanned. -/
theorem scans_eq_nil_of_readings (why : Rejection) (h : (p.readings token).1 = .ok (.error why)) :
    p.chart.scans p.grammar token = [] := by
  have hinterprets := p.readings_interprets token
  generalize p.readings token = outcome at hinterprets h
  cases hinterprets with
  | refused _ hnone | exhausted _ hnone | overBudget _ hnone => exact hnone
  | scanned | scannedAsking | corrected => simp at h
  | unpriced => contradiction

/-- No question is left without an answer. -/
theorem readings_answered (hcosts : p.costs.Answers p.grammar) (e : ParseError) :
    (p.readings token).1 ≠ .error e := by
  have hinterprets := p.readings_interprets token
  generalize p.readings token = outcome at hinterprets
  cases hinterprets with
  | unpriced hmode hwaiting hprices => exact absurd (hcosts _ token) hprices
  | refused | scanned | scannedAsking | exhausted | overBudget | corrected => simp

end readings

/-- A run over the first tokens of an input that has scanned them wherever it could. -/
structure Gathered (g : Grammar) (config : Config) (costs : CostProvider) (tokens : List Token)
    (n : Nat) (p : Parser) : Prop where
  grammar_eq : p.grammar = g
  config_eq : p.config = config
  costs_eq : p.costs = costs
  chart : p.chart.Gathers g config.maxErrorValue (ReadsAs g .none) tokens n

/-- A run that is over, with all tokens read, or all up to one that cannot be scanned. -/
structure GatheredAll (g : Grammar) (config : Config) (tokens : List Token) (verdict : Verdict)
    (p : Parser) : Prop where
  grammar_eq : p.grammar = g
  chart : ∃ n, p.chart.Gathers g config.maxErrorValue (ReadsAs g .none) tokens n ∧
    (∀ id item token new, p.chart.item? id = some item → id.column = n →
      tokens[n]? = some token → ¬ ReadsAs g .none token id item new) ∧
    (verdict = .accepted ↔ n = tokens.length ∧ p.chart.newest?.any (·.completed) = true)
  state_iff : p.state = .accepted ↔ verdict = .accepted

section read

variable {g : Grammar} (hg : g.Numbered) {config : Config} {costs : CostProvider}
  (hcosts : costs.Answers g) {tokens : List Token} {n : Nat} {p : Parser}

/-- Where an item waits for the terminal of a token, the token is scanned. -/
theorem mem_scans_of_readsAs (hg : p.grammar.Numbered) (hc : p.chart.Filed p.grammar)
    {token : Token} {id : ItemId}
    {item : Item} {new : Candidate} (hitem : p.chart.item? id = some item)
    (hid : id.column = p.chart.current) (hreads : ReadsAs p.grammar .none token id item new) :
    new ∈ p.chart.scans p.grammar token := by
  rw [Chart.mem_scans p.grammar p.chart hc hg]
  cases hreads with
  | scan hnext hkind => exact ⟨id, item, _, hitem, hid, hkind, hnext, rfl⟩
  | substitute _ _ _ hquote | delete _ _ hquote => contradiction

include hg hcosts in
theorem feedToken_gathered (h : p.Gathered g config costs tokens n) {token : Token}
    (htoken : tokens[n]? = some token) :
    (∃ p', p.feedToken token = (.ok .more, p') ∧ p'.Gathered g config costs tokens (n + 1)) ∨
    (∃ verdict p', p.feedToken token = (.ok (.done verdict), p') ∧
      p'.GatheredAll g config tokens verdict) ∨
    ∃ e p', p.feedToken token = (.error e, p') ∧ config.Limits e := by
  obtain ⟨rfl, rfl, rfl, hchart⟩ := h
  obtain ⟨result, requests, tally, heq, hread⟩ := readings_read hg hchart.valid.filed token
  have hanswered := readings_answered token hcosts
  have hmem := mem_readings_of_scans (p := p) token
  have hnil := scans_eq_nil_of_readings (p := p) token
  rw [heq] at hanswered hmem hnil
  have hscans : ∀ id item new, p.chart.item? id = some item → id.column = n →
      ReadsAs p.grammar .none token id item new → new ∈ p.chart.scans p.grammar token :=
    fun id item new hitem hid hreads =>
      mem_scans_of_readsAs hg hchart.valid.filed hitem (hid.trans hchart.current.symm) hreads
  rw [feedToken]
  split
  · next hmax => exact .inr (.inr ⟨_, _, rfl, rfl, hmax.1⟩)
  rw [heq]
  cases result with
  | error e => exact absurd rfl (hanswered e)
  | ok result =>
      cases result with
      | error why =>
          refine .inr (.inl ⟨.rejected why, _, rfl, rfl, ⟨n, hchart, ?_, ?_⟩, ?_⟩)
          · intro id item found new hitem hid hfound hreads
            obtain rfl := Option.some.inj (htoken.symm.trans hfound)
            have hnew := hscans id item new hitem hid hreads
            rw [hnil why rfl] at hnew
            contradiction
          · have hlt := (List.getElem?_eq_some_iff.mp htoken).1
            simp only [reduceCtorEq, false_iff]
            omega
          · simp
      | ok news =>
          have hfits : ∀ new ∈ news,
              (p.chart.openColumn p.grammar (some token)).Fits p.grammar new := by
            intro new hnew
            obtain ⟨id, item, hitem, hid, hreads⟩ := hread news rfl new hnew
            exact Chart.ReadsAs.fits hchart.valid hchart.nonempty hreads hitem hid
          rcases openColumn_closes p hg hchart.valid hchart.idle token news hfits requests tally
            with ⟨chart, tally', hclose, htakes, hidle⟩ | ⟨e, p', hclose, hlimit⟩
          · refine .inl ⟨{ p with
              chart := chart, requests := requests, tally := tally', state := .scanning },
              by simp only [hclose, Except.map], rfl, rfl, rfl, ?_⟩
            exact hchart.step hg htoken hfits (fun id item new hitem hid hreads =>
              hmem news rfl new (hscans id item new hitem hid hreads)) htakes hidle
          · exact .inr (.inr ⟨e, p', by simp only [hclose, Except.map], hlimit⟩)

theorem finish_gathered (h : p.Gathered g config costs tokens n) (hn : tokens.length ≤ n) :
    p.finish.2.GatheredAll g config tokens p.finish.1 := by
  obtain rfl := Nat.le_antisymm h.chart.length hn
  have hlast : ∀ id item token new, p.chart.item? id = some item → id.column = tokens.length →
      tokens[tokens.length]? = some token → ¬ ReadsAs g .none token id item new := by simp
  rw [finish]
  split
  · next hcompleted =>
      exact ⟨h.grammar_eq, ⟨_, h.chart, hlast, by simpa [accept] using hcompleted⟩,
        by simp [accept]⟩
  · next hcompleted =>
      exact ⟨h.grammar_eq, ⟨_, h.chart, hlast, by simpa [reject] using hcompleted⟩,
        by simp [reject]⟩

variable (config costs tokens)

include hg hcosts in
/-- A run with answers to its questions ends with a verdict, or at a limit that is set. -/
theorem parse_gathered (hrules : g.rulesFor g.start ≠ []) :
    let outcome := (fresh g config costs).parse (TokenStream.ofList tokens)
    (∃ verdict, outcome.result = .ok verdict ∧
      outcome.parser.GatheredAll g config tokens verdict) ∨
    Stopped config outcome.result := by
  have hcourses : Courses config tokens (fun n p => p.Gathered g config costs tokens n)
      (fun verdict p => p.GatheredAll g config tokens verdict) :=
    ⟨fun h htoken => feedToken_gathered hg hcosts h htoken, finish_gathered⟩
  apply hcourses.parse
  rcases seed_closes hg config costs hrules with ⟨chart, tally, heq, htakes, hidle⟩ | hlimit
  · exact .inl ⟨_, heq, rfl, rfl, rfl, Chart.Gathers.first hg _ rfl htakes hidle⟩
  · exact .inr hlimit

end read

end Parser
end EarleyChart
