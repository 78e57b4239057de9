import EarleyChart.Proofs.Parser.Course
import EarleyChart.Proofs.Parser.Quotation

/-!
What holds of a parser between two operations. The chart is well formed, nothing is
queued unless an error has stopped the run, and an accepted run has a root. A run that
waits for a token goes on with the next one, or comes to its end.
-/

namespace EarleyChart
namespace Parser

structure Healthy (g : Grammar) (p : Parser) : Prop where
  grammar_eq : p.grammar = g
  valid : p.chart.Valid g
  idle : p.error = none → p.chart.worklist.toList = []
  nonempty : p.error = none → p.state = .scanning → 0 < p.chart.columns.size
  waits : p.error = none → p.state = .start ∨ p.state = .scanning ∨ p.state.isFinal = true
  complete : p.state = .accepted → p.chart.newest?.any (·.completed) = true

structure Scanning (g : Grammar) (p : Parser) : Prop where
  grammar_eq : p.grammar = g
  valid : p.chart.Valid g
  idle : p.chart.worklist.toList = []
  nonempty : 0 < p.chart.columns.size
  state_eq : p.state = .scanning
  error_eq : p.error = none

variable {g : Grammar} {p : Parser}

theorem Scanning.healthy (h : p.Scanning g) : p.Healthy g where
  grammar_eq := h.grammar_eq
  valid := h.valid
  idle _ := h.idle
  nonempty _ _ := h.nonempty
  waits _ := .inr (.inl h.state_eq)
  complete := by simp [h.state_eq]

/-- A run that an error stops stays well formed. -/
theorem healthy_fail (p : Parser) (hgrammar : p.grammar = g) (hc : p.chart.Valid g)
    (hstate : p.state ≠ .accepted) (e : ParseError) : (p.fail e).Healthy g where
  grammar_eq := hgrammar
  valid := hc
  idle := by simp [fail]
  nonempty := by simp [fail]
  waits := by simp [fail]
  complete h := absurd h hstate

variable (hg : g.Numbered)

include hg in
/-- Closing a column leads on, or stops with an error. -/
theorem closeColumn_healthy (hgrammar : p.grammar = g) (hc : p.chart.Closable g)
    (herror : p.error = none) :
    (p.closeColumn.1 = .ok () → p.closeColumn.2.Scanning g) ∧ p.closeColumn.2.Healthy g := by
  subst hgrammar
  obtain ⟨chart, tally, error, heq, hcloses⟩ := close_spec { p with state := .closing } hg hc
  rw [closeColumn, heq]
  cases error with
  | none =>
      obtain ⟨hall, hidle⟩ := hcloses.done rfl
      obtain ⟨hclosable, -⟩ := Chart.TakesAll.closable hg hall hc
      have hscanning : Scanning p.grammar
          { p with chart := chart, state := .scanning, tally := tally } :=
        ⟨rfl, hclosable.valid, hidle, hclosable.nonempty, rfl, herror⟩
      exact ⟨fun _ => hscanning, hscanning.healthy⟩
  | some e =>
      obtain ⟨-, -, before, id, hall, hpop, rfl⟩ := hcloses.limit e rfl
      obtain ⟨hclosable, -⟩ := Chart.TakesAll.closable hg hall hc
      have hhealthy := healthy_fail
        { p with chart := before.popped, state := .closing, tally := tally } rfl
        (Chart.popped_valid hclosable.valid id hpop) (by simp) e
      exact ⟨by simp, hhealthy⟩

include hg in
/-- The rules of the start symbol are entered into the first column. -/
theorem Healthy.seeded_progresses (h : p.Healthy g) (herror : p.error = none) (tally : Tally) :
    (p.seeded tally).chart.Valid g ∧
      (p.chart.openColumn g none).Progresses (p.seeded tally).chart := by
  obtain ⟨rfl, hc, hidle, -⟩ := h
  have hopened := Chart.closing_openColumn p.config.maxErrorValue none hc (hidle herror)
  exact Chart.predict_valid hg hopened.valid hopened.nonempty p.grammar.start

include hg in
/-- In a first column what is owed belongs to the items that are queued. -/
theorem Healthy.seeded_closing (h : p.Healthy g) (herror : p.error = none) (tally : Tally) :
    (p.seeded tally).chart.Closing g p.config.maxErrorValue
      fun id => id ∈ (p.seeded tally).chart.worklist.toList := by
  obtain ⟨rfl, hc, hidle, -⟩ := h
  have hopened := Chart.closing_openColumn p.config.maxErrorValue none hc (hidle herror)
  obtain ⟨hclosing, -⟩ := Chart.closing_predict hg hopened p.grammar.start
    ((p.grammar.isNonterminal_iff p.grammar.start).mp hg.start).2
  simp only [false_or] at hclosing
  exact hclosing

include hg in
/-- A first column is ready to be closed. -/
theorem Healthy.seeded_closable (h : p.Healthy g) (herror : p.error = none) (tally : Tally) :
    (p.seeded tally).chart.Closable g := by
  have hclosing := h.seeded_closing hg herror tally
  exact ⟨hclosing.valid, hclosing.nonempty⟩

include hg in
theorem seed_healthy (h : p.Healthy g) (hstate : p.state = .start) (herror : p.error = none) :
    (p.seed.1 = .ok () → p.seed.2.Scanning g) ∧ p.seed.2.Healthy g := by
  rcases seed_cases p with ⟨reason, hseed⟩ | ⟨tally, hseed⟩
  · rw [hseed]
    exact ⟨by simp, healthy_fail p h.grammar_eq h.valid (by simp [hstate]) _⟩
  · rw [hseed]
    exact closeColumn_healthy hg (p := p.seeded tally) h.grammar_eq
      (h.seeded_closable hg herror tally) herror

/-- Beginning fills the first column, or does nothing. -/
theorem begin_cases (p : Parser) :
    (∃ e, p.error = some e ∧ p.begin = (.error e, p)) ∨
      p.error = none ∧ p.state = .start ∧ p.begin = p.seed ∨
      p.error = none ∧ p.state ≠ .start ∧ p.begin = (.ok (), p) := by
  rw [begin]
  split
  · next e herror => exact .inl ⟨e, herror, rfl⟩
  · next herror hstart => exact .inr (.inl ⟨herror, hstart, rfl⟩)
  · next herror hstart => exact .inr (.inr ⟨herror, hstart, rfl⟩)

include hg in
theorem begin_healthy (h : p.Healthy g) :
    (p.begin.1 = .ok () → p.state = .start → p.begin.2.Scanning g) ∧ p.begin.2.Healthy g := by
  rcases begin_cases p with ⟨e, -, heq⟩ | ⟨herror, hstart, heq⟩ | ⟨-, hstart, heq⟩
  · rw [heq]
    exact ⟨by simp, h⟩
  · rw [heq]
    obtain ⟨hscanning, hhealthy⟩ := seed_healthy hg h hstart herror
    exact ⟨fun hok _ => hscanning hok, hhealthy⟩
  · rw [heq]
    exact ⟨fun _ hstate => absurd hstate hstart, h⟩

end Parser

def ParseError.turnsAway : ParseError → Bool
  | .inputTooLarge _ _ | .collaborator _ => true
  | _ => false

namespace Parser

variable {g : Grammar} {p : Parser} (hg : g.Numbered)

/-- What reading a token comes to: an error, a rejection, or the next column,
opened with readings of the token and closed as far as the limits allow. -/
inductive Feeds (p : Parser) (token : Token) : Except ParseError Progress × Parser → Prop
  | failed (e : ParseError) (requests : List CostRequest) (tally : Tally)
      (hcause : e.turnsAway = true) :
      Feeds p token (.error e, fail { p with requests := requests, tally := tally } e)
  | rejected (why : Rejection) (requests : List CostRequest) (tally : Tally)
      (htoken : why.token? = some token) :
      Feeds p token (.ok (.done (.rejected why)),
        (reject { p with requests := requests, tally := tally } why).2)
  | stopped (news : List Candidate) (requests : List CostRequest) (tally : Tally)
      (hread : ∀ new ∈ news, p.Read (quoted? { p with requests := requests }) token new)
      (e : ParseError) (next : Parser)
      (hclose : (p.opened token news requests tally).closeColumn = (.error e, next)) :
      Feeds p token (.error e, next)
  | closed (news : List Candidate) (requests : List CostRequest) (tally : Tally)
      (hread : ∀ new ∈ news, p.Read (quoted? { p with requests := requests }) token new)
      (next : Parser)
      (hclose : (p.opened token news requests tally).closeColumn = (.ok (), next)) :
      Feeds p token (.ok .more, next)

theorem feedToken_feeds (hg : p.grammar.Numbered) (hc : p.chart.Filed p.grammar) (token : Token) :
    p.Feeds token (p.feedToken token) := by
  rw [feedToken]
  split
  · exact .failed _ p.requests p.tally rfl
  obtain ⟨result, requests, tally, heq, hread⟩ := readings_read hg hc token
  have hfailed := p.readings_error token
  have hrejected := p.readings_rejection token
  rw [heq] at hfailed hrejected ⊢
  cases result with
  | error e =>
      obtain ⟨reason, rfl⟩ := hfailed e rfl
      exact .failed _ requests tally rfl
  | ok result =>
      cases result with
      | error why => exact .rejected why requests tally (hrejected why rfl)
      | ok news =>
          obtain ⟨tally', hopen⟩ := p.exists_opened token news requests tally
          simp only [hopen]
          cases hclose : (p.opened token news requests tally').closeColumn with
          | mk result next =>
              cases result with
              | error e => exact .stopped news requests tally' (hread news rfl) e next hclose
              | ok => exact .closed news requests tally' (hread news rfl) next hclose

include hg in
theorem Scanning.feeds (h : p.Scanning g) (token : Token) : p.Feeds token (p.feedToken token) := by
  have hc := h.valid
  exact feedToken_feeds (h.grammar_eq ▸ hg) (h.grammar_eq ▸ hc.filed) token

include hg in
/-- A column opened with readings of a token is ready to be closed. -/
theorem Scanning.closing (h : p.Scanning g) {token : Token} {news : List Candidate}
    {price : ItemId → Option CorrectionCost} (hread : ∀ new ∈ news, p.Read price token new)
    (requests : List CostRequest) (tally : Tally) :
    (p.opened token news requests tally).chart.Closing g p.config.maxErrorValue
      fun id => id ∈ (p.opened token news requests tally).chart.worklist.toList := by
  obtain ⟨rfl, hc, hidle, hne, -⟩ := h
  refine Chart.closing_opened hg p.config.maxErrorValue (some token) hc hidle ?_
  intro new hnew
  obtain ⟨id, item, hitem, hid, hreads⟩ := hread new hnew
  exact Chart.ReadsAs.fits hc hne hreads hitem hid

include hg in
/-- A column opened with readings of a token is ready to be closed. -/
theorem Scanning.opened_closable (h : p.Scanning g) {token : Token} {news : List Candidate}
    {price : ItemId → Option CorrectionCost} (hread : ∀ new ∈ news, p.Read price token new)
    (requests : List CostRequest) (tally : Tally) :
    (p.opened token news requests tally).chart.Closable g := by
  have hclosing := h.closing hg hread requests tally
  exact ⟨hclosing.valid, hclosing.nonempty⟩

/-- Readings of a token fit the column that is opened for it. -/
theorem Scanning.read_fits (h : p.Scanning g) {token : Token} {new : Candidate}
    {price : ItemId → Option CorrectionCost} (hread : p.Read price token new) :
    (p.chart.openColumn p.grammar (some token)).Fits p.grammar new := by
  obtain ⟨rfl, hc, -, hne, -⟩ := h
  obtain ⟨id, item, hitem, hid, hreads⟩ := hread
  exact Chart.ReadsAs.fits hc hne hreads hitem hid

include hg in
/-- The readings of a token are entered into the column that is opened for it. -/
theorem Scanning.opened_extends (h : p.Scanning g) {token : Token} {news : List Candidate}
    {price : ItemId → Option CorrectionCost} (hread : ∀ new ∈ news, p.Read price token new)
    (requests : List CostRequest) (tally : Tally) :
    (p.chart.openColumn g (some token)).Extends g (p.opened token news requests tally).chart := by
  obtain rfl := h.grammar_eq
  have hfits := fun new hnew => h.read_fits (hread new hnew)
  have hopened := Chart.closing_openColumn p.config.maxErrorValue (some token) h.valid h.idle
  exact (Chart.insertAll_extends p.grammar hg news _ hopened.valid hopened.nonempty hfits).2.1

include hg in
/-- Reading a token leads on, ends the run, or stops with an error. -/
theorem feedToken_healthy (h : p.Scanning g) (token : Token) :
    ((p.feedToken token).1 = .ok .more → (p.feedToken token).2.Scanning g) ∧
      (p.feedToken token).2.Healthy g := by
  have ⟨hgrammar, hc, hidle, _, hstate, herror⟩ := h
  have hfeeds := h.feeds hg token
  generalize p.feedToken token = outcome at hfeeds
  cases hfeeds with
  | failed e requests tally =>
      have hhealthy := healthy_fail { p with requests := requests, tally := tally } hgrammar hc
        (by simp [hstate]) e
      exact ⟨by simp, hhealthy⟩
  | rejected why requests tally =>
      have hhealthy : Healthy g
          (reject { p with requests := requests, tally := tally } why).2 :=
        ⟨hgrammar, hc, fun _ => hidle, by simp [reject], fun _ => .inr (.inr rfl), by simp [reject]⟩
      exact ⟨by simp, hhealthy⟩
  | stopped news requests tally hread e next hclose =>
      obtain ⟨-, hhealthy⟩ := closeColumn_healthy hg
        (p := p.opened token news requests tally) hgrammar
        (h.opened_closable hg hread requests tally) herror
      rw [hclose] at hhealthy
      exact ⟨by simp, hhealthy⟩
  | closed news requests tally hread next hclose =>
      obtain ⟨hscanning, hhealthy⟩ := closeColumn_healthy hg
        (p := p.opened token news requests tally) hgrammar
        (h.opened_closable hg hread requests tally) herror
      rw [hclose] at hscanning hhealthy
      exact ⟨fun _ => hscanning rfl, hhealthy⟩

theorem finish_healthy (h : p.Scanning g) : p.finish.2.Healthy g := by
  obtain ⟨rfl, hc, hidle, -⟩ := h
  rw [finish]
  split
  · next hcomplete =>
      exact ⟨rfl, hc, fun _ => hidle, by simp [accept], fun _ => .inr (.inr rfl),
        fun _ => hcomplete⟩
  · exact ⟨rfl, hc, fun _ => hidle, by simp [reject], fun _ => .inr (.inr rfl),
      by simp [reject]⟩

include hg in
theorem feed_healthy (h : p.Scanning g) (answer : TokenAnswer) :
    ((p.feed answer).1 = .ok .more → (p.feed answer).2.Scanning g) ∧
      (p.feed answer).2.Healthy g := by
  rcases answer with cause | ⟨⟩ | token
  · exact ⟨by simp [feed], healthy_fail p h.grammar_eq h.valid (by simp [h.state_eq]) _⟩
  · exact ⟨by simp [feed], finish_healthy h⟩
  · exact feedToken_healthy hg h token

/-- Where a run is not over and has begun, it may read a token. -/
theorem Healthy.scanning (h : p.Healthy g) (hsettled : p.settled? = none)
    (hstate : p.state ≠ .start) : p.Scanning g := by
  rw [settled?] at hsettled
  split at hsettled
  · contradiction
  next herror =>
  have hstate : p.state = .scanning := by
    rcases h.waits herror with hstart | hscanning | hfinal
    · exact absurd hstart hstate
    · exact hscanning
    · rw [if_pos hfinal] at hsettled
      split at hsettled <;> contradiction
  exact ⟨h.grammar_eq, h.valid, h.idle herror, h.nonempty herror hstate, hstate, herror⟩

theorem Healthy.waiting (h : p.Healthy g) (hstate : p.state = .scanning)
    (herror : p.error = none) : p.Scanning g := by
  apply h.scanning
  · rw [settled?, herror, hstate]
    rfl
  · rw [hstate]
    exact EngineState.noConfusion

include hg in
theorem advance_healthy (h : p.Healthy g) {σ : Type} [TokenSource σ] (source : σ) :
    (p.advance source).parser.Healthy g := by
  rw [advance]
  cases hsettled : p.settled? with
  | some result => exact h
  | none =>
      simp only
      split
      · exact (begin_healthy hg h).2
      next hstate =>
      have hscanning := h.scanning hsettled hstate
      exact (feed_healthy hg hscanning _).2

include hg in
/-- The last step of a run is one that no other follows. -/
theorem parseTokens_ends {σ : Type} [TokenSource σ] (source : σ) (h : p.Scanning g) :
    ∃ last : Parser, last.Scanning g ∧ ∃ answer, (last.feed answer).1 ≠ .ok .more ∧
      (p.parseTokens source).parser = (last.feed answer).2 := by
  induction hn : TokenSource.size source using Nat.strong_induction_on generalizing p source with
  | _ n ih =>
  rw [parseTokens]
  split
  · next token rest hnext =>
      obtain ⟨hscanning, -⟩ := feedToken_healthy hg h token
      split
      · next p' hfeed =>
          rw [hfeed] at hscanning
          exact ih _ (hn ▸ TokenSource.size_next hnext) rest (hscanning rfl) rfl
      · next verdict p' hfeed =>
          exact ⟨p, h, .ok (some token), by simp [feed, hfeed], by simp [feed, hfeed]⟩
      · next e p' hfeed =>
          exact ⟨p, h, .ok (some token), by simp [feed, hfeed], by simp [feed, hfeed]⟩
  · exact ⟨p, h, .ok none, by simp [feed], rfl⟩
  · next cause rest hnext => exact ⟨p, h, .error cause, by simp [feed], rfl⟩

include hg in
/-- Where a run is not over, it may read a token once it has begun. -/
theorem begin_scanning (h : p.Healthy g) (hsettled : p.settled? = none)
    (hok : p.begin.1 = .ok ()) : p.begin.2.Scanning g := by
  rcases begin_cases p with ⟨e, -, heq⟩ | ⟨-, hstart, heq⟩ | ⟨-, hstart, heq⟩
  · rw [heq] at hok
    contradiction
  · exact (begin_healthy hg h).1 hok hstart
  · rw [heq]
    exact h.scanning hsettled hstart

/-- How a whole run ends: it was over before, it does not begin, or it takes a last
step. -/
inductive Ends (g : Grammar) (p : Parser) : Parser → Prop
  | settled (result : Except ParseError Verdict) (hsettled : p.settled? = some result) : Ends g p p
  | unbegun (e : ParseError) (hsettled : p.settled? = none) (hbegin : p.begin.1 = .error e) :
      Ends g p p.begin.2
  | step (last : Parser) (hlast : last.Scanning g) (answer : TokenAnswer)
      (hdone : (last.feed answer).1 ≠ .ok .more) : Ends g p (last.feed answer).2

include hg in
theorem parse_ends (h : p.Healthy g) {σ : Type} [TokenSource σ] (source : σ) :
    p.Ends g (p.parse source).parser := by
  rw [parse]
  cases hsettled : p.settled? with
  | some result => exact .settled result hsettled
  | none =>
      have hscanning := begin_scanning hg h hsettled
      have hunbegun := Ends.unbegun (g := g) (p := p)
      generalize p.begin = begun at hscanning hunbegun
      rcases begun with ⟨e | ⟨⟩, begun⟩
      · exact hunbegun e hsettled rfl
      · obtain ⟨last, hlast, answer, hdone, heq⟩ := parseTokens_ends hg source (hscanning rfl)
        simp only [heq]
        exact .step last hlast answer hdone

include hg in
theorem parse_healthy (h : p.Healthy g) {σ : Type} [TokenSource σ] (source : σ) :
    (p.parse source).parser.Healthy g := by
  have hends := parse_ends hg h source
  generalize (p.parse source).parser = next at hends
  cases hends with
  | settled => exact h
  | unbegun => exact (begin_healthy hg h).2
  | step last hlast answer => exact (feed_healthy hg hlast answer).2

theorem Healthy.setConfig (h : p.Healthy g) (config : Config) : (p.setConfig config).Healthy g :=
  ⟨h.grammar_eq, h.valid, h.idle, h.nonempty, h.waits, h.complete⟩

theorem Healthy.setCosts (h : p.Healthy g) (costs : CostProvider) : (p.setCosts costs).Healthy g :=
  ⟨h.grammar_eq, h.valid, h.idle, h.nonempty, h.waits, h.complete⟩

theorem Healthy.reset (h : p.Healthy g) : p.reset.Healthy g :=
  ⟨h.grammar_eq, Chart.valid_empty _ rfl, fun _ => rfl, by simp [Parser.reset],
    fun _ => .inl rfl, by simp [Parser.reset]⟩

theorem healthy_withConfig (g : Grammar) (config : Config) : (withConfig g config).Healthy g :=
  ⟨rfl, Chart.valid_empty _ rfl, fun _ => rfl, by simp [withConfig], fun _ => .inl rfl,
    by simp [withConfig]⟩

end Parser
end EarleyChart
