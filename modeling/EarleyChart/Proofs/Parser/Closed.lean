import EarleyChart.Proofs.Parser.History
import EarleyChart.Proofs.Parser.Pricing
import EarleyChart.Proofs.Parser.Repair

/-!
The newest column after each step of a run. Whenever a step leads on, it has
closed the newest column at the settings and with the answer of the cost provider
that it began with. Settings and costs are replaced between runs only.
-/

namespace EarleyChart
namespace Chart

variable {g : Grammar} (hg : g.Numbered) {c c' : Chart} {price : ItemId → Option CorrectionCost}
  {ceiling : Nat}

include hg in
/-- The closure of a column whose costs are in order. -/
theorem TakesAll.closed (h : TakesAll g ceiling c c')
    (hclosing : c.Closing g ceiling fun id => id ∈ c.worklist.toList)
    (hpriced : c.NewestPriced price ceiling) (hidle : c'.worklist.toList = []) :
    c'.Closed g price ceiling := by
  obtain ⟨hclosable, hprogress⟩ := h.closable hg ⟨hclosing.valid, hclosing.nonempty⟩
  apply Saturated.closed hclosable.valid
  · exact newestPriced_preserved.takesAll hg h ⟨hclosing.valid, hclosing.nonempty⟩ hpriced
  · rw [hprogress.current]
    exact h.saturated hg hclosing hidle

theorem newestPriced_openColumn (token : Option Token) :
    (c.openColumn g token).NewestPriced price ceiling := by
  intro id item hitem hid
  exact absurd hid (column_ne_openColumn token id item hitem)

/-- A reading of a token costs what its step does. -/
theorem ReadsAs.backed (hc : c.Filed g) {token : Token} {id : ItemId} {item : Item}
    {new : Candidate} (h : ReadsAs g (fun _ _ _ => price id) token id item new)
    (hitem : c.item? id = some item) :
    Candidate.Backed price ceiling (c.openColumn g (some token)) new := by
  have hopened : (c.openColumn g (some token)).item? id = some item := by
    rw [item?_openColumn, hitem]
  cases h with
  | scan hnext hkind =>
      apply Candidate.Backed.of_step rfl _ (by simp)
      rw [item_id g c hc id item hitem]
      simp [stepCost?, hopened, scanOver]
  | substitute hnext hterminal hkind hquote =>
      apply Candidate.Backed.of_step rfl _ (by simp)
      simp [stepCost?, hopened, hquote, WaitingItem.substituting]
  | delete hnext hterminal hquote =>
      apply Candidate.Backed.of_step rfl _ (by simp)
      simp [stepCost?, hopened, hquote, WaitingItem.deleting]

end Chart

namespace Parser

/-- The newest column is closed at the settings of the parser and at the prices
that were quoted last. -/
def NewestClosed (p : Parser) : Prop :=
  p.chart.Closed p.grammar p.quoted? p.config.maxErrorValue

variable {g : Grammar} (hg : g.Numbered) {p : Parser}

theorem closeColumn_closed (hg : p.grammar.Numbered)
    (hclosing : p.chart.Closing p.grammar p.config.maxErrorValue
      fun id => id ∈ p.chart.worklist.toList)
    (hpriced : p.chart.NewestPriced p.quoted? p.config.maxErrorValue)
    (hok : p.closeColumn.1 = .ok ()) : p.closeColumn.2.NewestClosed := by
  rcases closeColumn_spec p hg ⟨hclosing.valid, hclosing.nonempty⟩ with
    ⟨chart, tally, heq, hall, hidle⟩ | ⟨e, p', heq, -⟩
  · rw [heq]
    exact hall.closed hg hclosing hpriced hidle
  · rw [heq] at hok
    contradiction

include hg in
theorem seed_closed (h : p.Healthy g) (herror : p.error = none) (hok : p.seed.1 = .ok ()) :
    p.seed.2.NewestClosed := by
  rcases seed_cases p with ⟨reason, hseed⟩ | ⟨tally, hseed⟩
  · rw [hseed] at hok
    contradiction
  · rw [hseed] at hok ⊢
    have hclosing := h.seeded_closing hg herror tally
    obtain ⟨rfl, hc, hidle, -⟩ := h
    have hopened := Chart.closing_openColumn p.config.maxErrorValue none hc (hidle herror)
    apply closeColumn_closed (p := p.seeded tally) hg hclosing _ hok
    apply Chart.newestPriced_preserved.predicted hg hopened.valid hopened.nonempty
    · exact Chart.newestPriced_openColumn none
    · exact fun _ _ => ⟨fun _ => rfl, by simp, by simp, by simp⟩

include hg in
theorem feedToken_closed (h : p.Scanning g) (token : Token)
    (hmore : (p.feedToken token).1 = .ok .more) : (p.feedToken token).2.NewestClosed := by
  have hfeeds := h.feeds hg token
  generalize p.feedToken token = outcome at hfeeds hmore
  cases hfeeds with
  | failed | rejected | stopped => simp at hmore
  | closed news requests tally hread next hclose =>
      have hclosing := h.closing hg hread requests tally
      obtain ⟨rfl, hc, hidle, hne, -⟩ := h
      have hopened := Chart.closing_openColumn p.config.maxErrorValue (some token) hc hidle
      have hpriced : (p.opened token news requests tally).chart.NewestPriced
          (quoted? { p with requests := requests }) p.config.maxErrorValue := by
        apply Chart.newestPriced_admits.insertAll hg news hopened.valid hopened.nonempty
        · intro new hnew
          obtain ⟨id, item, hitem, hid, hreads⟩ := hread new hnew
          exact Chart.ReadsAs.fits hc hne hreads hitem hid
        · exact Chart.newestPriced_openColumn (some token)
        · intro new hnew
          obtain ⟨id, item, hitem, hid, hreads⟩ := hread new hnew
          exact Chart.ReadsAs.backed hc.filed hreads hitem
      have hnext := closeColumn_closed (p := p.opened token news requests tally) hg hclosing
        hpriced (by rw [hclose])
      rwa [hclose] at hnext

include hg in
theorem feed_closed (h : p.Scanning g) (answer : TokenAnswer) {progress : Progress}
    (hok : (p.feed answer).1 = .ok progress) (hstate : (p.feed answer).2.state = .scanning) :
    (p.feed answer).2.NewestClosed := by
  rcases answer with cause | ⟨⟩ | token
  · simp [feed] at hok
  · simp only [feed, finish] at hstate
    split at hstate <;> simp [accept, reject] at hstate
  · apply feedToken_closed hg h token
    have hfeeds := h.feeds hg token
    simp only [feed] at hok hstate
    generalize p.feedToken token = outcome at hfeeds hok hstate
    cases hfeeds with
    | failed | stopped => simp at hok
    | rejected => simp [reject] at hstate
    | closed => rfl

/-- Closing a column that ends with an error leaves the error behind. -/
theorem closeColumn_error (p : Parser) (e : ParseError) (h : p.closeColumn.1 = .error e) :
    p.closeColumn.2.error = some e := by
  rw [closeColumn] at h ⊢
  split at h
  · exact congrArg some (Except.error.inj h)
  · contradiction

theorem seed_error (p : Parser) (e : ParseError) (h : p.seed.1 = .error e) :
    p.seed.2.error = some e := by
  rw [seed] at h ⊢
  split at h
  · next hrules =>
      rw [if_pos hrules]
      exact congrArg some (Except.error.inj h)
  · next hrules =>
      rw [if_neg hrules]
      exact closeColumn_error _ e h

theorem feed_error (hg : g.Numbered) (h : p.Scanning g) (answer : TokenAnswer) (e : ParseError)
    (hresult : (p.feed answer).1 = .error e) : (p.feed answer).2.error = some e := by
  rcases answer with cause | ⟨⟩ | token
  · simpa [feed, fail] using hresult
  · simp [feed] at hresult
  · have hfeeds := h.feeds hg token
    simp only [feed] at hresult ⊢
    generalize p.feedToken token = outcome at hfeeds hresult
    cases hfeeds with
    | failed => exact congrArg some (Except.error.inj hresult)
    | stopped news requests tally hread e' next hclose =>
        obtain rfl := Except.error.inj hresult
        have := closeColumn_error (p.opened token news requests tally) e' (by rw [hclose])
        rwa [hclose] at this
    | rejected | closed => simp at hresult

def Orderly (p : Parser) : Prop := p.error = none → p.state = .scanning → p.NewestClosed

include hg in
theorem feed_orderly (h : p.Scanning g) (answer : TokenAnswer) : (p.feed answer).2.Orderly := by
  intro herror hstate
  cases hresult : (p.feed answer).1 with
  | error e =>
      rw [feed_error hg h answer e hresult] at herror
      contradiction
  | ok progress => exact feed_closed hg h answer hresult hstate

include hg in
theorem begin_orderly (h : p.Healthy g) (horderly : p.Orderly) : p.begin.2.Orderly := by
  rcases begin_cases p with ⟨e, -, heq⟩ | ⟨herror, -, heq⟩ | ⟨-, -, heq⟩
  · rwa [heq]
  · rw [heq]
    intro herror' _
    cases hresult : p.seed.1 with
    | error e =>
        rw [seed_error p e hresult] at herror'
        contradiction
    | ok => exact seed_closed hg h herror hresult
  · rwa [heq]

include hg in
theorem begin_closed (h : p.Healthy g) (horderly : p.Orderly) (hok : p.begin.1 = .ok ())
    (hstate : p.begin.2.state = .scanning) : p.begin.2.NewestClosed := by
  rcases begin_cases p with ⟨e, -, heq⟩ | ⟨herror, -, heq⟩ | ⟨herror, -, heq⟩
  · rw [heq] at hok
    contradiction
  · rw [heq] at hok ⊢
    exact seed_closed hg h herror hok
  · rw [heq] at hstate ⊢
    exact horderly herror hstate

/-- A parser of a grammar after any operations on it, and where the clock broke off a
closure. Settings and costs are replaced only where no run has begun. -/
inductive Steady (g : Grammar) : Parser → Prop
  | created (config : Config) : Steady g (withConfig g config)
  | setConfig {p : Parser} (h : Steady g p) (hstart : p.state = .start) (config : Config) :
      Steady g (p.setConfig config)
  | setCosts {p : Parser} (h : Steady g p) (hstart : p.state = .start) (costs : CostProvider) :
      Steady g (p.setCosts costs)
  | reset {p : Parser} (h : Steady g p) : Steady g p.reset
  | begin {p : Parser} (h : Steady g p) : Steady g p.begin.2
  | advance {p : Parser} (h : Steady g p) {σ : Type} [TokenSource σ] (source : σ) :
      Steady g (p.advance source).parser
  | parse {p : Parser} (h : Steady g p) {σ : Type} [TokenSource σ] (source : σ) :
      Steady g (p.parse source).parser
  | timedOut {p q : Parser} (h : Steady g p) (hfills : p.Fills q) (steps elapsed : Nat) :
      Steady g (q.timedOut steps elapsed)

theorem Steady.reached (h : Steady g p) : Reached g p := by
  induction h with
  | created config => exact .created config
  | setConfig _ _ config ih => exact ih.setConfig config
  | setCosts _ _ costs ih => exact ih.setCosts costs
  | reset _ ih => exact ih.reset
  | begin _ ih => exact ih.begin
  | advance _ source ih => exact ih.advance source
  | parse _ source ih => exact ih.parse source
  | timedOut _ hfills steps elapsed ih => exact ih.timedOut hfills steps elapsed

include hg in
theorem Steady.orderly (h : Steady g p) : p.Orderly := by
  induction h with
  | created config =>
      intro _ hstate
      simp [withConfig] at hstate
  | setConfig _ hstart | setCosts _ hstart =>
      intro _ hstate
      exact absurd (hstart.symm.trans hstate) (by simp)
  | reset =>
      intro _ hstate
      simp [Parser.reset] at hstate
  | begin h ih => exact begin_orderly hg (h.reached.healthy hg) ih
  | @advance p h σ _ source ih =>
      have hhealthy := h.reached.healthy hg
      rw [Parser.advance]
      cases hsettled : p.settled? with
      | some result => exact ih
      | none =>
          simp only
          split
          · exact begin_orderly hg hhealthy ih
          · next hstate => exact feed_orderly hg (hhealthy.scanning hsettled hstate) _
  | @parse p h σ _ source ih =>
      have hhealthy := h.reached.healthy hg
      have hends := parse_ends hg hhealthy source
      generalize (p.parse source).parser = next at hends
      cases hends with
      | settled => exact ih
      | unbegun => exact begin_orderly hg hhealthy ih
      | step last hlast answer => exact feed_orderly hg hlast answer
  | timedOut => exact fun herror _ => absurd herror (Option.some_ne_none _)

/-- After every beginning and every step that leads on, the newest column is
closed: predictions and completions are all there, and no others, and costs are
exact. -/
theorem newest_column_closed (d : GrammarDef) (g : Grammar) (hd : d.toGrammar = .ok g)
    (p : Parser) (hp : Steady g p) :
    (p.begin.1 = .ok () → p.begin.2.state = .scanning → p.begin.2.NewestClosed) ∧
      ∀ {σ : Type} [TokenSource σ] (source : σ) (progress : Progress),
        (p.advance source).result = .ok progress →
        (p.advance source).parser.state = .scanning → (p.advance source).parser.NewestClosed := by
  have hg := d.toGrammar_numbered g hd
  have hhealthy := hp.reached.healthy hg
  refine ⟨begin_closed hg hhealthy (hp.orderly hg), ?_⟩
  intro σ _ source progress hok hstate
  rw [advance] at hok hstate ⊢
  cases hsettled : p.settled? with
  | some result =>
      simp only [hsettled] at hok hstate
      rw [settled?] at hsettled
      split at hsettled
      · obtain rfl := Option.some.inj hsettled
        contradiction
      · rw [hstate] at hsettled
        contradiction
  | none =>
      simp only [hsettled] at hok hstate ⊢
      split at hok
      · next hstart =>
          rw [if_pos hstart] at hstate ⊢
          apply begin_closed hg hhealthy (hp.orderly hg) _ hstate
          simp only at hok
          generalize p.begin.1 = result at hok
          cases result with
          | error e => contradiction
          | ok => rfl
      · next hstart =>
          rw [if_neg hstart] at hstate ⊢
          exact feed_closed hg (hhealthy.scanning hsettled hstart) _ hok hstate

def repairing : Parser := fresh pair ⟨.onFailure, 2, 0, 0, 0, 0⟩ (.uniform ⟨1, 2⟩)

def advances : Nat → Parser → TokenStream → Parser × TokenStream
  | 0, p, source => (p, source)
  | n + 1, p, source => advances n (p.advance source).parser (p.advance source).source

theorem Steady.advances (h : Steady g p) (n : Nat) (source : TokenStream) :
    Steady g (Parser.advances n p source).1 := by
  induction n generalizing p source with
  | zero => exact h
  | succ n ih => exact ih (h.advance source) _

/-- The first column of a run is closed, and so is its last one over `a a`, whose
items are a dropped token and a token read as another. -/
theorem newest_column_closed_repairing :
    repairing.begin.2.NewestClosed ∧
      let before := advances 2 repairing (TokenStream.ofList [⟨0, "a", .start⟩, ⟨0, "a", .start⟩])
      let after := (before.1.advance before.2).parser
      (before.1.advance before.2).result = .ok .more ∧ after.NewestClosed ∧
        (after.item? ⟨2, 0⟩).map (·.errorCost) = some 2 ∧
        (after.item? ⟨2, 1⟩).map (·.errorCost) = some 1 := by
  have hstart : Steady pair repairing := .setCosts (.created _) rfl _
  obtain ⟨hbegin, -⟩ := newest_column_closed pairDef pair rfl repairing hstart
  refine ⟨hbegin (by decide +kernel) (by decide +kernel), ?_⟩
  intro before after
  have hbefore : Steady pair before.1 := hstart.advances 2 _
  obtain ⟨-, hadvance⟩ := newest_column_closed pairDef pair rfl before.1 hbefore
  have hmore : (before.1.advance before.2).result = .ok .more := by decide +kernel
  exact ⟨hmore, hadvance before.2 .more hmore (by decide +kernel), by decide +kernel,
    by decide +kernel⟩

end Parser
end EarleyChart
