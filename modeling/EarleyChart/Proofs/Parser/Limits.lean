import EarleyChart.Proofs.Parser.Curbing
import EarleyChart.Proofs.Parser.Narrowing
import EarleyChart.Proofs.Parser.Repair
import EarleyChart.Proofs.Parser.Tables

/-!
The limits of a run. They change no answer: a run under a limit is the run without
limits, or it ends in the error of the limit, and which of the two is told by the
number of items, or of tokens, of the run without limits. As long as calls succeed, the
chart keeps to the limits.
-/

namespace EarleyChart

def Config.limited (config : Config) (maxItems maxColumns : Nat) : Config :=
  { config with maxItems := maxItems, maxColumns := maxColumns }

theorem Config.limited_curbs (config : Config) {maxItems : Nat} (h : 0 < maxItems) :
    (config.limited 0 0).Curbs (config.limited maxItems 0) :=
  ⟨rfl, rfl, rfl, rfl, h⟩

theorem Config.limited_narrows (config : Config) {maxColumns : Nat} (h : 0 < maxColumns) :
    (config.limited 0 0).Narrows (config.limited 0 maxColumns) :=
  ⟨rfl, rfl, rfl, rfl, h⟩

namespace Parser

variable {g : Grammar} {p next : Parser}

def WithinLimits (p : Parser) : Prop :=
  (0 < p.config.maxItems → p.liveItems ≤ p.config.maxItems) ∧
    (0 < p.config.maxColumns → p.columnCount ≤ p.config.maxColumns)

theorem WithinLimits.same (h : p.WithinLimits) (hchart : next.chart = p.chart)
    (hconfig : next.config = p.config) : next.WithinLimits := by
  rw [WithinLimits, liveItems, columnCount, hchart, hconfig]
  exact h

/-- There are no more items than the limit allows, so that none has to be queued. -/
theorem WithinLimits.alert (h : p.WithinLimits) (hmax : 0 < p.config.maxItems) :
    p.chart.Alert p.config.maxItems :=
  fun hover => absurd (h.1 hmax) (Nat.not_le_of_lt hover)

/-- A column that is closed has not taken the chart beyond the limit on items. -/
theorem closeColumn_live_fits (hg : p.grammar.Numbered) (hc : p.chart.Closable p.grammar)
    (hmax : 0 < p.config.maxItems) (halert : p.chart.Alert p.config.maxItems)
    (hok : p.closeColumn.1 = .ok ()) : p.closeColumn.2.liveItems ≤ p.config.maxItems := by
  -- side by side with the run without the limit
  let free : Parser := p.withSettings { p.config with maxItems := 0 } p.costs
  have hcurbs : Config.Curbs { p.config with maxItems := 0 } p.config := ⟨rfl, rfl, rfl, rfl, hmax⟩
  have hcurbed : Curbed p.config p.costs free.closeColumn p.closeColumn :=
    closeColumn_curbed (p := free) hcurbs ⟨rfl, rfl⟩ hg hc halert
  generalize p.closeColumn = closed at hcurbed hok
  cases hcurbed with
  | within hfits => exact hfits
  | exceeded => contradiction

section run

variable (hg : g.Numbered)

include hg in
theorem begin_withinLimits (hp : p.Healthy g) (hblank : p.Unbegun)
    (h : p.error = none → p.WithinLimits) (hok : p.begin.1 = .ok ()) :
    p.begin.2.WithinLimits := by
  obtain ⟨hconfig, -⟩ := begin_hasSettings (p := p) ⟨rfl, rfl⟩
  rcases begin_cases p with ⟨e, -, heq⟩ | ⟨herror, hstart, heq⟩ | ⟨herror, -, heq⟩
  · rw [heq] at hok
    contradiction
  · have hcount := begin_columnCount hg hp hstart (hblank hstart) hok
    rw [WithinLimits, hconfig, hcount]
    refine ⟨fun hmax => ?_, id⟩
    rw [heq] at hok ⊢
    rcases seed_cases p with ⟨reason, hseed⟩ | ⟨tally, hseed⟩
    · rw [hseed] at hok
      contradiction
    · have hready := hp.seeded_closable hg herror tally
      have halert := (h herror).alert hmax
      obtain rfl := hp.grammar_eq
      rw [hseed] at hok ⊢
      exact closeColumn_live_fits (p := p.seeded tally) hg hready hmax
        (((p.chart.swells_openColumn p.grammar none).trans
          (Chart.swells_predict _ _ _)).alert halert) hok
  · rw [heq]
    exact h herror

include hg in
theorem feedToken_withinLimits (hp : p.Scanning g) (h : p.WithinLimits) (token : Token)
    {progress : Progress} (hok : (p.feedToken token).1 = .ok progress) :
    (p.feedToken token).2.WithinLimits := by
  have hroom : 0 < p.config.maxColumns → p.columnCount < p.config.maxColumns := by
    intro hmax
    by_contra hfull
    rw [feedToken, if_pos ⟨hmax, Nat.le_of_not_lt hfull⟩] at hok
    contradiction
  have hcolumns := feedToken_columnCount hg hp token
  have hfeeds := hp.feeds hg token
  generalize p.feedToken token = outcome at hok hcolumns hfeeds
  cases hfeeds with
  | failed | stopped => contradiction
  | rejected => exact h.same rfl rfl
  | closed news requests tally hread next hclose =>
      have hready := hp.opened_closable hg hread requests tally
      obtain rfl := hp.grammar_eq
      obtain ⟨hconfig, -⟩ :=
        closeColumn_hasSettings (p := p.opened token news requests tally) ⟨rfl, rfl⟩
      have hfits := closeColumn_live_fits (p := p.opened token news requests tally) hg hready
      rw [hclose] at hconfig hfits
      rw [WithinLimits, hconfig, hcolumns rfl]
      refine ⟨fun hmax => hfits hmax ?_ rfl, hroom⟩
      exact ((p.chart.swells_openColumn p.grammar (some token)).trans
        (Chart.swells_insertAll _ _ _)).alert (h.alert hmax)

include hg in
theorem feed_withinLimits (hp : p.Scanning g) (h : p.WithinLimits) (answer : TokenAnswer)
    {progress : Progress} (hok : (p.feed answer).1 = .ok progress) :
    (p.feed answer).2.WithinLimits := by
  rcases answer with cause | ⟨⟩ | token
  · contradiction
  · change p.finish.2.WithinLimits
    rw [finish]
    split
    · exact h.same rfl rfl
    · exact h.same rfl rfl
  · exact feedToken_withinLimits hg hp h token hok

include hg in
theorem withinLimits_carried :
    Carried g fun p => p.Unbegun ∧ (p.error = none → p.WithinLimits) where
  begun := by
    intro p hp h
    refine ⟨(begin_turn hg hp).unbegun hg hp h.1, fun hnone => ?_⟩
    cases hresult : p.begin.1 with
    | ok => exact begin_withinLimits hg hp h.1 h.2 hresult
    | error e =>
        rw [begin_error hresult] at hnone
        contradiction
  fed := by
    intro p answer hp h
    refine ⟨(feed_turn hg hp answer).unbegun hg hp.healthy h.1, fun hnone => ?_⟩
    cases hresult : (p.feed answer).1 with
    | ok progress => exact feed_withinLimits hg hp (h.2 hp.error_eq) answer hresult
    | error e =>
        rw [feed_error hg hp answer e hresult] at hnone
        contradiction

end run

/-- A parser of a grammar after any operations on it that leave the limits of a run as
they are, and where the clock broke off a closure. Costs, and other settings, may be
replaced at any time. -/
inductive Confined (g : Grammar) : Parser → Prop
  | created (config : Config) : Confined g (withConfig g config)
  | setConfig {p : Parser} (h : Confined g p) (config : Config)
      (hsame : p.state = .start ∨ config.maxItems = p.config.maxItems ∧
        config.maxColumns = p.config.maxColumns) : Confined g (p.setConfig config)
  | setCosts {p : Parser} (h : Confined g p) (costs : CostProvider) : Confined g (p.setCosts costs)
  | reset {p : Parser} (h : Confined g p) : Confined g p.reset
  | begin {p : Parser} (h : Confined g p) : Confined g p.begin.2
  | advance {p : Parser} (h : Confined g p) {σ : Type} [TokenSource σ] (source : σ) :
      Confined g (p.advance source).parser
  | parse {p : Parser} (h : Confined g p) {σ : Type} [TokenSource σ] (source : σ) :
      Confined g (p.parse source).parser
  | timedOut {p q : Parser} (h : Confined g p) (hfills : p.Fills q) (steps elapsed : Nat) :
      Confined g (q.timedOut steps elapsed)

theorem Confined.reached (h : Confined g p) : Reached g p := by
  induction h with
  | created config => exact .created config
  | setConfig _ config _ ih => exact ih.setConfig config
  | setCosts _ costs ih => exact ih.setCosts costs
  | reset _ ih => exact ih.reset
  | begin _ ih => exact ih.begin
  | advance _ source ih => exact ih.advance source
  | parse _ source ih => exact ih.parse source
  | timedOut _ hfills steps elapsed ih => exact ih.timedOut hfills steps elapsed

section confined

variable (hg : g.Numbered)

include hg in
/-- Before a run begins there is nothing that could exceed a limit. -/
theorem Reached.withinLimits_start (h : Reached g p) (hstart : p.state = .start)
    (config : Config) : (p.setConfig config).WithinLimits := by
  have hblank : p.chart.columns = #[] := h.unbegun hg hstart
  have howns := h.owns hg
  have hlive : p.liveItems = 0 := by
    rw [liveItems, howns.full.live, howns.count, Chart.itemCount, hblank]
    rfl
  have hcount : p.columnCount = 0 := by
    rw [columnCount, hblank]
    rfl
  exact ⟨fun _ => hlive.trans_le (Nat.zero_le _), fun _ => hcount.trans_le (Nat.zero_le _)⟩

include hg in
/-- As long as no error stops a run, the chart keeps to the limits. -/
theorem Confined.withinLimits (h : Confined g p) : p.error = none → p.WithinLimits := by
  have hcarried : Carried g fun p => p.Unbegun ∧ (p.error = none → p.WithinLimits) :=
    withinLimits_carried hg
  induction h with
  | created config => exact fun _ => (Reached.created config).withinLimits_start hg rfl config
  | @setConfig p h config hsame ih =>
      intro herror
      rcases hsame with hstart | ⟨hitems, hcolumns⟩
      · exact h.reached.withinLimits_start hg hstart config
      · change (0 < config.maxItems → p.liveItems ≤ config.maxItems) ∧
          (0 < config.maxColumns → p.columnCount ≤ config.maxColumns)
        rw [hitems, hcolumns]
        exact ih herror
  | setCosts _ costs ih => exact fun herror => (ih herror).same rfl rfl
  | @reset p h ih => exact fun _ => h.reached.reset.withinLimits_start hg rfl p.config
  | begin h ih => exact (hcarried.begun (h.reached.healthy hg) ⟨h.reached.unbegun hg, ih⟩).2
  | advance h source ih =>
      exact (hcarried.advance (h.reached.healthy hg) ⟨h.reached.unbegun hg, ih⟩ source).2
  | parse h source ih =>
      exact (hcarried.parse hg (h.reached.healthy hg) ⟨h.reached.unbegun hg, ih⟩ source).2
  | timedOut => exact fun herror => absurd herror (Option.some_ne_none _)

theorem error_none_of_settled {verdict : Verdict} (h : p.settled? = some (.ok verdict)) :
    p.error = none := by
  rw [settled?] at h
  split at h
  · simp at h
  · assumption

include hg in
theorem Confined.advance_withinLimits (h : Confined g p) {σ : Type} [TokenSource σ] (source : σ)
    {progress : Progress} (hok : (p.advance source).result = .ok progress) :
    (p.advance source).parser.WithinLimits := by
  have hp := h.reached.healthy hg
  cases hsettled : p.settled? with
  | some result =>
      rw [advance_settled hsettled] at hok ⊢
      cases result with
      | error e => contradiction
      | ok verdict => exact h.withinLimits hg (error_none_of_settled hsettled)
  | none =>
      by_cases hstart : p.state = .start
      · rw [advance_start hsettled hstart] at hok ⊢
        have hbegun : p.begin.1 = .ok () := by
          cases hresult : p.begin.1 with
          | ok => rfl
          | error e => simp [hresult, Except.map] at hok
        exact begin_withinLimits hg hp (h.reached.unbegun hg) (h.withinLimits hg) hbegun
      · cases hnext : TokenSource.next source with
        | mk answer rest =>
            have hscanning := hp.scanning hsettled hstart
            rw [advance_next hsettled hstart hnext] at hok ⊢
            exact feed_withinLimits hg hscanning (h.withinLimits hg hscanning.error_eq) answer hok

include hg in
theorem Confined.parse_withinLimits (h : Confined g p) {σ : Type} [TokenSource σ] (source : σ)
    {verdict : Verdict} (hok : (p.parse source).result = .ok verdict) :
    (p.parse source).parser.WithinLimits := by
  have hp := h.reached.healthy hg
  have hfinal := (hp.parses hg source).final hg hp
  rw [hok] at hfinal
  exact (h.parse source).withinLimits hg (error_none_of_settled hfinal)

end confined

/-- Limits change no answer, they only put their own error in its place. Without limits
let a run end with some live items, having taken some tokens. Under a limit on items it is
the same run where that many are allowed, and otherwise ends with too many items. Under a
limit on columns it is the same run where there are more columns than tokens, and
otherwise ends with one column too many. After every call that succeeds the chart keeps to
the limits. -/
theorem limits_replace_answers (d : GrammarDef) (g : Grammar) (hd : d.toGrammar = .ok g) :
    (∀ (config : Config) (costs : CostProvider) {σ : Type} [TokenSource σ] (source : σ),
      let free := (fresh g (config.limited 0 0) costs).parse source
      let tokens := (fresh g (config.limited 0 0) costs).taken (.parse source)
      (∀ limit, 0 < limit →
        let bounded := (fresh g (config.limited limit 0) costs).parse source
        (free.parser.liveItems ≤ limit →
          bounded = { free with parser := free.parser.setConfig (config.limited limit 0) }) ∧
        (limit < free.parser.liveItems → ∃ items, limit < items ∧
          bounded.result = .error (.itemLimitExceeded items limit))) ∧
      ∀ limit, 0 < limit →
        let bounded := (fresh g (config.limited 0 limit) costs).parse source
        (tokens.length < limit →
          bounded = { free with parser := free.parser.setConfig (config.limited 0 limit) }) ∧
        (limit ≤ tokens.length → bounded.result = .error (.inputTooLarge (limit + 1) limit))) ∧
    ∀ p, Confined g p →
      (p.begin.1 = .ok () → p.begin.2.WithinLimits) ∧
      ∀ {σ : Type} [TokenSource σ] (source : σ),
        (∀ progress, (p.advance source).result = .ok progress →
          (p.advance source).parser.WithinLimits) ∧
        ∀ verdict, (p.parse source).result = .ok verdict →
          (p.parse source).parser.WithinLimits := by
  have hg := d.toGrammar_numbered g hd
  constructor
  · intro config costs σ _ source free tokens
    have hnew : (fresh g (config.limited 0 0) costs).Healthy g :=
      (healthy_withConfig g _).setCosts costs
    have hset : (fresh g (config.limited 0 0) costs).HasSettings (config.limited 0 0) costs :=
      ⟨rfl, rfl⟩
    have hcosts : free.parser.costs = costs := (parse_fresh_hasSettings hg _ _ source).2
    have hsame : ∀ other, free.withSettings other costs =
        { free with parser := free.parser.setConfig other } := by
      intro other
      rw [Outcome.withSettings, Parser.withSettings, ← hcosts]
      rfl
    refine ⟨fun limit hlimit => ?_, fun limit hlimit => ?_⟩
    · have hcurbed := parse_curbed (config.limited_curbs hlimit) hset source hg hnew rfl
        (Nat.zero_le _)
      rw [← hsame]
      rcases hcurbed with ⟨hfits, hbounded⟩ | ⟨hover, herror⟩
      · exact ⟨fun _ => hbounded, fun hover => absurd hfits (Nat.not_le_of_lt hover)⟩
      · exact ⟨fun hfits => absurd hfits (Nat.not_le_of_lt hover), fun _ => herror⟩
    · have hnarrowed := parse_narrowed (config.limited_narrows hlimit) hset source hg hnew rfl rfl
        rfl
      rw [← hsame]
      rcases hnarrowed with ⟨hfits, hbounded⟩ | ⟨hover, herror⟩
      · exact ⟨fun _ => hbounded, fun hover => absurd hfits (Nat.not_lt_of_le hover)⟩
      · exact ⟨fun hfits => absurd hfits (Nat.not_lt_of_le hover), fun _ => herror⟩
  · intro p hp
    refine ⟨begin_withinLimits hg (hp.reached.healthy hg) (hp.reached.unbegun hg)
      (hp.withinLimits hg), fun source => ⟨fun _ => hp.advance_withinLimits hg source,
        fun _ => hp.parse_withinLimits hg source⟩⟩

def couple : TokenStream := TokenStream.ofList [⟨0, "a", .start⟩, ⟨1, "b", .start⟩]

def coupled (items columns : Nat) : Outcome TokenStream :=
  (fresh pair (Config.standard.limited items columns) .standard).parse couple

/-- There are three items, and two tokens in three columns. Three items and three columns
are enough, two are not. -/
theorem limits_replace_answers_pair : pairDef.toGrammar = .ok pair ∧
    (coupled 3 0).result = .ok .accepted ∧ (coupled 3 0).parser.WithinLimits ∧
    (∃ items, (coupled 2 0).result = .error (.itemLimitExceeded items 2)) ∧
    (coupled 0 3).result = .ok .accepted ∧ (coupled 0 2).result = .error (.inputTooLarge 3 2) := by
  obtain ⟨hlimits, hcalls⟩ := limits_replace_answers pairDef pair rfl
  obtain ⟨hitems, hcolumns⟩ := hlimits Config.standard .standard couple
  have hlive : (coupled 0 0).parser.liveItems = 3 := by decide +kernel
  have htaken : ((fresh pair (Config.standard.limited 0 0) .standard).taken
      (.parse couple)).length = 2 := by decide +kernel
  have haccepted : (coupled 0 0).result = .ok .accepted := by decide +kernel
  have henough := (hitems 3 (by decide)).1 (Nat.le_of_eq hlive)
  have hthree : (coupled 3 0).result = .ok .accepted :=
    (congrArg Outcome.result henough).trans haccepted
  have htwo : ∃ items, 2 < items ∧ (coupled 2 0).result = .error (.itemLimitExceeded items 2) :=
    (hitems 2 (by decide)).2 (Nat.lt_of_lt_of_eq (by decide) hlive.symm)
  have hroom := (hcolumns 3 (by decide)).1 (htaken.trans_lt (by decide))
  have hwide : (coupled 0 3).result = .ok .accepted :=
    (congrArg Outcome.result hroom).trans haccepted
  have hnarrow : (coupled 0 2).result = .error (.inputTooLarge 3 2) :=
    (hcolumns 2 (by decide)).2 (Nat.le_of_eq htaken.symm)
  obtain ⟨items, -, herror⟩ := htwo
  have hwithin := ((hcalls _ (.setCosts (.created _) _)).2 couple).2 _ hthree
  exact ⟨rfl, hthree, hwithin, ⟨items, herror⟩, hwide, hnarrow⟩

end Parser
end EarleyChart
