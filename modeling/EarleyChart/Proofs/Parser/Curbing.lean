import EarleyChart.Proofs.Chart.Population
import EarleyChart.Proofs.Parser.Halting
import EarleyChart.Proofs.Parser.Lasting
import EarleyChart.Proofs.Parser.Settings

/-!
The limit on items. It is looked at whenever an item is taken out of the queue, not
where items are created. A run under the limit goes side by side with the run without
one until there are more items than it allows; from then on an item is queued, and the
next one that is taken ends the run.
-/

namespace EarleyChart

/-- Settings that differ in a limit on items only. -/
structure Config.Curbs (base config : Config) : Prop where
  recovery : config.recovery = base.recovery
  ceiling : config.maxErrorValue = base.maxErrorValue
  columns : config.maxColumns = base.maxColumns
  free : base.maxItems = 0
  limit : 0 < config.maxItems

namespace Parser

variable {g : Grammar} {p : Parser} {base config : Config} {costs : CostProvider}

/-- What a limit on items makes of an answer and of the parser that gave it. Where the
items keep to the limit it makes nothing of them, and otherwise there is an error. -/
inductive Curbed (config : Config) (costs : CostProvider) {α : Type}
    (free : Except ParseError α × Parser) : Except ParseError α × Parser → Prop
  | within (hfits : free.2.liveItems ≤ config.maxItems) :
      Curbed config costs free (free.1, free.2.withSettings config costs)
  | exceeded (hover : config.maxItems < free.2.liveItems) (n : Nat) (hn : config.maxItems < n)
      (q : Parser) :
      Curbed config costs free (.error (.itemLimitExceeded n config.maxItems), q)

theorem Curbed.same {α : Type} {result : Except ParseError α} {q : Parser}
    (hfits : q.liveItems ≤ config.maxItems) :
    Curbed config costs (result, q) (result, q.withSettings config costs) :=
  .within hfits

theorem Curbed.map {α β : Type} (f : α → β) {free bounded : Except ParseError α × Parser}
    (h : Curbed config costs free bounded) :
    Curbed config costs (free.1.map f, free.2) (bounded.1.map f, bounded.2) := by
  cases h with
  | within hfits => exact .within hfits
  | exceeded hover n hn q =>
      refine .exceeded ?_ n hn q
      exact hover

theorem process_live_le (p : Parser) (item : Item) : p.liveItems ≤ (p.process item).liveItems := by
  obtain ⟨tally, hprocess⟩ := process_eq p item
  rw [hprocess]
  exact (p.chart.swells_process p.grammar p.config.maxErrorValue item).live_le

/-- The closure only adds items. -/
theorem closeFor_live_le (p : Parser) (steps : Nat) :
    p.liveItems ≤ (p.closeFor steps).1.liveItems :=
  closeFor_kept (fun q => p.liveItems ≤ q.liveItems) (fun hq => hq)
    (fun item hq => hq.trans (process_live_le _ item)) steps (Nat.le_refl _)

theorem ClosesTo.live_le {next : Parser} (h : p.ClosesTo next) :
    p.liveItems ≤ next.liveItems := by
  cases h with
  | whole =>
      exact closeColumn_kept (fun q => p.liveItems ≤ q.liveItems) (fun hq => hq)
        (fun item hq => hq.trans (process_live_le _ item)) (fun _ _ hq => hq) (Nat.le_refl _)
  | timedOut steps => exact closeFor_live_le { p with state := .closing } steps

/-- Two closures side by side. They are the same, or the one under the limit stops, as
soon as an item is taken from the queue. -/
theorem closeFor_curbed (h : base.Curbs config) (hset : p.HasSettings base costs)
    (halert : p.chart.Alert config.maxItems) (steps : Nat) :
    (p.closeFor steps).1.liveItems ≤ config.maxItems ∧
      (p.withSettings config costs).closeFor steps =
        ((p.closeFor steps).1.withSettings config costs, (p.closeFor steps).2) ∨
    config.maxItems < (p.closeFor steps).1.liveItems ∧
      ((p.closeFor steps).1.chart.worklist.toList ≠ [] ∨
        ∃ n q, config.maxItems < n ∧ (p.withSettings config costs).closeFor steps =
          (q, some (.itemLimitExceeded n config.maxItems))) := by
  induction steps generalizing p with
  | zero =>
      rcases Nat.lt_or_ge config.maxItems p.liveItems with hover | hfits
      · exact .inr ⟨hover, .inl (halert hover)⟩
      · exact .inl ⟨hfits, rfl⟩
  | succ steps ih =>
      have hmax : p.popped.config.maxItems = 0 := hset.1 ▸ h.free
      have hlive := closeFor_live_le p (steps + 1)
      have hpopped : (p.withSettings config costs).popped = p.popped.withSettings config costs :=
        rfl
      have hpop' : (p.withSettings config costs).chart.worklist.pop.1 =
          p.chart.worklist.pop.1 := rfl
      rw [closeFor_succ] at hlive ⊢
      rw [closeFor_succ (p.withSettings config costs), hpop', hpopped]
      simp only [limitError?_eq_none hmax] at hlive ⊢
      cases hpop : p.chart.worklist.pop.1 with
      | none =>
          -- nothing is queued, so that the items keep to the limit
          refine .inl ⟨Nat.le_of_not_lt fun hover => halert hover ?_, rfl⟩
          exact p.chart.worklist.pop_none hpop
      | some id =>
          rw [hpop] at hlive
          simp only at hlive ⊢
          rcases Nat.lt_or_ge config.maxItems p.liveItems with hover | hfits
          · have hlimit : (p.popped.withSettings config costs).limitError? =
                some (.itemLimitExceeded p.liveItems config.maxItems) :=
              if_pos ⟨h.limit, hover⟩
            rw [hlimit]
            exact .inr ⟨Nat.lt_of_lt_of_le hover hlive, .inr ⟨_, _, hover, rfl⟩⟩
          · have hlimit : (p.popped.withSettings config costs).limitError? = none :=
              if_neg fun hover => Nat.not_lt_of_le hfits hover.2
            have hitem : (p.popped.withSettings config costs).item? id = p.popped.item? id := rfl
            rw [hlimit, hitem]
            cases p.popped.item? id with
            | none => exact .inl ⟨hfits, rfl⟩
            | some item =>
                have hceiling : config.maxErrorValue = p.popped.config.maxErrorValue :=
                  h.ceiling.trans (congrArg Config.maxErrorValue hset.1.symm)
                simp only [p.popped.process_withSettings config costs hceiling item]
                obtain ⟨tally, hprocess⟩ := process_eq p.popped item
                have hpoppedAlert : p.popped.chart.Alert config.maxItems := fun hover =>
                  absurd hover (Nat.not_lt_of_le hfits)
                apply ih
                · rw [hprocess]
                  exact hset
                · rw [hprocess]
                  exact (Chart.swells_process _ _ _ item).alert hpoppedAlert

/-- Whole runs only add items. -/
theorem live_carried (hg : g.Numbered) (n : Nat) : Carried g fun p => n ≤ p.liveItems := by
  apply Carried.of_turn hg
  intro p next hp hturn hle
  obtain rfl := hp.grammar_eq
  refine Nat.le_trans hle ?_
  cases hturn with
  | stays hchart => exact Nat.le_of_eq (congrArg (·.arena.live) hchart.symm)
  | seeds tally _ _ hcloses =>
      have hfilled := (p.chart.swells_openColumn p.grammar none).trans
        (Chart.swells_predict _ p.grammar p.grammar.start)
      exact Nat.le_trans hfilled.live_le hcloses.live_le
  | @reads _ token news _ _ _ requests tally hcloses =>
      have hfilled := (p.chart.swells_openColumn p.grammar (some token)).trans
        (Chart.swells_insertAll _ p.grammar news)
      exact Nat.le_trans hfilled.live_le hcloses.live_le

theorem parseTokens_live_le (hg : g.Numbered) (hp : p.Scanning g) {σ : Type} [TokenSource σ]
    (source : σ) : p.liveItems ≤ (p.parseTokens source).parser.liveItems := by
  refine ((hp.parses hg source).kept (fun q => q.Healthy g ∧ p.liveItems ≤ q.liveItems) ?_
    ⟨hp.healthy, Nat.le_refl _⟩).2
  intro q rest hq
  exact ⟨advance_healthy hg hq.1 rest, (live_carried hg _).advance hq.1 hq.2 rest⟩

variable (h : base.Curbs config) (hset : p.HasSettings base costs)

include h hset

/-- Closing a column looks at the limit before the queue is empty. -/
theorem closeColumn_curbed (hg : p.grammar.Numbered) (hc : p.chart.Closable p.grammar)
    (halert : p.chart.Alert config.maxItems) :
    Curbed config costs p.closeColumn (p.withSettings config costs).closeColumn := by
  let closing : Parser := { p with state := .closing }
  have hcurbed := closeFor_curbed (p := closing) h hset halert closing.closureBound
  obtain ⟨chart, tally, error, heq, hcloses⟩ := close_spec closing hg hc
  have hclose : closing.closeFor closing.closureBound = closing.close := rfl
  have hclose' : (closing.withSettings config costs).closeFor closing.closureBound =
      (closing.withSettings config costs).close := rfl
  have hclosing : ({ p.withSettings config costs with state := .closing } : Parser) =
      closing.withSettings config costs := rfl
  rw [hclose, hclose', heq] at hcurbed
  rw [closeColumn, closeColumn, hclosing, show ({ p with state := .closing } : Parser) = closing
    from rfl, heq]
  cases error with
  | some e =>
      obtain ⟨hmax, -⟩ := hcloses.limit e rfl
      have hfree : closing.config.maxItems = 0 := hset.1 ▸ h.free
      omega
  | none =>
      obtain ⟨-, hempty⟩ := hcloses.done rfl
      rcases hcurbed with ⟨hfits, hsame⟩ | ⟨hover, hqueued | ⟨n, q, hn, hstop⟩⟩
      · rw [hsame]
        exact .within hfits
      · exact absurd hempty hqueued
      · rw [hstop]
        exact .exceeded hover n hn _

theorem begin_curbed (hg : g.Numbered) (hp : p.Healthy g)
    (hfits : p.liveItems ≤ config.maxItems) :
    Curbed config costs p.begin (p.withSettings config costs).begin := by
  have herror : (p.withSettings config costs).error = p.error := rfl
  have hstate : (p.withSettings config costs).state = p.state := rfl
  rw [begin, begin, herror, hstate]
  cases hnone : p.error with
  | some e => exact .within hfits
  | none =>
      cases p.state with
      | start =>
          have hgrammar : (p.withSettings config costs).grammar = p.grammar := rfl
          simp only [seed, hgrammar]
          split
          · exact .same hfits
          · let seeding : Parser :=
              { p with state := .seeding, chart := p.chart.openColumn p.grammar none }
            obtain ⟨tally, hpredict⟩ := p.exists_seeded
            have hready := hp.seeded_closable hg hnone tally
            have halert : p.chart.Alert config.maxItems := fun hover =>
              absurd hover (Nat.not_lt_of_le hfits)
            obtain rfl := hp.grammar_eq
            have hclose := closeColumn_curbed (p := seeding.predict p.grammar.start) h
              (by rw [hpredict]; exact hset) (by rw [hpredict]; exact hg)
              (by rw [hpredict]; exact hready)
              (by
                rw [hpredict]
                exact ((p.chart.swells_openColumn p.grammar none).trans
                  (Chart.swells_predict _ _ _)).alert halert)
            rw [← predict_withSettings] at hclose
            exact hclose
      | seeding | closing | scanning | accepted | rejected => exact .within hfits

theorem feed_curbed (hg : g.Numbered) (hp : p.Scanning g)
    (hfits : p.liveItems ≤ config.maxItems) (answer : TokenAnswer) :
    Curbed config costs (p.feed answer) ((p.withSettings config costs).feed answer) := by
  rcases answer with cause | ⟨⟩ | token
  · exact .same hfits
  · rw [feed, feed, finish_withSettings]
    have hfinish : p.finish.2.liveItems ≤ config.maxItems := by
      rw [finish]
      split <;> exact hfits
    exact .same hfinish
  · have hcount : (p.withSettings config costs).columnCount = p.columnCount := rfl
    have hmax : (p.withSettings config costs).config.maxColumns = p.config.maxColumns :=
      h.columns.trans (congrArg Config.maxColumns hset.1.symm)
    rw [feed, feed, feedToken, feedToken, hcount, hmax]
    split
    · exact .same hfits
    obtain ⟨hconfig, hcosts⟩ := hset
    obtain ⟨result, requests, tally, heq, hread⟩ :=
      readings_read (hp.grammar_eq ▸ hg) (hp.grammar_eq ▸ hp.valid).filed token
    rw [readings_withSettings p config costs (hconfig ▸ h.ceiling) token hcosts
      (hconfig ▸ h.recovery), heq]
    cases result with
    | error e =>
        exact .same hfits
    | ok result =>
        cases result with
        | error why =>
            exact .same hfits
        | ok news =>
            let read : Parser := { p with requests := requests, tally := tally }
            obtain ⟨tally', hopen⟩ := p.exists_opened token news requests tally
            have hready := hp.opened_closable hg (hread news rfl) requests tally'
            have halert : p.chart.Alert config.maxItems := fun hover =>
              absurd hover (Nat.not_lt_of_le hfits)
            obtain rfl := hp.grammar_eq
            have hclose := closeColumn_curbed (p := read.openColumn token news) h
              (by rw [hopen]; exact ⟨hconfig, hcosts⟩) (by rw [hopen]; exact hg)
              (by rw [hopen]; exact hready)
              (by
                rw [hopen]
                exact ((p.chart.swells_openColumn p.grammar (some token)).trans
                  (Chart.swells_insertAll _ _ _)).alert halert)
            rw [← openColumn_withSettings] at hclose
            exact hclose.map fun _ => Progress.more

variable {σ : Type} [TokenSource σ] (source : σ)

/-- A run over the tokens of a source is the same under the limit, or ends in its error. -/
theorem parseTokens_curbed (hg : g.Numbered) (hp : p.Scanning g)
    (hfits : p.liveItems ≤ config.maxItems) :
    (p.parseTokens source).parser.liveItems ≤ config.maxItems ∧
      (p.withSettings config costs).parseTokens source =
        (p.parseTokens source).withSettings config costs ∨
    config.maxItems < (p.parseTokens source).parser.liveItems ∧
      ∃ n, config.maxItems < n ∧ ((p.withSettings config costs).parseTokens source).result =
        .error (.itemLimitExceeded n config.maxItems) := by
  induction hn : TokenSource.size source using Nat.strong_induction_on generalizing p source with
  | _ n ih =>
  cases hnext : TokenSource.next source with
  | mk answer rest =>
      have hcurbed := feed_curbed h hset hg hp hfits answer
      have hmore := feed_more (p := p) answer
      have hscanning := (feed_healthy hg hp answer).1
      have hset' := (hasSettings_carried hg base costs).fed answer hp hset
      rw [parseTokens_next hnext, parseTokens_next hnext]
      generalize (p.withSettings config costs).feed answer = bounded at hcurbed
      generalize p.feed answer = fed at hcurbed hmore hscanning hset'
      obtain ⟨result, next⟩ := fed
      cases hcurbed with
      | within hfits' =>
          cases result with
          | error e => exact .inl ⟨hfits', rfl⟩
          | ok progress =>
              cases progress with
              | done verdict => exact .inl ⟨hfits', rfl⟩
              | more =>
                  obtain ⟨token, rfl⟩ := hmore rfl
                  have hsize : TokenSource.size rest < n := hn ▸ TokenSource.size_next hnext
                  exact ih _ hsize hset' rest (hscanning rfl) hfits' rfl
      | exceeded hover items hitems q =>
          -- the run without the limit goes on, and no item is ever taken away
          refine .inr ⟨?_, items, hitems, rfl⟩
          cases result with
          | error e => exact hover
          | ok progress =>
              cases progress with
              | done verdict => exact hover
              | more => exact Nat.lt_of_lt_of_le hover (parseTokens_live_le hg (hscanning rfl) rest)

theorem parse_curbed (hg : g.Numbered) (hp : p.Healthy g) (hnew : p.settled? = none)
    (hfits : p.liveItems ≤ config.maxItems) :
    (p.parse source).parser.liveItems ≤ config.maxItems ∧
      (p.withSettings config costs).parse source =
        (p.parse source).withSettings config costs ∨
    config.maxItems < (p.parse source).parser.liveItems ∧
      ∃ n, config.maxItems < n ∧ ((p.withSettings config costs).parse source).result =
        .error (.itemLimitExceeded n config.maxItems) := by
  have hsettled : (p.withSettings config costs).settled? = none := hnew
  have hcurbed := begin_curbed h hset hg hp hfits
  have hscanning := begin_scanning hg hp hnew
  have hset' := begin_hasSettings hset
  simp only [parse, hsettled, hnew]
  generalize (p.withSettings config costs).begin = bounded at hcurbed
  generalize p.begin = begun at hcurbed hscanning hset'
  obtain ⟨result, next⟩ := begun
  cases hcurbed with
  | within hfits' =>
      cases result with
      | error e => exact .inl ⟨hfits', rfl⟩
      | ok => exact parseTokens_curbed h hset' source hg (hscanning rfl) hfits'
  | exceeded hover items hitems q =>
      refine .inr ⟨?_, items, hitems, rfl⟩
      cases result with
      | error e => exact hover
      | ok => exact Nat.lt_of_lt_of_le hover (parseTokens_live_le hg (hscanning rfl) source)

end Parser
end EarleyChart
