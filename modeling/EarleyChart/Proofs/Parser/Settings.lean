import EarleyChart.Proofs.Parser.Course
import EarleyChart.Proofs.Parser.Filling

/-!
Settings and costs beside the rest of a parser. Filling and closing a column looks at
two settings only, the ceiling of costs and the limit on items; under other settings
that agree on these it does the same. No run replaces its settings.
-/

namespace EarleyChart
namespace Parser

def withSettings (p : Parser) (config : Config) (costs : CostProvider) : Parser :=
  { p with config := config, costs := costs }

def Outcome.withSettings {σ : Type} (o : Outcome σ) (config : Config) (costs : CostProvider) :
    Outcome σ :=
  { o with parser := o.parser.withSettings config costs }

section columns

variable (p : Parser) (config : Config) (costs : CostProvider)

theorem insertAll_withSettings (news : List Candidate) :
    (p.withSettings config costs).insertAll news =
      (p.insertAll news).withSettings config costs := by
  induction news generalizing p with
  | nil => rfl
  | cons new news ih => exact ih (p.insert new)

theorem predict_withSettings (symbol : SymbolId) :
    (p.withSettings config costs).predict symbol =
      (p.predict symbol).withSettings config costs := by
  have hnewest : (p.withSettings config costs).chart.newest? = p.chart.newest? := rfl
  simp only [predict, hnewest]
  split
  · exact insertAll_withSettings
      { p with
        chart := p.chart.modifyNewest (·.markPredicted symbol)
        tally := { p.tally with predictions := p.tally.predictions + 1 } } config costs _
  · rfl

theorem openColumn_withSettings (token : Token) (news : List Candidate) :
    (p.withSettings config costs).openColumn token news =
      (p.openColumn token news).withSettings config costs :=
  insertAll_withSettings
    { p with
      chart := p.chart.openColumn p.grammar (some token)
      tally := { p.tally with
        scanned := p.tally.scanned +
          news.countP fun new => new.link.any (·.step == .scanned) } } config costs news

theorem finish_withSettings : (p.withSettings config costs).finish =
    (p.finish.1, p.finish.2.withSettings config costs) := by
  have hnewest : (p.withSettings config costs).chart.newest? = p.chart.newest? := rfl
  simp only [finish, hnewest]
  split <;> rfl

variable (hceiling : config.maxErrorValue = p.config.maxErrorValue)

include hceiling in
theorem correct_withSettings (token : Token) (hcosts : p.costs = costs) :
    (p.withSettings config costs).correct token =
      ((p.correct token).1, (p.correct token).2.withSettings config costs) := by
  subst hcosts
  have hwaiting : (p.withSettings config p.costs).chart.waitingItems
      (p.withSettings config p.costs).grammar = p.chart.waitingItems p.grammar := rfl
  have hconfig : (p.withSettings config p.costs).config = config := rfl
  have hasked : (p.withSettings config p.costs).costs (p.withSettings config p.costs).grammar =
      p.costs p.grammar := rfl
  simp only [correct, hwaiting, hconfig, hasked, hceiling]
  split
  · rfl
  · split
    · rfl
    · rfl

include hceiling in
/-- Reading a token looks at the mode of repair as well. -/
theorem readings_withSettings (token : Token) (hcosts : p.costs = costs)
    (hmode : config.recovery = p.config.recovery) :
    (p.withSettings config costs).readings token =
      ((p.readings token).1, (p.readings token).2.withSettings config costs) := by
  have hscans : (p.withSettings config costs).chart.scans (p.withSettings config costs).grammar
      token = p.chart.scans p.grammar token := rfl
  have hmode' : (p.withSettings config costs).config.recovery = p.config.recovery := hmode
  have hcorrect := p.correct_withSettings config costs hceiling token hcosts
  simp only [readings, hscans, hmode', hcorrect]
  cases p.config.recovery with
  | disabled | onFailure =>
      simp only
      split
      · rfl
      · rfl
  | continuous => rfl

include hceiling in
theorem complete_withSettings (item : Item) :
    (p.withSettings config costs).complete item =
      (p.complete item).withSettings config costs := by
  rw [complete, complete]
  have hnews : (p.withSettings config costs).chart.completions
      (p.withSettings config costs).grammar (p.withSettings config costs).config.maxErrorValue
      item = p.chart.completions p.grammar p.config.maxErrorValue item := by
    rw [show (p.withSettings config costs).config.maxErrorValue = p.config.maxErrorValue
      from hceiling]
    rfl
  rw [hnews]
  exact insertAll_withSettings
    { p with tally := { p.tally with completions := p.tally.completions + 1 } } config costs _

include hceiling in
theorem process_withSettings (item : Item) :
    (p.withSettings config costs).process item =
      (p.process item).withSettings config costs := by
  have hgrammar : (p.withSettings config costs).grammar = p.grammar := rfl
  rw [process, process, hgrammar]
  cases p.grammar.next? item.rule item.dot with
  | none => exact p.complete_withSettings config costs hceiling item
  | some symbol =>
      simp only
      split
      · exact p.predict_withSettings config costs symbol
      · rfl

variable (hitems : config.maxItems = p.config.maxItems)

include hceiling hitems in
theorem closeFor_withSettings (steps : Nat) :
    (p.withSettings config costs).closeFor steps =
      ((p.closeFor steps).1.withSettings config costs, (p.closeFor steps).2) := by
  induction steps generalizing p with
  | zero => rfl
  | succ steps ih =>
      have hpop : (p.withSettings config costs).popItem =
          (p.popItem.1, p.popItem.2.withSettings config costs) := rfl
      have hceiling' : config.maxErrorValue = p.popItem.2.config.maxErrorValue := hceiling
      have hitems' : config.maxItems = p.popItem.2.config.maxItems := hitems
      rw [closeFor, closeFor, hpop]
      generalize p.popItem = popped at hceiling' hitems'
      obtain ⟨id?, q⟩ := popped
      cases id? with
      | none => rfl
      | some id =>
          have hlimit : (q.withSettings config costs).limitError? = q.limitError? := by
            have hmax : (q.withSettings config costs).config.maxItems = q.config.maxItems := hitems'
            rw [limitError?, limitError?, hmax]
            rfl
          have hitem : (q.withSettings config costs).item? id = q.item? id := rfl
          simp only [hlimit, hitem]
          cases q.limitError? with
          | some e => rfl
          | none =>
              cases q.item? id with
              | none => rfl
              | some item =>
                  obtain ⟨tally, hprocess⟩ := process_eq q item
                  simp only [q.process_withSettings config costs hceiling' item]
                  exact ih _ (by rw [hprocess]; exact hceiling') (by rw [hprocess]; exact hitems')

include hceiling hitems in
theorem closeColumn_withSettings : (p.withSettings config costs).closeColumn =
    (p.closeColumn.1, p.closeColumn.2.withSettings config costs) := by
  have hclose : ({ p.withSettings config costs with state := .closing } : Parser).close =
      (({ p with state := .closing } : Parser).close.1.withSettings config costs,
        ({ p with state := .closing } : Parser).close.2) :=
    closeFor_withSettings { p with state := .closing } config costs hceiling hitems _
  rw [closeColumn, closeColumn, hclose]
  rcases ({ p with state := .closing } : Parser).close with ⟨q, error?⟩
  cases error? with
  | none => rfl
  | some e => rfl

include hceiling hitems in
theorem seed_withSettings : (p.withSettings config costs).seed =
    (p.seed.1, p.seed.2.withSettings config costs) := by
  have hgrammar : (p.withSettings config costs).grammar = p.grammar := rfl
  simp only [seed, hgrammar]
  split
  · rfl
  · let seeding : Parser :=
      { p with state := .seeding, chart := p.chart.openColumn p.grammar none }
    obtain ⟨tally, heq⟩ := p.exists_seeded
    have hpredict := seeding.predict_withSettings config costs p.grammar.start
    have hclose := (seeding.predict p.grammar.start).closeColumn_withSettings config costs
      (by rw [heq]; exact hceiling) (by rw [heq]; exact hitems)
    rw [← hpredict] at hclose
    exact hclose

include hceiling hitems in
theorem begin_withSettings : (p.withSettings config costs).begin =
    (p.begin.1, p.begin.2.withSettings config costs) := by
  have herror : (p.withSettings config costs).error = p.error := rfl
  have hstate : (p.withSettings config costs).state = p.state := rfl
  rw [begin, begin, herror, hstate]
  split
  · rfl
  · exact p.seed_withSettings config costs hceiling hitems
  · rfl

end columns

def HasSettings (config : Config) (costs : CostProvider) (p : Parser) : Prop :=
  p.config = config ∧ p.costs = costs

section kept

variable {p : Parser} {config : Config} {costs : CostProvider} (h : p.HasSettings config costs)

include h

theorem closeColumn_hasSettings : p.closeColumn.2.HasSettings config costs := by
  apply closeColumn_kept (HasSettings config costs)
  case hpopped => exact fun hq => hq
  case hprocess =>
    intro q item hq
    obtain ⟨tally, hprocess⟩ := process_eq q item
    rwa [hprocess]
  case hended => exact fun _ _ hq => hq
  case h => exact h

theorem begin_hasSettings : p.begin.2.HasSettings config costs := by
  rcases begin_cases p with ⟨e, -, heq⟩ | ⟨-, -, heq⟩ | ⟨-, -, heq⟩
  · rwa [heq]
  · rcases seed_cases p with ⟨reason, hseed⟩ | ⟨tally, hseed⟩
    · rwa [heq, hseed]
    · rw [heq, hseed]
      exact closeColumn_hasSettings h
  · rwa [heq]

theorem openColumn_hasSettings (token : Token) (news : List Candidate) :
    (p.openColumn token news).HasSettings config costs := by
  obtain ⟨tally, hopen⟩ := p.exists_opened token news p.requests p.tally
  rwa [hopen]

theorem finish_hasSettings : p.finish.2.HasSettings config costs := by
  rw [finish]
  split
  · exact h
  · exact h

end kept

theorem hasSettings_carried (hg : g.Numbered) (config : Config) (costs : CostProvider) :
    Carried g (HasSettings config costs) where
  begun _ h := begin_hasSettings h
  fed := by
    intro p answer hp h
    rcases answer with cause | ⟨⟩ | token
    · exact h
    · exact finish_hasSettings h
    · have hfeeds := hp.feeds hg token
      change (p.feedToken token).2.HasSettings config costs
      generalize p.feedToken token = outcome at hfeeds
      cases hfeeds with
      | failed | rejected => exact h
      | stopped news requests tally hread e next hclose
      | closed news requests tally hread next hclose =>
          have hclosed := closeColumn_hasSettings (p := p.opened token news requests tally) h
          rwa [hclose] at hclosed

/-- A run of a new parser has the settings that the parser was given. -/
theorem parse_fresh_hasSettings {g : Grammar} (hg : g.Numbered) (config : Config)
    (costs : CostProvider) {σ : Type} [TokenSource σ] (source : σ) :
    ((fresh g config costs).parse source).parser.HasSettings config costs :=
  (hasSettings_carried hg config costs).parse hg ((healthy_withConfig g config).setCosts costs)
    ⟨rfl, rfl⟩ source

end Parser
end EarleyChart
