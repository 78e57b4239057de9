import EarleyChart.Proofs.Parser.Integrity
import EarleyChart.Proofs.Parser.Turns

/-!
The ceiling on costs. Completions and corrections are checked against it, scans
and predictions are not: a scan costs what the item before it does, and what
begins in a column costs nothing there. So no item of a run costs more than the
ceiling, whatever the cost provider answers.
-/

namespace EarleyChart
namespace Chart

/-- An item costs nothing in the column where it began. -/
def Free (column : Nat) (key : ItemKey) (cost : Nat) : Prop :=
  key.origin ≤ column ∧ (key.origin = column → cost = 0)

theorem free_passedOn (g : Grammar) (ceiling column : Nat) :
    PassedOn g ceiling column Free fun _ => True where
  seed _ _ _ _ _ _ _ := ⟨Nat.le_refl _, fun _ => rfl⟩
  join left cost right cost' hleft hright _ _ _ := by
    refine ⟨Nat.le_trans hleft.1 hright.1, ?_⟩
    -- what began here was advanced over what began here
    intro horigin
    change left.origin = column at horigin
    have hle := hleft.1
    have hle' := hright.1
    rw [hleft.2 (by omega), hright.2 (by omega)]
    rfl
  completed := trivial

theorem free_of_older {column : Nat} {key : ItemKey} {cost : Nat} (horigin : key.origin < column) :
    Free column key cost :=
  ⟨Nat.le_of_lt horigin, fun heq => absurd heq (Nat.ne_of_lt horigin)⟩

def Capped (ceiling column : Nat) (key : ItemKey) (cost : Nat) : Prop :=
  cost ≤ ceiling ∧ key.origin ≤ column ∧ (key.origin = column → cost = 0)

theorem capped_passedOn (g : Grammar) (ceiling column : Nat) :
    PassedOn g ceiling column (Capped ceiling) fun _ => True where
  seed _ _ _ _ _ _ _ := ⟨Nat.zero_le _, Nat.le_refl _, fun _ => rfl⟩
  join left cost right cost' hleft hright hnext hend hceiling :=
    ⟨hceiling, (free_passedOn g ceiling column).join left cost right cost' hleft.2 hright.2
      hnext hend hceiling⟩
  completed := trivial

abbrev AllCapped (ceiling : Nat) (c : Chart) : Prop := c.All (Capped ceiling) fun _ => True

theorem all_of_columns {property : Nat → ItemKey → Nat → Prop} {allowed : StepKind → Prop}
    {c : Chart} (h : c.columns = #[]) : c.All property allowed := by
  intro id item hitem
  simp [item?, h] at hitem

theorem all_openColumn {property : Nat → ItemKey → Nat → Prop} {allowed : StepKind → Prop}
    {c : Chart} (g : Grammar) (token : Option Token) (h : c.All property allowed) :
    (c.openColumn g token).All property allowed := by
  intro id item hitem
  rw [item?_openColumn] at hitem
  exact h id item hitem

end Chart

namespace Parser

variable {g : Grammar} (hg : g.Numbered) {p next : Parser}

theorem ClosesTo.all {property : Nat → ItemKey → Nat → Prop} {allowed : StepKind → Prop}
    (h : p.ClosesTo next) (hg : p.grammar.Numbered) (hc : p.chart.Closable p.grammar)
    (hpassed : ∀ column, Chart.PassedOn p.grammar p.config.maxErrorValue column property allowed)
    (hall : p.chart.All property allowed) : next.chart.All property allowed :=
  (h.preserved hg hc (hpassed p.chart.current).preserved ⟨rfl, hall⟩).2

/-- A scan costs what is within the ceiling already, and corrections are checked. -/
theorem readings_cost_le (hg : p.grammar.Numbered) (hc : p.chart.Filed p.grammar)
    (hall : p.chart.AllCapped p.config.maxErrorValue) (token : Token) (news : List Candidate)
    (hnews : (p.readings token).1 = .ok (.ok news)) (new : Candidate) (hnew : new ∈ news) :
    new.errorCost ≤ p.config.maxErrorValue := by
  cases (readings_news token hnews).2 new hnew with
  | inl hscan =>
      obtain ⟨id, item, terminal, hitem, -, -, -, rfl⟩ :=
        (p.chart.mem_scans p.grammar hc hg token new).mp hscan
      exact (hall id item hitem).1.1
  | inr hcost => exact hcost

/-- A token is read in place of what began before its column. -/
theorem Read.origin_le {price : ItemId → Option CorrectionCost} {token : Token}
    {new : Candidate} (hread : p.Read price token new) (hc : p.chart.Valid p.grammar) :
    new.origin ≤ p.chart.current := by
  obtain ⟨id, item, hitem, hid, hreads⟩ := hread
  have horigin := (hc.item id item hitem).origin
  rw [hid] at horigin
  cases hreads with
  | scan | substitute | delete => exact horigin

include hg in
/-- A property that is passed on within a column survives a turn if predictions have
it, and the readings of a token. -/
theorem Turn.all {property : Nat → ItemKey → Nat → Prop} {allowed : StepKind → Prop}
    (hp : p.Healthy g) (h : p.Turn g next)
    (hpassed : ∀ column, Chart.PassedOn g p.config.maxErrorValue column property allowed)
    (hseed : ∀ column rule, property column ⟨rule, 0, column⟩ 0)
    (hread : ∀ token news, (p.readings token).1 = .ok (.ok news) → ∀ new ∈ news,
      new.origin < p.chart.columns.size →
      Chart.Having property allowed p.chart.columns.size new)
    (hall : p.chart.All property allowed) : next.chart.All property allowed := by
  obtain rfl := hp.grammar_eq
  cases h with
  | stays hchart => rwa [hchart]
  | seeds tally hstart herror hcloses =>
      have hopened := Chart.closing_openColumn p.config.maxErrorValue none hp.valid
        (hp.idle herror)
      apply hcloses.all hg (hp.seeded_closable hg herror tally) hpassed
      apply Chart.predict_all hg hopened.valid hopened.nonempty
      · exact Chart.all_openColumn p.grammar none hall
      · exact hpassed _
      · exact fun rule _ => hseed _ rule
  | @reads hscanning token news hnews price hreads requests tally hcloses =>
      have hopened := Chart.closing_openColumn p.config.maxErrorValue (some token) hp.valid
        hscanning.idle
      apply hcloses.all hg (hscanning.opened_closable hg hreads requests tally) hpassed
      apply Chart.insertAll_all hg news hopened.valid hopened.nonempty
      · exact fun new hnew => hscanning.read_fits (hreads new hnew)
      · exact Chart.all_openColumn p.grammar (some token) hall
      · intro new hnew
        have horigin := (hreads new hnew).origin_le hp.valid
        have hcurrent : p.chart.current < p.chart.columns.size := by
          have := hscanning.nonempty
          rw [Chart.current]
          omega
        rw [(p.chart.current_openColumn p.grammar (some token)).2]
        exact hread token news hnews new hnew (Nat.lt_of_le_of_lt horigin hcurrent)

theorem Turn.config_eq (hg : g.Numbered) (hp : p.Healthy g) (h : p.Turn g next) :
    next.config = p.config := by
  obtain rfl := hp.grammar_eq
  cases h with
  | stays _ hconfig => exact hconfig
  | seeds tally hstart herror hcloses =>
      have hready := hp.seeded_closable hg herror tally
      obtain ⟨-, -, -, -, hconfig, -⟩ := hcloses.takesAll hg hready
      exact hconfig
  | reads hscanning hnews hreads requests tally hcloses =>
      have hready := hscanning.opened_closable hg hreads requests tally
      obtain ⟨-, -, -, -, hconfig, -⟩ := hcloses.takesAll hg hready
      exact hconfig

include hg in
/-- What a run does to its chart keeps the items within its ceiling. -/
theorem Turn.allCapped (hp : p.Healthy g) (h : p.Turn g next)
    (hall : p.chart.AllCapped p.config.maxErrorValue) :
    next.chart.AllCapped next.config.maxErrorValue := by
  rw [h.config_eq hg hp]
  apply h.all hg hp (Chart.capped_passedOn g p.config.maxErrorValue) _ _ hall
  · exact fun _ _ => ⟨Nat.zero_le _, Nat.le_refl _, fun _ => rfl⟩
  · intro token news hnews new hnew horigin
    have hvalid := hp.valid
    obtain rfl := hp.grammar_eq
    have hcost := readings_cost_le hg hvalid.filed hall token news hnews new hnew
    exact ⟨⟨hcost, Chart.free_of_older horigin⟩, fun _ _ => trivial⟩

include hg in
/-- Whatever the ceiling is, and was, an item costs nothing in the column where it began. -/
theorem Reached.allFree (h : Reached g p) : p.chart.All Chart.Free fun _ => True := by
  apply h.kept hg fun p => p.chart.All Chart.Free fun _ => True
  case hcreated => exact fun _ => Chart.all_of_columns rfl
  case hconfig | hcosts => exact fun _ _ hall => hall
  case hreset => exact fun _ _ => Chart.all_of_columns rfl
  case hturn =>
    intro p next hp hturn hall
    apply hturn.all hg hp (Chart.free_passedOn g p.config.maxErrorValue) _ _ hall
    · exact fun _ _ => ⟨Nat.le_refl _, fun _ => rfl⟩
    · exact fun _ _ _ _ _ horigin => ⟨Chart.free_of_older horigin, fun _ _ => trivial⟩

/-- A parser of a grammar after any operations on it that leave the ceiling of a run
as it is, and where the clock broke off a closure. Costs may be replaced at any time. -/
inductive Budgeted (g : Grammar) : Parser → Prop
  | created (config : Config) : Budgeted g (withConfig g config)
  | setConfig {p : Parser} (h : Budgeted g p) (config : Config)
      (hsame : p.state = .start ∨ config.maxErrorValue = p.config.maxErrorValue) :
      Budgeted g (p.setConfig config)
  | setCosts {p : Parser} (h : Budgeted g p) (costs : CostProvider) : Budgeted g (p.setCosts costs)
  | reset {p : Parser} (h : Budgeted g p) : Budgeted g p.reset
  | begin {p : Parser} (h : Budgeted g p) : Budgeted g p.begin.2
  | advance {p : Parser} (h : Budgeted g p) {σ : Type} [TokenSource σ] (source : σ) :
      Budgeted g (p.advance source).parser
  | parse {p : Parser} (h : Budgeted g p) {σ : Type} [TokenSource σ] (source : σ) :
      Budgeted g (p.parse source).parser
  | timedOut {p q : Parser} (h : Budgeted g p) (hfills : p.Fills q) (steps elapsed : Nat) :
      Budgeted g (q.timedOut steps elapsed)

theorem Budgeted.reached (h : Budgeted g p) : Reached g p := by
  induction h with
  | created config => exact .created config
  | setConfig _ config _ ih => exact ih.setConfig config
  | setCosts _ costs ih => exact ih.setCosts costs
  | reset _ ih => exact ih.reset
  | begin _ ih => exact ih.begin
  | advance _ source ih => exact ih.advance source
  | parse _ source ih => exact ih.parse source
  | timedOut _ hfills steps elapsed ih => exact ih.timedOut hfills steps elapsed

include hg in
theorem Budgeted.allCapped (h : Budgeted g p) : p.chart.AllCapped p.config.maxErrorValue := by
  have hcarried : Carried g fun p => p.chart.AllCapped p.config.maxErrorValue :=
    .of_turn hg fun hp hturn hall => hturn.allCapped hg hp hall
  induction h with
  | created config => exact Chart.all_of_columns rfl
  | @setConfig p h config hsame ih =>
      cases hsame with
      | inl hstart =>
          have hcolumns := h.reached.unbegun hg hstart
          exact Chart.all_of_columns hcolumns
      | inr hceiling =>
          change p.chart.AllCapped config.maxErrorValue
          rwa [hceiling]
  | setCosts _ costs ih => exact ih
  | reset => exact Chart.all_of_columns rfl
  | begin h ih => exact hcarried.begun (h.reached.healthy hg) ih
  | advance h source ih => exact hcarried.advance (h.reached.healthy hg) ih source
  | parse h source ih => exact hcarried.parse hg (h.reached.healthy hg) ih source
  | timedOut h hfills steps elapsed ih =>
      have hp := h.reached.healthy hg
      exact (hfills.timedOut_turn hg hp steps elapsed).allCapped hg hp ih

/-- The cost of an accepted run is that of an item. -/
theorem acceptedCost_item (p : Parser) (cost : Nat) (h : p.acceptedCost = some cost) :
    ∃ id item, p.item? id = some item ∧ item.errorCost = cost := by
  rw [acceptedCost, forest?] at h
  split at h
  · rw [Option.bind_some, Forest.minCost, List.min?_eq_some_iff] at h
    obtain ⟨item, hmem, hcost⟩ := List.mem_map.mp h.1
    obtain ⟨id, -, hitem⟩ := List.mem_filterMap.mp hmem
    exact ⟨id, item, hitem, hcost⟩
  · simp at h

/-- While the ceiling stays as it is, no item costs more than the ceiling, no item
costs anything in the column where it began, and an accepted run is no dearer. -/
theorem budgeted_cost_le (d : GrammarDef) (g : Grammar) (hd : d.toGrammar = .ok g) (p : Parser)
    (hp : Budgeted g p) :
    (∀ id item, p.item? id = some item → item.errorCost ≤ p.config.maxErrorValue) ∧
      (∀ id item, p.item? id = some item → item.origin = id.column → item.errorCost = 0) ∧
      ∀ cost, p.acceptedCost = some cost → cost ≤ p.config.maxErrorValue := by
  have hg := d.toGrammar_numbered g hd
  have hitems := hp.allCapped hg
  have hceiling : ∀ id item, p.item? id = some item →
      item.errorCost ≤ p.config.maxErrorValue := by
    intro id item hitem
    exact (hitems id item hitem).1.1
  refine ⟨hceiling, ?_, ?_⟩
  · intro id item hitem horigin
    exact (hitems id item hitem).1.2.2 horigin
  · intro cost hcost
    obtain ⟨id, item, hitem, rfl⟩ := acceptedCost_item p cost hcost
    exact hceiling id item hitem

def steep : Parser :=
  ((fresh pair ⟨.continuous, 2, 0, 0, 0, 0⟩
    (.each fun _ w _ => if w.errorCost = 0 then ⟨1, maxCost⟩ else ⟨maxCost, maxCost⟩)).parse
      (TokenStream.ofList [⟨0, "a", .start⟩, ⟨0, "a", .start⟩])).parser

/-- The second token is read as `b`, at a cost below the ceiling. -/
theorem budgeted_cost_le_steep :
    steep.acceptedCost = some 1 ∧ 1 ≤ steep.config.maxErrorValue ∧
      ∀ id item, steep.item? id = some item → item.origin = id.column → item.errorCost = 0 := by
  have hbudgeted : Budgeted pair steep := .parse (.setCosts (.created _) _) _
  have hcost : steep.acceptedCost = some 1 := by decide +kernel
  obtain ⟨-, hown, haccepted⟩ := budgeted_cost_le pairDef pair rfl steep hbudgeted
  exact ⟨hcost, haccepted 1 hcost, hown⟩

end Parser
end EarleyChart
