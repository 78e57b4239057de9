import EarleyChart.Proofs.Parser.Closed
import EarleyChart.Proofs.Parser.Filling
import EarleyChart.Proofs.Parser.History

/-!
The chart is append-only. An operation leaves the columns that were there before as
they are, with their items. While the newest column is closed, items and links are
added at the end and costs fall, so that an identifier keeps its meaning from the
moment it is given out until the parser is reset.
-/

namespace EarleyChart
namespace Chart

structure Keeps (c c' : Chart) : Prop where
  column : ∀ i < c.columns.size, c'.columns[i]? = c.columns[i]?
  item : ∀ id, id.column < c.columns.size → c'.item? id = c.item? id

theorem Keeps.refl (c : Chart) : c.Keeps c := ⟨fun _ _ => rfl, fun _ _ => rfl⟩

theorem Keeps.size_le {c c' : Chart} (h : c.Keeps c') : c.columns.size ≤ c'.columns.size := by
  by_contra hlt
  have hlast := h.column c'.columns.size (Nat.lt_of_not_le hlt)
  rw [Array.getElem?_eq_none (Nat.le_refl _), eq_comm, Array.getElem?_eq_none_iff] at hlast
  exact hlt hlast

theorem Keeps.trans {a b c : Chart} (h : a.Keeps b) (k : b.Keeps c) : a.Keeps c where
  column i hi := by rw [k.column i (Nat.lt_of_lt_of_le hi h.size_le), h.column i hi]
  item id hid := by rw [k.item id (Nat.lt_of_lt_of_le hid h.size_le), h.item id hid]

theorem item?_lt {c : Chart} {id : ItemId} {item : Item} (h : c.item? id = some item) :
    id.column < c.columns.size := by
  obtain ⟨column, hcolumn, -⟩ := Option.bind_eq_some_iff.mp h
  exact (Array.getElem?_eq_some_iff.mp hcolumn).1

theorem Keeps.meaning {c c' : Chart} (h : c.Keeps c') (id : ItemId)
    (meaning : ItemKey × Option Link) (hid : c.meaning? id = some meaning) :
    c'.meaning? id = some meaning := by
  obtain ⟨item, hitem, rfl⟩ := Option.map_eq_some_iff.mp hid
  rw [meaning?, h.item id (item?_lt hitem), hitem]
  rfl

theorem keeps_opened {g : Grammar} {c c' : Chart} (token : Option Token)
    (hstacks : (c.openColumn g token).Stacks c')
    (hprogress : (c.openColumn g token).Progresses c') : c.Keeps c' := by
  have hcurrent := (c.current_openColumn g token).2
  constructor
  case column =>
    intro i hi
    rw [hstacks.older i (hcurrent ▸ Nat.ne_of_lt hi), columns_openColumn,
      if_neg (Nat.ne_of_lt hi)]
  case item =>
    intro id hid
    rw [hprogress.older id (hcurrent ▸ Nat.ne_of_lt hid), item?_openColumn]

end Chart

namespace Parser

variable {g : Grammar} {p q next : Parser} (hg : g.Numbered)

theorem ClosesTo.continues (h : p.ClosesTo next) (hg : p.grammar.Numbered)
    (hc : p.chart.Closable p.grammar) :
    p.chart.Stacks next.chart ∧ p.chart.Progresses next.chart := by
  have hcontinues := closeFor_continues (p := { p with state := .closing }) hg hc
  cases h with
  | whole =>
      rw [closeColumn_chart, close]
      exact ⟨(hcontinues _).stacked, (hcontinues _).progresses⟩
  | timedOut steps elapsed =>
      have hpopped := Chart.progresses_popped
        (({ p with state := .closing } : Parser).closeFor steps).1.chart
      exact ⟨(hcontinues steps).stacked.trans (.of_columns rfl),
        (hcontinues steps).progresses.trans hpopped⟩

include hg in
/-- What a beginning or an answer does to a chart leaves the columns as they are. -/
theorem Turn.keeps (hp : p.Healthy g) (h : p.Turn g next) (hblank : p.Unbegun) :
    p.chart.Keeps next.chart := by
  cases h with
  | stays hchart hconfig hstate =>
      rw [hchart]
      exact .refl _
  | seeds tally hstart =>
      -- There is no column yet, and so nothing to keep.
      have hempty := hblank hstart
      constructor
      · intro i hi
        rw [hempty] at hi
        contradiction
      · intro id hid
        rw [hempty] at hid
        contradiction
  | @reads hscanning token news hnews price hread requests tally hcloses =>
      have hclosable := hscanning.opened_closable hg hread requests tally
      have hextends := hscanning.opened_extends hg hread requests tally
      obtain rfl := hscanning.grammar_eq
      obtain ⟨hstacks, hprogress⟩ := hcloses.continues hg hclosable
      apply Chart.keeps_opened (some token)
      · exact (Chart.stacks_insertAll _ p.grammar news).trans hstacks
      · exact hextends.progresses.trans hprogress

include hg in
theorem carried_keeps (c : Chart) :
    Carried g fun p => p.Unbegun ∧ c.Keeps p.chart := by
  apply Carried.of_turn hg
  intro p next hp hturn h
  exact ⟨hturn.unbegun hg hp h.1, h.2.trans (hturn.keeps hg hp h.1)⟩

include hg in
theorem Reached.perform_keeps (h : Reached g p) {operation : Operation}
    (hkeep : operation ≠ .reset) : p.chart.Keeps (p.perform operation).2.chart := by
  have hhealthy := h.healthy hg
  have hcarried := carried_keeps hg p.chart
  have hstart : p.Unbegun ∧ p.chart.Keeps p.chart := ⟨h.unbegun hg, .refl _⟩
  cases operation with
  | setConfig | setCosts => exact .refl _
  | reset => contradiction
  | begin => exact (hcarried.begun hhealthy hstart).2
  | advance source => exact (hcarried.advance hhealthy hstart source).2
  | parse source => exact (hcarried.parse hg hhealthy hstart source).2

include hg in
theorem Reached.performAll_keeps (h : Reached g p) (operations : List Operation)
    (hkeep : .reset ∉ operations) : p.chart.Keeps (p.performAll operations).2.chart := by
  induction operations generalizing p with
  | nil => exact .refl _
  | cons operation rest ih =>
      have hfirst := h.perform_keeps hg fun heq => hkeep (heq ▸ List.mem_cons_self)
      have hlater := ih (h.perform operation) fun hmem => hkeep (List.mem_cons_of_mem _ hmem)
      exact hfirst.trans hlater

include hg in
/-- While a column is closed, it is only added to. -/
theorem Filled.appends (h : Filled g q) {steps more : Nat} (hle : steps ≤ more) :
    (q.closeFor steps).1.chart.Appends (q.closeFor more).1.chart := by
  obtain ⟨rfl, hclosable⟩ := h.closable hg
  have hcontinues := closeFor_continues hg hclosable steps
  obtain ⟨rest, rfl⟩ := Nat.exists_eq_add_of_le hle
  rw [closeFor_add]
  generalize q.closeFor steps = reached at hcontinues
  obtain ⟨last, error⟩ := reached
  have hvalid := hcontinues.closable
  rw [← hcontinues.grammar_eq] at hg hvalid
  cases error with
  | some e => exact (Continues.refl hvalid).appends hvalid.valid
  | none => exact (closeFor_continues hg hvalid rest).appends hvalid.valid

include hg in
/-- An identifier that is given out while a column is closed keeps its meaning. -/
theorem Filled.meaning (h : Filled g q) (steps : Nat) (id : ItemId)
    (meaning : ItemKey × Option Link)
    (hid : (q.closeFor steps).1.chart.meaning? id = some meaning) :
    q.closeColumn.2.chart.meaning? id = some meaning := by
  rw [closeColumn_chart, h.closing]
  have happends := h.appends hg (Nat.le_max_left steps q.closureBound)
  obtain ⟨rfl, hclosable⟩ := h.closable hg
  rw [← closeFor_eq_close hg hclosable (Nat.le_max_right steps q.closureBound)]
  exact happends.meaning id meaning hid

/-- The chart is append-only. Between two resets no column that is there changes any
more, nor do its items, whatever the operations are. An item that enters only adds to
the newest column, and so does the closure, however far it has got. What an identifier
stands for when it is given out, and the first link of its item, stay the same until
the parser is reset. -/
theorem chart_append_only (d : GrammarDef) (g : Grammar) (hd : d.toGrammar = .ok g) :
    (∀ p, Reached g p → ∀ operations : List Operation, .reset ∉ operations →
      p.chart.Keeps (p.performAll operations).2.chart) ∧
    (∀ (c : Chart) (new : Candidate), c.Valid g → 0 < c.columns.size → c.Fits g new →
      c.Appends (c.insert g new).1) ∧
    (∀ q, Filled g q → ∀ steps more : Nat, steps ≤ more →
      (q.closeFor steps).1.chart.Appends (q.closeFor more).1.chart) ∧
    ∀ q, Filled g q → ∀ (steps : Nat) (id : ItemId) (meaning : ItemKey × Option Link),
      (q.closeFor steps).1.chart.meaning? id = some meaning →
      ∀ operations : List Operation, .reset ∉ operations →
        (q.closeColumn.2.performAll operations).2.chart.meaning? id = some meaning := by
  have hg := d.toGrammar_numbered g hd
  refine ⟨?_, ?_, ?_, ?_⟩
  · intro p hp operations hkeep
    exact hp.performAll_keeps hg operations hkeep
  · intro c new hc hne hfits
    exact Chart.appends_insert hg hc hne hfits
  · intro q hq steps more hle
    exact hq.appends hg hle
  · intro q hq steps id meaning hid operations hkeep
    have hclosed := hq.meaning hg steps id meaning hid
    exact ((hq.closed hg).performAll_keeps hg operations hkeep).meaning id meaning hclosed

def filling : Parser :=
  { ({ repairing with
      state := .seeding, chart := repairing.chart.openColumn pair none } : Parser).predict
        pair.start with state := .closing }

/-- The seed of a run over `a a` means the same before the first column is closed and
after a token was dropped and another one read as `b`. -/
theorem chart_append_only_filling :
    let operations : List Operation :=
      [.parse (TokenStream.ofList [⟨0, "a", .start⟩, ⟨0, "a", .start⟩])]
    let run := filling.closeColumn.2.performAll operations
    filling.chart.meaning? ⟨0, 0⟩ = some (⟨0, 0, 0⟩, none) ∧ run.2.state = .accepted ∧
      run.2.columnCount = 3 ∧ filling.closeColumn.2.chart.Keeps run.2.chart ∧
      run.2.chart.meaning? ⟨0, 0⟩ = some (⟨0, 0, 0⟩, none) := by
  intro operations run
  have hreached : Reached pair repairing := .setCosts (.created _) _
  have hfilled : Filled pair filling := .first hreached rfl rfl rfl
  have hclosed := hfilled.closed (pairDef.toGrammar_numbered pair rfl)
  have hbefore : filling.chart.meaning? ⟨0, 0⟩ = some (⟨0, 0, 0⟩, none) := by decide +kernel
  obtain ⟨hkeeps, -, -, hmeaning⟩ := chart_append_only pairDef pair rfl
  have hnoReset : .reset ∉ operations := by simp [operations]
  exact ⟨hbefore, by decide +kernel, by decide +kernel,
    hkeeps _ hclosed operations hnoReset,
    hmeaning filling hfilled 0 _ _ hbefore operations hnoReset⟩

end Parser
end EarleyChart
