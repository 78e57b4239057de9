import EarleyChart.Parser.Run
import EarleyChart.Proofs.Parser.Append
import EarleyChart.Proofs.Parser.Saturation
import EarleyChart.Proofs.Parser.Termination

/-!
The closure of the newest column as a chain of steps, each of which takes an
item out of the queue and processes it. The chain ends with an empty queue, or
at the limit on items; the bound on its length plays no part. What taking an item
and processing one keep is kept however far the closure has got, and the clock may
break it off anywhere.
-/

namespace EarleyChart
namespace Chart

inductive Takes (g : Grammar) (ceiling : Nat) (c : Chart) : Chart → Prop
  | intro (id : ItemId) (item : Item) (hpop : c.worklist.pop.1 = some id)
      (hitem : c.popped.item? id = some item) : Takes g ceiling c (c.popped.process g ceiling item)

variable {g : Grammar} (hg : g.Numbered) {ceiling : Nat} {c : Chart}

theorem popped_valid (hc : c.Valid g) (id : ItemId) (h : c.worklist.pop.1 = some id) :
    c.popped.Valid g :=
  ⟨(c.filed_popped g hc.filed id h).1, fun other item hitem =>
    (hc.item other item hitem).grows ⟨fun _ item h => ⟨item, h, rfl, Nat.le_refl _,
      List.prefix_refl _⟩, fun _ _ h => h⟩⟩

/-- A queued item is in the newest column. -/
theorem popped_item (hc : c.Filed g) (id : ItemId) (h : c.worklist.pop.1 = some id) :
    id.column = c.current ∧ ∃ item, c.popped.item? id = some item := by
  obtain ⟨-, hlist⟩ := c.filed_popped g hc id h
  exact hc.queued id (by simp [hlist])

/-- What is queued plays no part in the items. -/
theorem progresses_requeued (c : Chart) (queue : Worklist) :
    c.Progresses { c with worklist := queue } :=
  ⟨rfl, fun _ => rfl, fun _ _ _ => rfl,
    ⟨fun _ item h => ⟨item, h, rfl, Nat.le_refl _, List.prefix_refl _⟩, fun _ _ h => h⟩,
    fun _ _ => rfl⟩

theorem progresses_popped (c : Chart) : c.Progresses c.popped := c.progresses_requeued _

/-- What one step of the closure keeps. -/
structure Closable (g : Grammar) (c : Chart) : Prop where
  valid : c.Valid g
  nonempty : 0 < c.columns.size

include hg in
theorem Takes.closable {c' : Chart} (h : c.Takes g ceiling c') (hc : c.Closable g) :
    c'.Closable g ∧ c.Progresses c' ∧ c'.potential g < c.potential g := by
  obtain ⟨id, item, hpop, hitem⟩ := h
  have hvalid := popped_valid hc.valid id hpop
  have hid := (popped_item hc.valid.filed id hpop).1
  obtain ⟨hvalid', hprogress⟩ := process_valid hg hvalid hc.nonempty ceiling id item hitem hid
  have hle := process_potential_le hg hvalid hc.nonempty ceiling id item hitem hid
  have hpot := c.popped_potential g hc.valid.filed id hpop
  exact ⟨⟨hvalid', by rw [hprogress.size]; exact hc.nonempty⟩,
    c.progresses_popped.trans hprogress, by omega⟩

include hg in
theorem Takes.closing {c' : Chart} (h : c.Takes g ceiling c')
    (hc : c.Closing g ceiling fun id => id ∈ c.worklist.toList) :
    c'.Closing g ceiling fun id => id ∈ c'.worklist.toList := by
  obtain ⟨id, item, hpop, hitem⟩ := h
  obtain ⟨-, hlist⟩ := c.filed_popped g hc.valid.filed id hpop
  refine closing_process hg id item ⟨popped_valid hc.valid id hpop, hc.nonempty, hc.marks,
    ?_, ?_⟩ hitem (popped_item hc.valid.filed id hpop).1
  · intro other item' symbol hitem' hcolumn hnext hsymbol hpending
    refine hc.predicts other item' symbol hitem' hcolumn hnext hsymbol fun hmem => hpending ?_
    simpa [hlist] using hmem
  · intro last last' other item' hlast' hcolumn hend hitem' horigin hnext hcost hpending
    refine hc.completes last last' other item' hlast' hcolumn hend hitem' horigin hnext hcost
      fun hmem => hpending ?_
    simpa [hlist] using hmem

/-- The closure as far as it got. -/
abbrev TakesAll (g : Grammar) (ceiling : Nat) : Chart → Chart → Prop :=
  Relation.ReflTransGen (Takes g ceiling)

include hg in
theorem TakesAll.closable {c' : Chart} (h : TakesAll g ceiling c c') (hc : c.Closable g) :
    c'.Closable g ∧ c.Progresses c' := by
  induction h with
  | refl => exact ⟨hc, .refl c⟩
  | tail _ hstep ih =>
      obtain ⟨hclosable, hprogress, -⟩ := hstep.closable hg ih.1
      exact ⟨hclosable, ih.2.trans hprogress⟩

include hg in
theorem TakesAll.closing {c' : Chart} (h : TakesAll g ceiling c c')
    (hc : c.Closing g ceiling fun id => id ∈ c.worklist.toList) :
    c'.Closing g ceiling fun id => id ∈ c'.worklist.toList := by
  induction h with
  | refl => exact hc
  | tail _ hstep ih => exact hstep.closing hg ih

include hg in
/-- A closure that leaves nothing queued saturates the newest column. -/
theorem TakesAll.saturated {c' : Chart} (h : TakesAll g ceiling c c')
    (hc : c.Closing g ceiling fun id => id ∈ c.worklist.toList)
    (hidle : c'.worklist.toList = []) : c'.Saturated g ceiling c.current := by
  have hprogress := (h.closable hg ⟨hc.valid, hc.nonempty⟩).2
  rw [← hprogress.current]
  apply (h.closing hg hc).saturated
  simp [hidle]

end Chart

namespace Parser

variable {p q : Parser}

def popped (p : Parser) : Parser := { p with chart := p.chart.popped }

theorem popItem_eq (p : Parser) : p.popItem = (p.chart.worklist.pop.1, p.popped) := rfl

theorem popped_eq (h : p.chart.worklist.pop.1 = none) : p.popped = p := by
  rw [popped, Chart.popped, p.chart.worklist.pop_none_eq h]

theorem closeFor_succ (p : Parser) (steps : Nat) : p.closeFor (steps + 1) =
    match p.chart.worklist.pop.1 with
    | none => (p, none)
    | some id =>
        match p.popped.limitError? with
        | some e => (p.popped, some e)
        | none =>
            match p.popped.item? id with
            | none =>
                (p.popped, some (.internal s!"queued item {id.render} is not in the chart"))
            | some item => (p.popped.process item).closeFor steps := by
  rw [closeFor, popItem_eq]
  cases hpop : p.chart.worklist.pop.1 with
  | none => simp only [popped_eq hpop]
  | some id => rfl

/-- How the closure of a column ends: with an empty queue, or at the limit on
items with an item taken but not processed. -/
structure Closes (p : Parser) (chart : Chart) (error : Option ParseError) : Prop where
  done : error = none → Chart.TakesAll p.grammar p.config.maxErrorValue p.chart chart ∧
    chart.worklist.toList = []
  limit : ∀ e, error = some e → 0 < p.config.maxItems ∧
    (∃ n, e = .itemLimitExceeded n p.config.maxItems) ∧
    ∃ before id, Chart.TakesAll p.grammar p.config.maxErrorValue p.chart before ∧
      before.worklist.pop.1 = some id ∧ chart = before.popped

/-- With enough steps allowed, the closure ends by itself. -/
theorem closeFor_spec (steps : Nat) (p : Parser) (hg : p.grammar.Numbered)
    (hc : p.chart.Closable p.grammar) (hsteps : p.chart.potential p.grammar < steps) :
    ∃ chart tally error, p.closeFor steps = ({ p with chart := chart, tally := tally }, error) ∧
      p.Closes chart error := by
  induction steps generalizing p with
  | zero => omega
  | succ steps ih =>
      rw [closeFor_succ]
      cases hpop : p.chart.worklist.pop.1 with
      | none =>
          refine ⟨p.chart, p.tally, none, rfl, ?_, by simp⟩
          exact fun _ => ⟨.refl, p.chart.worklist.pop_none hpop⟩
      | some id =>
          simp only
          cases hlimit : p.popped.limitError? with
          | some e =>
              refine ⟨p.chart.popped, p.tally, some e, rfl, by simp, ?_⟩
              rintro _ ⟨⟩
              simp only [limitError?] at hlimit
              split at hlimit
              · next hmax =>
                  obtain rfl := Option.some.inj hlimit
                  exact ⟨hmax.1, ⟨_, rfl⟩, p.chart, id, .refl, hpop, rfl⟩
              · contradiction
          | none =>
              obtain ⟨-, item, hitem⟩ := Chart.popped_item hc.valid.filed id hpop
              have hget : p.popped.item? id = some item := hitem
              have htakes : p.chart.Takes p.grammar p.config.maxErrorValue _ :=
                .intro id item hpop hitem
              obtain ⟨hclosable, -, hpotential⟩ := htakes.closable hg hc
              obtain ⟨tally, hprocess⟩ := process_eq p.popped item
              simp only [hget]
              rw [hprocess]
              let next : Parser := { p with
                chart := p.chart.popped.process p.grammar p.config.maxErrorValue item
                tally := tally }
              obtain ⟨chart, tally', error, heq, hcloses⟩ := ih next hg hclosable
                (Nat.lt_of_lt_of_le hpotential (Nat.le_of_lt_succ hsteps))
              refine ⟨chart, tally', error, heq, fun h => ?_, fun e he => ?_⟩
              · obtain ⟨hall, hempty⟩ := hcloses.done h
                exact ⟨.head htakes hall, hempty⟩
              · obtain ⟨hmax, hkind, before, other, hall, hrest⟩ := hcloses.limit e he
                exact ⟨hmax, hkind, before, other, .head htakes hall, hrest⟩

/-- The closure of the newest column ends by itself. -/
theorem close_spec (p : Parser) (hg : p.grammar.Numbered) (hc : p.chart.Closable p.grammar) :
    ∃ chart tally error, p.close = ({ p with chart := chart, tally := tally }, error) ∧
      p.Closes chart error :=
  closeFor_spec _ p hg hc (Chart.potential_lt p.grammar p.chart hc.valid hc.nonempty)

structure Continues (p q : Parser) : Prop where
  grammar_eq : q.grammar = p.grammar
  config_eq : q.config = p.config
  closable : q.chart.Closable p.grammar
  stacked : p.chart.Stacks q.chart
  progresses : p.chart.Progresses q.chart

theorem Continues.refl (hc : p.chart.Closable p.grammar) : p.Continues p :=
  ⟨rfl, rfl, hc, .of_columns rfl, .refl _⟩

theorem Continues.trans {a b c : Parser} (h : a.Continues b) (k : b.Continues c) :
    a.Continues c where
  grammar_eq := k.grammar_eq.trans h.grammar_eq
  config_eq := k.config_eq.trans h.config_eq
  closable := h.grammar_eq ▸ k.closable
  stacked := h.stacked.trans k.stacked
  progresses := h.progresses.trans k.progresses

theorem Continues.appends (h : p.Continues q) (hc : p.chart.Valid p.grammar) :
    p.chart.Appends q.chart :=
  h.stacked.appends h.progresses hc h.closable.valid

theorem continues_popped (hc : p.chart.Closable p.grammar) {id : ItemId}
    (hpop : p.chart.worklist.pop.1 = some id) : p.Continues p.popped where
  grammar_eq := rfl
  config_eq := rfl
  closable := ⟨Chart.popped_valid hc.valid id hpop, hc.nonempty⟩
  stacked := .of_columns rfl
  progresses := p.chart.progresses_popped

theorem continues_process (hg : p.grammar.Numbered) (hc : p.chart.Closable p.grammar)
    {id : ItemId} {item : Item} (hitem : p.item? id = some item)
    (hid : id.column = p.chart.current) : p.Continues (p.process item) := by
  obtain ⟨tally, hprocess⟩ := process_eq p item
  obtain ⟨hvalid, hprogress⟩ := Chart.process_valid hg hc.valid hc.nonempty
    p.config.maxErrorValue id item hitem hid
  rw [hprocess]
  constructor
  case grammar_eq => rfl
  case config_eq => rfl
  case closable => exact ⟨hvalid, by rw [hprogress.size]; exact hc.nonempty⟩
  case stacked => exact p.chart.stacks_process p.grammar p.config.maxErrorValue item
  case progresses => exact hprogress

theorem popped_closable {g : Grammar} (hc : p.chart.Closable g) : p.popped.chart.Closable g := by
  cases hpop : p.chart.worklist.pop.1 with
  | none => rwa [popped_eq hpop]
  | some id => exact ⟨Chart.popped_valid hc.valid id hpop, hc.nonempty⟩

section closure

variable (property : Parser → Prop)
  (hpopped : ∀ {p : Parser} {id : ItemId}, p.chart.worklist.pop.1 = some id → property p →
    property p.popped)
  (hprocess : ∀ {p : Parser} {id : ItemId} {item : Item}, p.chart.worklist.pop.1 = some id →
    p.popped.item? id = some item → property p → property (p.popped.process item))

include hpopped hprocess in
/-- What is kept when an item is taken and when it is processed is kept by the closure. -/
theorem closeFor_induct (steps : Nat) (h : property p) : property (p.closeFor steps).1 := by
  induction steps generalizing p with
  | zero => exact h
  | succ steps ih =>
      rw [closeFor_succ]
      cases hpop : p.chart.worklist.pop.1 with
      | none => exact h
      | some id =>
          simp only
          split
          · exact hpopped hpop h
          · split
            · exact hpopped hpop h
            · next item hitem => exact ih (hprocess hpop hitem h)

include hpopped hprocess in
/-- What the closure keeps, wherever the run stands, is kept when a column is closed. -/
theorem closeColumn_induct
    (hended : ∀ {p : Parser} (state : EngineState) (error : Option ParseError),
      property p → property { p with state := state, error := error })
    (h : property p) : property p.closeColumn.2 := by
  have hclose : property ({ p with state := .closing } : Parser).close.1 :=
    closeFor_induct property hpopped hprocess _ (hended .closing p.error h)
  rw [closeColumn]
  generalize ({ p with state := .closing } : Parser).close = closed at hclose
  obtain ⟨q, error?⟩ := closed
  cases error? with
  | none => exact hended .scanning q.error hclose
  | some e => exact hended q.state (some e) hclose

end closure

/-- What is kept whichever item is taken or processed is kept by the closure. -/
theorem closeFor_kept (property : Parser → Prop)
    (hpopped : ∀ {p : Parser}, property p → property p.popped)
    (hprocess : ∀ {p : Parser} (item : Item), property p → property (p.process item))
    (steps : Nat) (h : property p) : property (p.closeFor steps).1 :=
  closeFor_induct property (fun _ => hpopped) (fun _ _ hp => hprocess _ (hpopped hp)) steps h

theorem closeColumn_kept (property : Parser → Prop)
    (hpopped : ∀ {p : Parser}, property p → property p.popped)
    (hprocess : ∀ {p : Parser} (item : Item), property p → property (p.process item))
    (hended : ∀ {p : Parser} (state : EngineState) (error : Option ParseError),
      property p → property { p with state := state, error := error })
    (h : property p) : property p.closeColumn.2 :=
  closeColumn_induct property (fun _ => hpopped) (fun _ _ hp => hprocess _ (hpopped hp)) hended h

/-- However far the closure has got, it has only added to the newest column. -/
theorem closeFor_continues (hg : p.grammar.Numbered) (hc : p.chart.Closable p.grammar)
    (steps : Nat) : p.Continues (p.closeFor steps).1 := by
  have hpopped : ∀ {q : Parser} {id : ItemId}, q.chart.worklist.pop.1 = some id →
      p.Continues q → p.Continues q.popped := by
    intro q id hpop hq
    exact hq.trans (continues_popped (hq.grammar_eq.symm ▸ hq.closable) hpop)
  apply closeFor_induct
  case hpopped => exact hpopped
  case hprocess =>
    intro q id item hpop hitem hq
    -- Only items of the newest column are queued, and processing one stays there.
    have hid := (Chart.popped_item hq.closable.valid.filed id hpop).1
    have hnext := hpopped hpop hq
    rw [← hnext.grammar_eq] at hg
    exact hnext.trans (continues_process hg (hnext.grammar_eq.symm ▸ hnext.closable) hitem hid)
  case h => exact .refl hc

theorem closeFor_idle (h : p.chart.worklist.toList = []) (steps : Nat) :
    p.closeFor steps = (p, none) := by
  cases steps with
  | zero => rfl
  | succ steps =>
      have hpop := p.chart.worklist.toList_pop
      rw [h] at hpop
      rw [closeFor_succ, (Prod.mk.inj hpop).1]
      rfl

/-- A closure that is given more steps goes on from where it was before. -/
theorem closeFor_add (p : Parser) (steps more : Nat) : p.closeFor (steps + more) =
    match p.closeFor steps with
    | (q, some e) => (q, some e)
    | (q, none) => q.closeFor more := by
  induction steps generalizing p with
  | zero => rw [Nat.zero_add, closeFor]
  | succ steps ih =>
      rw [Nat.succ_add, closeFor_succ, closeFor_succ]
      cases hpop : p.chart.worklist.pop.1 with
      | none =>
          cases more with
          | zero => rfl
          | succ more => simp only [closeFor_succ, hpop]
      | some id =>
          simp only
          split
          · rfl
          · split
            · rfl
            · exact ih _

/-- The bound on the steps of the closure plays no part. -/
theorem closeFor_eq_close (hg : p.grammar.Numbered) (hc : p.chart.Closable p.grammar)
    {steps : Nat} (h : p.closureBound ≤ steps) : p.closeFor steps = p.close := by
  obtain ⟨chart, tally, error, heq, hcloses⟩ := close_spec p hg hc
  obtain ⟨more, rfl⟩ := Nat.exists_eq_add_of_le h
  rw [close] at heq
  rw [closeFor_add, close, heq]
  -- Without an error the queue is empty, and further steps find nothing to take.
  cases error with
  | none => exact closeFor_idle (hcloses.done rfl).2 more
  | some e => rfl

theorem closeColumn_chart (p : Parser) :
    p.closeColumn.2.chart = ({ p with state := .closing } : Parser).close.1.chart := by
  rw [closeColumn]
  split
  · next heq => rw [heq]; rfl
  · next heq => rw [heq]

/-- Wherever the closure has got to, the chart is one that it reaches by taking items, but
for the queue, which an item has left that is not processed. -/
theorem closeFor_takesAll (hg : p.grammar.Numbered) (hc : p.chart.Closable p.grammar)
    (steps : Nat) : ∃ before queue,
      Chart.TakesAll p.grammar p.config.maxErrorValue p.chart before ∧
        (p.closeFor steps).1.chart = { before with worklist := queue } := by
  induction steps generalizing p with
  | zero => exact ⟨p.chart, p.chart.worklist, .refl, rfl⟩
  | succ steps ih =>
      have hstopped : ∃ before queue,
          Chart.TakesAll p.grammar p.config.maxErrorValue p.chart before ∧
            p.popped.chart = { before with worklist := queue } := ⟨p.chart, _, .refl, rfl⟩
      rw [closeFor_succ]
      cases hpop : p.chart.worklist.pop.1 with
      | none => exact ⟨p.chart, p.chart.worklist, .refl, rfl⟩
      | some id =>
          simp only
          split
          · exact hstopped
          · split
            · exact hstopped
            · next item hitem =>
                have htakes : p.chart.Takes p.grammar p.config.maxErrorValue _ :=
                  .intro id item hpop hitem
                obtain ⟨tally, hprocess⟩ := process_eq p.popped item
                rw [hprocess]
                obtain ⟨before, queue, hall, hchart⟩ := ih (p := { p.popped with
                  chart := p.popped.chart.process p.grammar p.config.maxErrorValue item
                  tally := tally }) hg (htakes.closable hg hc).1
                exact ⟨before, queue, .head htakes hall, hchart⟩

theorem closeFor_state (p : Parser) (steps : Nat) : (p.closeFor steps).1.state = p.state := by
  apply closeFor_kept fun q => q.state = p.state
  case hpopped => exact id
  case hprocess =>
    intro q item h
    obtain ⟨tally, heq⟩ := process_eq q item
    rwa [heq]
  case h => rfl

/-- Where the clock breaks off a closure, when it is looked at after an item was taken. -/
def timedOut (p : Parser) (steps elapsed : Nat) : Parser :=
  (p.closeFor steps).1.popped.fail (.timeoutExceeded elapsed p.config.timeoutMs)

def seeded (p : Parser) (tally : Tally) : Parser :=
  { p with
    state := .seeding
    chart := (p.chart.openColumn p.grammar none).predict p.grammar p.grammar.start
    tally := tally }

def opened (p : Parser) (token : Token) (news : List Candidate) (requests : List CostRequest)
    (tally : Tally) : Parser :=
  { p with
    chart := (p.chart.openColumn p.grammar (some token)).insertAll p.grammar news
    requests := requests
    tally := tally }

/-- The rules of the start symbol are entered into the first column. -/
theorem exists_seeded (p : Parser) : ∃ tally,
    ({ p with state := .seeding, chart := p.chart.openColumn p.grammar none } : Parser).predict
      p.grammar.start = p.seeded tally := predict_eq _ _

/-- The readings of a token are entered into the column that is opened for it. -/
theorem exists_opened (p : Parser) (token : Token) (news : List Candidate)
    (requests : List CostRequest) (tally : Tally) : ∃ tally',
    openColumn { p with requests := requests, tally := tally } token news =
      p.opened token news requests tally' := insertAll_eq _ news

/-- A run that has rules to begin with fills the first column and closes it. -/
theorem seed_of_rules (hrules : p.grammar.rulesFor p.grammar.start ≠ []) :
    ∃ tally, p.seed = (p.seeded tally).closeColumn := by
  obtain ⟨tally, hseeded⟩ := p.exists_seeded
  refine ⟨tally, ?_⟩
  rw [seed, if_neg fun hempty => hrules (List.isEmpty_iff.mp hempty)]
  simp only [hseeded]

/-- A run that begins fails at once, or fills the first column and closes it. -/
theorem seed_cases (p : Parser) :
    (∃ reason, p.seed = (.error (.invalidGrammar reason), p.fail (.invalidGrammar reason))) ∨
      ∃ tally, p.seed = (p.seeded tally).closeColumn := by
  by_cases hrules : p.grammar.rulesFor p.grammar.start = []
  · rw [seed, if_pos (List.isEmpty_iff.mpr hrules)]
    exact .inl ⟨_, rfl⟩
  · exact .inr (seed_of_rules hrules)

end Parser
end EarleyChart
