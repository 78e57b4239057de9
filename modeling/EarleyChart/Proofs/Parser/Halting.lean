import EarleyChart.Proofs.Parser.Filling
import EarleyChart.Proofs.Parser.Recognition

/-!
The closure of a column ends, and so does a run. Where no limit on items stops it, the
queue is empty after finitely many items were taken, whatever the grammar, the ceiling
and the costs are; an item is queued again only where a cost has fallen. The closed
column holds an item for each dotted rule and each origin at most.
-/

namespace EarleyChart

theorem Grammar.length_keysUpTo_eq_sum (g : Grammar) (column : Nat) :
    (g.keysUpTo column).length =
      (column + 1) * (g.rules.toList.map fun r => r.rhs.length + 1).sum := by
  rw [g.length_keysUpTo, Parser.dottedRules, List.sum, List.foldr_map]

namespace Parser

/-- Taking items out of the queue until none is left, without a bound on their number.
The number of items taken comes first. -/
inductive Empties : Nat → Parser → Parser → Prop
  | done {p : Parser} (hpop : p.popItem.1 = none) : Empties 0 p p.popItem.2
  | take {p q r : Parser} {pops : Nat} {id : ItemId} {item : Item}
      (hpop : p.popItem = (some id, q)) (hlimit : q.limitError? = none)
      (hitem : q.item? id = some item) (hrest : Empties pops (q.process item) r) :
      Empties (pops + 1) p r

variable {g : Grammar} {p q : Parser}

/-- The bound on the steps of the closure does not cut a loop off that ends before it. -/
theorem Empties.closeFor {pops steps : Nat} (h : Empties pops p q) (hlt : pops < steps) :
    p.closeFor steps = (q, none) := by
  induction h generalizing steps with
  | @done p hpop =>
      obtain ⟨steps, rfl⟩ := Nat.exists_eq_succ_of_ne_zero (Nat.ne_of_gt hlt)
      rw [Parser.closeFor]
      generalize p.popItem = popped at hpop
      obtain ⟨id?, next⟩ := popped
      obtain rfl : id? = none := hpop
      rfl
  | take hpop hlimit hitem hrest ih =>
      obtain ⟨steps, rfl⟩ := Nat.exists_eq_succ_of_ne_zero (Nat.ne_of_gt (Nat.zero_lt_of_lt hlt))
      simp only [Parser.closeFor, hpop, hlimit, hitem]
      exact ih (Nat.lt_of_succ_lt_succ hlt)

theorem limitError?_eq_none (h : p.config.maxItems = 0) : p.limitError? = none := by
  simp [limitError?, h]

theorem empties_of_closable (hg : p.grammar.Numbered) (hc : p.chart.Closable p.grammar)
    (hmax : p.config.maxItems = 0) :
    ∃ pops r, Empties pops p r ∧ pops ≤ p.chart.potential p.grammar ∧ p.Continues r ∧
      r.chart.worklist.toList = [] := by
  -- Every item that is taken lowers the potential of the chart.
  induction hn : p.chart.potential p.grammar using Nat.strong_induction_on generalizing p with
  | _ n ih =>
  cases hpop : p.chart.worklist.pop.1 with
  | none =>
      have hdone : Empties 0 p p.popItem.2 := .done (by rw [popItem_eq]; exact hpop)
      rw [popItem_eq, popped_eq hpop] at hdone
      exact ⟨0, p, hdone, Nat.zero_le _, .refl hc, p.chart.worklist.pop_none hpop⟩
  | some id =>
      obtain ⟨hid, item, hitem⟩ := Chart.popped_item hc.valid.filed id hpop
      have hpopped := continues_popped hc hpop
      have hprocessed := hpopped.trans
        (continues_process (p := p.popped) hg hpopped.closable hitem hid)
      have htakes : p.chart.Takes p.grammar p.config.maxErrorValue
          (p.popped.process item).chart := by
        obtain ⟨tally, hprocess⟩ := process_eq p.popped item
        rw [hprocess]
        exact .intro id item hpop hitem
      obtain ⟨-, -, hlower⟩ := htakes.closable hg hc
      have hgrammar := hprocessed.grammar_eq
      obtain ⟨pops, r, hempties, hle, hcontinues, hempty⟩ :=
        ih ((p.popped.process item).chart.potential p.grammar) (hn ▸ hlower)
          (hgrammar.symm ▸ hg) (hgrammar.symm ▸ hprocessed.closable)
          (hprocessed.config_eq.symm ▸ hmax) (by rw [hgrammar])
      have htaken : p.popItem = (some id, p.popped) := by
        rw [← hpop]
        exact p.popItem_eq
      refine ⟨pops + 1, r, ?_, ?_, hprocessed.trans hcontinues, hempty⟩
      · exact .take htaken (limitError?_eq_none hmax) hitem hempties
      · omega

/-- The closure of every column ends, and so does every run. Where the number of items
is not limited, finitely many items are taken until the queue is empty; that is what
closing the column comes to, and each column then holds as many items as there are
dotted rules and origins at most. A step closes one such column or leaves the chart as
it is, and over any source the steps of a run come to an end. -/
theorem closure_halts (d : GrammarDef) (g : Grammar) (hd : d.toGrammar = .ok g) :
    (∀ q, Filled g q → q.config.maxItems = 0 → ∃ (pops : Nat) (closed : Parser),
      Empties pops q closed ∧ closed.chart.worklist.toList = [] ∧ q.close = (closed, none) ∧
        ∀ (k : Nat) (column : Column), closed.chart.columns[k]? = some column →
          column.size ≤ (k + 1) * (g.rules.toList.map fun r => r.rhs.length + 1).sum) ∧
    ∀ p, Reached g p → ∀ {σ : Type} [TokenSource σ] (source : σ),
      ((p.advance source).parser.chart = p.chart ∨
        ∃ q, Filled g q ∧ (p.advance source).parser = q.closeColumn.2) ∧
      Parses p source (p.parse source) := by
  have hg := d.toGrammar_numbered g hd
  constructor
  · intro q hq hmax
    obtain ⟨rfl, hclosable⟩ := hq.closable hg
    obtain ⟨pops, closed, hempties, hle, hcontinues, hempty⟩ :=
      empties_of_closable hg hclosable hmax
    have hbound := Chart.potential_lt q.grammar q.chart hclosable.valid hclosable.nonempty
    refine ⟨pops, closed, hempties, hempty, ?_, ?_⟩
    · exact hempties.closeFor (Nat.lt_of_le_of_lt hle hbound)
    · intro k column hcolumn
      have hsize := closed.chart.columnSize_le q.grammar hcontinues.closable.valid hcolumn
      rwa [Grammar.length_keysUpTo_eq_sum] at hsize
  · intro p hp σ _ source
    exact ⟨hp.advance_filled hg source, (hp.healthy hg).parses hg source⟩

def repeating : Parser :=
  let p := withConfig repetition ⟨.continuous, 3, 0, 0, 0, 0⟩
  { ({ p with state := .seeding, chart := p.chart.openColumn repetition none } : Parser).predict
      repetition.start with state := .closing }

/-- The closure ends where an item is derived from itself and nothing has to be read;
the column holds six items at most. -/
theorem closure_halts_repeating :
    (∃ (pops : Nat) (closed : Parser), Empties pops repeating closed ∧
      repeating.close = (closed, none) ∧
        ∀ column, closed.chart.columns[0]? = some column → column.size ≤ 6) ∧
      let source := TokenStream.ofList [⟨0, "a", .start⟩, ⟨0, "a", .start⟩]
      Parses (withConfig repetition .standard) source
        ((withConfig repetition .standard).parse source) := by
  have hfilled : Filled repetition repeating :=
    .first (p := withConfig repetition ⟨.continuous, 3, 0, 0, 0, 0⟩) (.created _) rfl rfl rfl
  obtain ⟨hhalts, hreturns⟩ := closure_halts repetitionDef repetition rfl
  obtain ⟨pops, closed, hempties, -, hclose, hsize⟩ := hhalts repeating hfilled (by decide +kernel)
  exact ⟨⟨pops, closed, hempties, hclose, hsize 0⟩, (hreturns _ (.created _) _).2⟩

end Parser
end EarleyChart
