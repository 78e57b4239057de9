import EarleyChart.Proofs.Chart.Ownership
import EarleyChart.Proofs.Parser.Integrity
import EarleyChart.Proofs.Parser.Turns

/-!
The redundant parts of a chart. A column files its items by identity, by the
symbol they wait for and by the nonterminal they complete, and the pool counts
the items of all columns. In every state of a parser all of this agrees with
the items themselves.
-/

namespace EarleyChart

structure Column.Tables (g : Grammar) (arena : Arena) (i : Nat) (c : Column) : Prop where
  index : c.index = i
  item : ∀ seq < c.size, ∃ item, c.get? arena seq = some item ∧ item.column = i ∧ item.seq = seq
  key : ∀ key seq, c.find? key = some seq ↔ ∃ item, c.get? arena seq = some item ∧ item.key = key
  waiting : ∀ symbol seq, seq ∈ (c.waitingOn symbol).toList ↔
    ∃ item, c.get? arena seq = some item ∧
      g.next? item.rule item.dot = if symbol = 0 then none else some symbol
  waiting_ascends : ∀ symbol, (c.waitingOn symbol).toList.Pairwise (· < ·)
  emptyEnds : ∀ symbol seq, seq ∈ (c.emptyEndsOf g symbol).toList ↔
    ∃ item, c.get? arena seq = some item ∧ g.next? item.rule item.dot = none ∧
      g.lhs item.rule = symbol ∧ item.origin = i
  emptyEnds_ascends : ∀ symbol, (c.emptyEndsOf g symbol).toList.Pairwise (· < ·)
  completed : c.completed = true ↔
    ∃ seq item, c.get? arena seq = some item ∧ g.next? item.rule item.dot = none ∧
      g.lhs item.rule = g.start ∧ item.origin = 0

structure Chart.Tables (g : Grammar) (c : Chart) : Prop where
  column : ∀ (i : Nat) (column : Column), c.columns[i]? = some column →
    column.Tables g c.arena i
  slots : c.slots.Nodup
  inUse : ∀ slot ∈ c.slots, c.arena.inUse[slot.index]? = some true
  live : c.arena.live = (c.columns.toList.map Column.size).sum

variable {g : Grammar}

theorem Item.awaited_iff (hg : g.Numbered) (item : Item) (symbol : SymbolId) :
    item.awaited g = symbol ↔
      g.next? item.rule item.dot = if symbol = 0 then none else some symbol := by
  split
  · next hzero => rw [hzero, Chart.awaited_eq_zero_iff g hg]
  · next hpositive => exact Chart.awaited_eq_iff g item symbol hpositive

theorem Item.ends_iff (item : Item) (symbol : SymbolId) (origin : Nat) :
    item.ends g symbol origin = true ↔
      g.next? item.rule item.dot = none ∧ g.lhs item.rule = symbol ∧ item.origin = origin := by
  simp [Item.ends, and_assoc]

theorem mem_filter_range_iff (size : Nat) (item? : Nat → Option Item) (p : Item → Bool)
    (hsize : ∀ seq item, item? seq = some item → seq < size) (seq : Nat) :
    seq ∈ (List.range size).filter (fun seq => (item? seq).any p) ↔
      ∃ item, item? seq = some item ∧ p item = true := by
  rw [List.mem_filter, List.mem_range, Option.any_eq_true]
  constructor
  · exact And.right
  · rintro ⟨item, hitem, hp⟩
    exact ⟨hsize seq item hitem, item, hitem, hp⟩

theorem Column.Filed.waitingOn_beyond {arena : Arena} {i : Nat} {c : Column}
    (h : c.Filed g arena i) (symbol : Nat) (hbeyond : ¬ symbol ≤ g.symbolCount) :
    c.waitingOn symbol = #[] := by
  have hnone : c.bySymbol[symbol]? = none := by
    rw [Array.getElem?_eq_none_iff, h.bySymbol_size]
    omega
  rw [Column.waitingOn, hnone, Option.getD_none]

/-- In a well-formed chart the tables of every column tell what its items are. -/
theorem Chart.Valid.tables (hg : g.Numbered) {c : Chart} (hc : c.Valid g) (i : Nat)
    (column : Column) (h : c.columns[i]? = some column) : column.Tables g c.arena i := by
  have hfiled := hc.filed.column i column h
  have hsize : ∀ seq item, column.get? c.arena seq = some item → seq < column.size := by
    intro seq item hitem
    exact (c.get?_isSome g hc.filed i column h seq).mp (by simp [hitem])
  have hdot : ∀ seq item, column.get? c.arena seq = some item → g.HasDot item.rule item.dot := by
    intro seq item hitem
    exact (hc.item ⟨i, seq⟩ item (by rwa [c.item?_eq _ column h])).dot
  have hascends : ∀ p : Nat → Bool, ((List.range column.size).filter p).Pairwise (· < ·) :=
    fun p => List.pairwise_lt_range.filter p
  constructor
  case index => exact hfiled.index
  case item =>
    intro seq hseq
    have hsome := (c.get?_isSome g hc.filed i column h seq).mpr hseq
    obtain ⟨item, hitem⟩ := Option.isSome_iff_exists.mp hsome
    have hid := hfiled.position seq item hitem
    exact ⟨item, hitem, congrArg ItemId.column hid, congrArg ItemId.seq hid⟩
  case key => exact hfiled.found
  case waiting =>
    intro symbol seq
    by_cases hsymbol : symbol ≤ g.symbolCount
    · rw [hfiled.waiting symbol hsymbol, mem_filter_range_iff _ _ _ hsize]
      simp only [beq_iff_eq, Item.awaited_iff hg]
    · rw [hfiled.waitingOn_beyond symbol hsymbol]
      constructor
      · simp
      · rintro ⟨item, hitem, hnext⟩
        have hpositive : symbol ≠ 0 := fun hzero => hsymbol (hzero ▸ Nat.zero_le _)
        rw [if_neg hpositive] at hnext
        exact absurd (g.next?_range hg _ _ _ hnext).2 hsymbol
  case waiting_ascends =>
    intro symbol
    by_cases hsymbol : symbol ≤ g.symbolCount
    · rw [hfiled.waiting symbol hsymbol]
      exact hascends _
    · rw [hfiled.waitingOn_beyond symbol hsymbol]
      exact .nil
  case emptyEnds =>
    intro symbol seq
    by_cases hsymbol : g.isNonterminal symbol = true
    · rw [hfiled.emptyEnds symbol hsymbol, mem_filter_range_iff _ _ _ hsize]
      simp only [Item.ends_iff]
    · rw [Column.emptyEndsOf, if_neg hsymbol]
      constructor
      · simp
      · rintro ⟨item, hitem, -, hlhs, -⟩
        have hnonterminal := g.lhs_nonterminal hg _ _ (hdot seq item hitem)
        exact absurd (hlhs ▸ hnonterminal) hsymbol
  case emptyEnds_ascends =>
    intro symbol
    by_cases hsymbol : g.isNonterminal symbol = true
    · rw [hfiled.emptyEnds symbol hsymbol]
      exact hascends _
    · rw [Column.emptyEndsOf, if_neg hsymbol]
      exact .nil
  case completed => simp only [hfiled.completed, Item.ends_iff]

namespace Chart

variable {c : Chart}

theorem Owns.insertAll (h : c.Owns) (news : List Candidate) : (c.insertAll g news).Owns := by
  induction news generalizing c with
  | nil => exact h
  | cons new news ih => exact ih (h.insert g new)

theorem Owns.predict (h : c.Owns) (symbol : SymbolId) : (c.predict g symbol).Owns := by
  rw [Chart.predict]
  split
  · exact (h.markNewest symbol).insertAll _
  · exact h

theorem Owns.process (h : c.Owns) (ceiling : Nat) (item : Item) :
    (c.process g ceiling item).Owns := by
  rw [Chart.process]
  cases g.next? item.rule item.dot with
  | none => exact h.insertAll _
  | some symbol =>
      simp only
      split
      · exact h.predict symbol
      · exact h

/-- The closure of a column takes a slot for every item, as far as it gets. -/
theorem Owns.takesAll {ceiling : Nat} {c' : Chart} (h : c.Owns) (hall : TakesAll g ceiling c c') :
    c'.Owns := by
  induction hall with
  | refl => exact h
  | tail _ hstep ih =>
      cases hstep with
      | intro id item _ _ => exact ih.popped.process ceiling item

end Chart

namespace Parser

variable {p next : Parser}

theorem ClosesTo.owns (h : p.ClosesTo next) (hg : p.grammar.Numbered)
    (hc : p.chart.Closable p.grammar) (howns : p.chart.Owns) : next.chart.Owns := by
  obtain ⟨before, queue, hall, hchart, -⟩ := h.takesAll hg hc
  rw [hchart]
  exact (howns.takesAll hall).requeued queue

theorem Turn.owns (hg : g.Numbered) (hp : p.Healthy g) (h : p.Turn g next)
    (howns : p.chart.Owns) : next.chart.Owns := by
  obtain rfl := hp.grammar_eq
  cases h with
  | stays hchart => rwa [hchart]
  | seeds tally hstart herror hcloses =>
      apply hcloses.owns hg (hp.seeded_closable hg herror tally)
      exact (howns.openColumn _ none).predict _
  | @reads hscanning token news hnews price hread requests tally hcloses =>
      apply hcloses.owns hg (hscanning.opened_closable hg hread requests tally)
      exact (howns.openColumn _ (some token)).insertAll news

theorem Reached.owns (hg : g.Numbered) (h : Reached g p) : p.chart.Owns := by
  apply h.kept hg fun p => p.chart.Owns
  case hturn => exact fun hp hturn howns => hturn.owns hg hp howns
  case hcreated => exact fun _ => Chart.owns_empty _
  case hconfig => exact fun _ _ howns => howns
  case hcosts => exact fun _ _ howns => howns
  case hreset => exact fun _ _ => Chart.owns_empty _

/-- Whatever was done with a parser, the tables of its columns and the pool agree
with the items. -/
theorem reached_tables_agree (d : GrammarDef) (g : Grammar) (hd : d.toGrammar = .ok g)
    (p : Parser) (hp : Reached g p) : p.chart.Tables g := by
  have hg := d.toGrammar_numbered g hd
  have hvalid := (hp.healthy hg).valid
  have howns := hp.owns hg
  constructor
  case column => exact hvalid.tables hg
  case slots => exact Chart.nodup_slots hvalid.filed
  case inUse => exact howns.handed hvalid.filed
  case live => exact howns.full.live.trans howns.count

def rerun : Parser :=
  ((cutShort.setConfig .standard).reset.parse
    (TokenStream.ofList [⟨0, "a", .start⟩, ⟨1, "b", .start⟩])).parser

/-- The tables agree where the closure of a column was broken off, and again after
the slots were used for another run. -/
theorem reached_tables_agree_rerun :
    cutShort.error = some (.itemLimitExceeded 4 3) ∧ cutShort.chart.Tables pair ∧
      rerun.state = .accepted ∧ rerun.chart.Tables pair := by
  have hcut : Reached pair cutShort := .parse (.setCosts (.created _) _) _
  have hrerun : Reached pair rerun := .parse (.reset (.setConfig hcut _)) _
  exact ⟨by decide +kernel, reached_tables_agree pairDef pair rfl cutShort hcut,
    by decide +kernel, reached_tables_agree pairDef pair rfl rerun hrerun⟩

end Parser
end EarleyChart
