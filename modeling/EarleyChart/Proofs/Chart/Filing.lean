import EarleyChart.Proofs.Chart.Queue
import EarleyChart.Proofs.Grammar.Numbering

/-!
How a column files its items. The items are those that the slots of the column
hold; the identity index, the lists by awaited symbol, the table of completions
that began in the column and the mark of completeness all say the same about
them. Entering an item keeps this, and so does changing cost and derivations of
an item that is there.
-/

namespace EarleyChart

def Item.awaited (g : Grammar) (item : Item) : SymbolId :=
  (g.next? item.rule item.dot).getD 0

theorem Item.key_eq_iff {item : Item} {rule : RuleId} {dot origin : Nat} :
    item.key = ⟨rule, dot, origin⟩ ↔
      item.rule = rule ∧ item.dot = dot ∧ item.origin = origin := by
  simp [Item.key]

def Item.ends (g : Grammar) (symbol : SymbolId) (origin : Nat) (item : Item) : Bool :=
  (g.next? item.rule item.dot).isNone && g.lhs item.rule == symbol && item.origin == origin

def Grammar.HasDot (g : Grammar) (rule : RuleId) (dot : Nat) : Prop :=
  ∃ r, g.rule? rule = some r ∧ dot ≤ r.rhs.length

namespace Grammar

theorem hasDot_next (g : Grammar) (rule : RuleId) (dot : Nat) (symbol : SymbolId)
    (h : g.next? rule dot = some symbol) : g.HasDot rule dot ∧ g.HasDot rule (dot + 1) := by
  obtain ⟨r, hr, hsymbol⟩ := Option.bind_eq_some_iff.mp h
  have := (List.getElem?_eq_some_iff.mp hsymbol).1
  exact ⟨⟨r, hr, by omega⟩, r, hr, by omega⟩

theorem dot_of_end {g : Grammar} {rule dot : Nat} (h : g.HasDot rule dot)
    (hend : g.next? rule dot = none) : ∃ r, g.rule? rule = some r ∧ dot = r.rhs.length := by
  obtain ⟨r, hr, hdot⟩ := h
  refine ⟨r, hr, Nat.le_antisymm hdot ?_⟩
  simpa [next?, hr] using hend

theorem next?_length {g : Grammar} {rule : RuleId} {r : Rule}
    (hr : g.rule? rule = some r) : g.next? rule r.rhs.length = none := by
  simp [next?, hr]

theorem next?_range (g : Grammar) (hg : g.Numbered) (rule : RuleId) (dot symbol : Nat)
    (h : g.next? rule dot = some symbol) : 0 < symbol ∧ symbol ≤ g.symbolCount := by
  obtain ⟨r, hr, hsymbol⟩ := Option.bind_eq_some_iff.mp h
  have hterm := hg.rhs r (Array.mem_of_getElem? hr) symbol (List.mem_of_getElem? hsymbol)
  rw [Symbols.isTerminal_iff, Symbols.isNonterminal_iff] at hterm
  have : g.symbolCount = g.terminalCount + g.nonterminalCount := rfl
  omega

theorem lhs_nonterminal (g : Grammar) (hg : g.Numbered) (rule : RuleId) (dot : Nat)
    (h : g.HasDot rule dot) : g.isNonterminal (g.lhs rule) = true := by
  obtain ⟨r, hr, -⟩ := h
  simpa [lhs, hr] using hg.lhs r (Array.mem_of_getElem? hr)

end Grammar

namespace Column

/-- The tables of a column agree with the items in its slots. -/
structure Filed (g : Grammar) (arena : Arena) (i : Nat) (c : Column) : Prop where
  index : c.index = i
  position : ∀ seq item, c.get? arena seq = some item → item.id = ⟨i, seq⟩
  found : ∀ key seq, c.find? key = some seq ↔
    ∃ item, c.get? arena seq = some item ∧ item.key = key
  bySymbol_size : c.bySymbol.size = g.symbolCount + 1
  waiting : ∀ symbol ≤ g.symbolCount, (c.waitingOn symbol).toList =
    (List.range c.size).filter fun seq =>
      (c.get? arena seq).any fun item => item.awaited g == symbol
  predicted_size : c.predicted.size = g.symbolCount + 1
  emptyEnds_size : c.emptyEnds.size = g.nonterminalCount
  emptyEnds : ∀ symbol, g.isNonterminal symbol = true → (c.emptyEndsOf g symbol).toList =
    (List.range c.size).filter fun seq => (c.get? arena seq).any (·.ends g symbol i)
  completed : c.completed = true ↔
    ∃ seq item, c.get? arena seq = some item ∧ item.ends g g.start 0 = true

theorem filed_new (g : Grammar) (arena : Arena) (i : Nat) (token : Option Token) :
    (Column.new g i token).Filed g arena i where
  index := rfl
  position := by simp [new, get?]
  found := by simp [new, get?, find?]
  bySymbol_size := by simp [new]
  waiting := by
    intro symbol _
    simp only [new, waitingOn, Array.getElem?_replicate, size]
    split <;> simp
  predicted_size := by simp [new]
  emptyEnds_size := by simp [new]
  emptyEnds := by
    intro symbol _
    simp only [new, emptyEndsOf, Array.getElem?_replicate, size]
    split
    · split <;> simp
    · contradiction
  completed := by simp [new, get?]

/-- The tables look at positions and identities only. -/
theorem filed_congr (g : Grammar) (arena arena' : Arena) (i : Nat) (c : Column)
    (hc : c.Filed g arena i)
    (h : ∀ seq, (c.get? arena' seq).map (fun item => (item.id, item.key)) =
      (c.get? arena seq).map fun item => (item.id, item.key)) : c.Filed g arena' i := by
  have hany : ∀ (p : Item → Bool) (q : ItemId × ItemKey → Bool),
      (∀ item, p item = q (item.id, item.key)) → ∀ seq,
        (c.get? arena' seq).any p = (c.get? arena seq).any p := by
    intro p q hp seq
    have := congrArg (Option.any q) (h seq)
    simpa only [Option.any_map, Function.comp_def, ← hp] using this
  have hback : ∀ seq item, c.get? arena' seq = some item →
      ∃ old, c.get? arena seq = some old ∧ old.id = item.id ∧ old.key = item.key := by
    intro seq item hitem
    have hseq := h seq
    rw [hitem, Option.map_some, eq_comm, Option.map_eq_some_iff] at hseq
    obtain ⟨old, hold, heq⟩ := hseq
    rw [Prod.mk.injEq] at heq
    exact ⟨old, hold, heq⟩
  have hforth : ∀ seq old, c.get? arena seq = some old →
      ∃ item, c.get? arena' seq = some item ∧ item.id = old.id ∧ item.key = old.key := by
    intro seq old hold
    have hseq := h seq
    rw [hold, Option.map_some, Option.map_eq_some_iff] at hseq
    obtain ⟨item, hitem, heq⟩ := hseq
    rw [Prod.mk.injEq] at heq
    exact ⟨item, hitem, heq⟩
  constructor
  case index => exact hc.index
  case position =>
    intro seq item hitem
    obtain ⟨old, hold, hid, -⟩ := hback seq item hitem
    rw [← hid, hc.position seq old hold]
  case found =>
    intro key seq
    rw [hc.found]
    constructor
    · rintro ⟨old, hold, rfl⟩
      obtain ⟨item, hitem, -, hkey⟩ := hforth seq old hold
      exact ⟨item, hitem, hkey⟩
    · rintro ⟨item, hitem, rfl⟩
      obtain ⟨old, hold, -, hkey⟩ := hback seq item hitem
      exact ⟨old, hold, hkey⟩
  case bySymbol_size => exact hc.bySymbol_size
  case waiting =>
    intro symbol hsymbol
    rw [hc.waiting symbol hsymbol]
    refine List.filter_congr fun seq _ => (hany _ (fun pair =>
      (g.next? pair.2.rule pair.2.dot).getD 0 == symbol) (fun _ => rfl) seq).symm
  case predicted_size => exact hc.predicted_size
  case emptyEnds_size => exact hc.emptyEnds_size
  case emptyEnds =>
    intro symbol hsymbol
    rw [hc.emptyEnds symbol hsymbol]
    refine List.filter_congr fun seq _ => (hany _ (fun pair =>
      (g.next? pair.2.rule pair.2.dot).isNone && g.lhs pair.2.rule == symbol &&
        pair.2.origin == i) (fun _ => rfl) seq).symm
  case completed =>
    have hends : ∀ a b : Item, a.key = b.key → a.ends g g.start 0 = b.ends g g.start 0 := by
      intro a b hkey
      simp only [Item.key, ItemKey.mk.injEq] at hkey
      simp only [Item.ends, hkey]
    rw [hc.completed]
    constructor
    · rintro ⟨seq, old, hold, h⟩
      obtain ⟨item, hitem, -, hkey⟩ := hforth seq old hold
      exact ⟨seq, item, hitem, by rwa [hends item old hkey]⟩
    · rintro ⟨seq, item, hitem, h⟩
      obtain ⟨old, hold, -, hkey⟩ := hback seq item hitem
      exact ⟨seq, old, hold, by rwa [hends old item hkey]⟩

theorem filed_markPredicted (g : Grammar) (arena : Arena) (i : Nat) (c : Column)
    (hc : c.Filed g arena i) (symbol : SymbolId) : (c.markPredicted symbol).Filed g arena i := by
  obtain ⟨index, token, slots, bySymbol, predicted, emptyEnds, keys, completed⟩ := c
  exact { hc with predicted_size := by simpa [markPredicted] using hc.predicted_size }

end Column
end EarleyChart
