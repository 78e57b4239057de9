import EarleyChart.Parser.Recovery
import EarleyChart.Proofs.Chart.Agreement

/-!
The candidates that a filed chart leads to, in terms of its items: predictions,
completions, scans and the items that a correction is asked for. The lists by
symbol are gone from these descriptions; an item is known by its position.
-/

namespace EarleyChart
namespace Chart

variable (g : Grammar) (c : Chart) (hc : c.Filed g)

include hc in
theorem item_id (id : ItemId) (item : Item) (h : c.item? id = some item) : item.id = id := by
  obtain ⟨column, hcolumn, hget⟩ := Option.bind_eq_some_iff.mp h
  exact (hc.column _ _ hcolumn).position id.seq item hget

include hc in
/-- An identity occurs at most once in a column. -/
theorem item_unique (a b : ItemId) (first second : Item) (ha : c.item? a = some first)
    (hb : c.item? b = some second) (hcolumn : a.column = b.column)
    (hkey : first.key = second.key) : a = b ∧ first = second := by
  obtain ⟨column, hcol, hget⟩ := Option.bind_eq_some_iff.mp ha
  obtain ⟨other, hother, hget'⟩ := Option.bind_eq_some_iff.mp hb
  rw [hcolumn, hother] at hcol
  obtain rfl := Option.some.inj hcol
  have hfound := (hc.column _ _ hother).found
  have hfirst := (hfound first.key a.seq).mpr ⟨first, hget, rfl⟩
  have hsecond := (hfound first.key b.seq).mpr ⟨second, hget', hkey.symm⟩
  have hseq : a.seq = b.seq := Option.some.inj (hfirst.symm.trans hsecond)
  have heq : a = b := by
    obtain ⟨i, s⟩ := a
    simp_all
  subst heq
  exact ⟨rfl, Option.some.inj (ha.symm.trans hb)⟩

theorem column_lt (id : ItemId) (item : Item) (h : c.item? id = some item) :
    id.column ≤ c.current := by
  obtain ⟨column, hcolumn, -⟩ := Option.bind_eq_some_iff.mp h
  have := (Array.getElem?_eq_some_iff.mp hcolumn).1
  rw [current]
  omega

/-- The symbol zero is awaited at the end of a rule only. -/
theorem awaited_eq_iff (item : Item) (symbol : Nat) (h : symbol ≠ 0) :
    item.awaited g = symbol ↔ g.next? item.rule item.dot = some symbol := by
  rw [Item.awaited]
  cases hnext : g.next? item.rule item.dot with
  | none => simpa using h.symm
  | some other => simp

theorem awaited_eq_zero_iff (hg : g.Numbered) (item : Item) :
    item.awaited g = 0 ↔ g.next? item.rule item.dot = none := by
  rw [Item.awaited]
  cases hnext : g.next? item.rule item.dot with
  | none => simp
  | some symbol =>
      have := (g.next?_range hg _ _ _ hnext).1
      simpa using Nat.ne_of_gt this

include hc in
theorem mem_waitingFor (i : Nat) (column : Column) (h : c.columns[i]? = some column)
    (symbol : Nat) (hsymbol : symbol ≤ g.symbolCount) (item : Item) :
    item ∈ c.waitingFor column symbol ↔
      ∃ id, c.item? id = some item ∧ id.column = i ∧ item.awaited g = symbol := by
  rw [waitingFor, (hc.column _ _ h).waiting symbol hsymbol]
  simp only [List.mem_filterMap, List.mem_filter, List.mem_range, Option.any_eq_true,
    beq_iff_eq]
  constructor
  · rintro ⟨seq, ⟨-, other, hother, hawaited⟩, hitem⟩
    obtain rfl := Option.some.inj (hother.symm.trans hitem)
    exact ⟨⟨i, seq⟩, by rw [c.item?_eq _ column h, hother], rfl, hawaited⟩
  · rintro ⟨⟨_, seq⟩, hitem, rfl, hawaited⟩
    rw [c.item?_eq _ column h] at hitem
    exact ⟨seq, ⟨(c.get?_isSome g hc _ column h seq).mp (by simp [hitem]), item, hitem,
      hawaited⟩, hitem⟩

include hc in
/-- An item waits for one symbol once. -/
theorem nodup_waitingFor (i : Nat) (column : Column) (h : c.columns[i]? = some column)
    (symbol : Nat) (hsymbol : symbol ≤ g.symbolCount) :
    ((c.waitingFor column symbol).map (·.id)).Nodup := by
  have hfiled := hc.column _ _ h
  rw [waitingFor, hfiled.waiting symbol hsymbol, List.map_filterMap]
  refine List.Nodup.filterMap ?_ (List.nodup_range.filter _)
  intro seq seq' id hid hid'
  obtain ⟨item, hitem, rfl⟩ := Option.map_eq_some_iff.mp hid
  obtain ⟨item', hitem', heq⟩ := Option.map_eq_some_iff.mp hid'
  rw [hfiled.position seq item hitem, hfiled.position seq' item' hitem'] at heq
  exact (ItemId.mk.inj heq).2.symm

include hc in
theorem mem_waitingFor_symbol (i : Nat) (column : Column)
    (h : c.columns[i]? = some column) (symbol : Nat) (hpos : 0 < symbol)
    (hsymbol : symbol ≤ g.symbolCount) (item : Item) :
    item ∈ c.waitingFor column symbol ↔
      ∃ id, c.item? id = some item ∧ id.column = i ∧
        g.next? item.rule item.dot = some symbol := by
  simp only [mem_waitingFor g c hc i column h symbol hsymbol,
    awaited_eq_iff g _ symbol (Nat.ne_of_gt hpos)]

include hc in
/-- A completed item advances what waits for it where it began. -/
theorem mem_completions (hg : g.Numbered) (ceiling : Nat) (completed : Item)
    (hdot : g.HasDot completed.rule completed.dot) (new : Candidate) :
    new ∈ c.completions g ceiling completed ↔
      ∃ id item, c.item? id = some item ∧ id.column = completed.origin ∧
        g.next? item.rule item.dot = some (g.lhs completed.rule) ∧
        new = advanceOver completed item ∧ new.errorCost ≤ ceiling := by
  have hlhs := g.lhs_nonterminal hg _ _ hdot
  rw [Symbols.isNonterminal_iff] at hlhs
  rw [completions]
  cases h : c.columns[completed.origin]? with
  | none =>
      simp only [List.not_mem_nil, false_iff]
      rintro ⟨id, item, hitem, hid, -⟩
      simp [item?, hid, h] at hitem
  | some column =>
      have hmem := mem_waitingFor_symbol g c hc _ column h (g.lhs completed.rule)
        (by omega) hlhs.2
      simp only [List.mem_filter, List.mem_map, hmem, decide_eq_true_eq]
      constructor
      · rintro ⟨⟨item, ⟨id, hitem, hid, hnext⟩, rfl⟩, hcost⟩
        exact ⟨id, item, hitem, hid, hnext, rfl, hcost⟩
      · rintro ⟨id, item, hitem, hid, hnext, rfl, hcost⟩
        exact ⟨⟨item, ⟨id, hitem, hid, hnext⟩, rfl⟩, hcost⟩

include hc in
/-- A token advances the items of the newest column that wait for its terminal. -/
theorem mem_scans (hg : g.Numbered) (token : Token) (new : Candidate) :
    new ∈ c.scans g token ↔
      ∃ id item terminal, c.item? id = some item ∧ id.column = c.current ∧
        g.terminalForKind? token.kind = some terminal ∧
        g.next? item.rule item.dot = some terminal ∧ new = scanOver item := by
  rw [scans]
  cases hkind : g.terminalForKind? token.kind with
  | none => simp
  | some terminal =>
      have hrange := (g.isTerminal_iff terminal).mp
        (Symbols.terminalForKind?_isTerminal hg.tabled hkind)
      have hle : terminal ≤ g.symbolCount := Nat.le_trans hrange.2 (Nat.le_add_right _ _)
      rw [newest?, Array.back?_eq_getElem?]
      cases h : c.columns[c.columns.size - 1]? with
      | none =>
          simp only [List.not_mem_nil, false_iff]
          rintro ⟨id, item, _, hitem, hid, -⟩
          simp [item?, hid, current, h] at hitem
      | some column =>
          have hmem := mem_waitingFor_symbol g c hc _ column h terminal hrange.1 hle
          simp only [List.mem_map, hmem]
          constructor
          · rintro ⟨item, ⟨id, hitem, hid, hnext⟩, rfl⟩
            exact ⟨id, item, terminal, hitem, hid, rfl, hnext, rfl⟩
          · rintro ⟨id, item, _, hitem, hid, ⟨⟩, hnext, rfl⟩
            exact ⟨item, ⟨id, hitem, hid, hnext⟩, rfl⟩

include hc in
/-- The items asked about are those of the newest column before a terminal. -/
theorem mem_waitingItems (w : WaitingItem) :
    w ∈ c.waitingItems g ↔
      ∃ id item terminal, c.item? id = some item ∧ id.column = c.current ∧
        g.next? item.rule item.dot = some terminal ∧ g.isTerminal terminal = true ∧
        w = ⟨id, item.rule, item.dot, item.origin, terminal, item.errorCost⟩ := by
  rw [waitingItems, newest?, Array.back?_eq_getElem?]
  cases h : c.columns[c.columns.size - 1]? with
  | none =>
      simp only [List.not_mem_nil, false_iff]
      rintro ⟨id, item, _, hitem, hid, -⟩
      simp [item?, hid, current, h] at hitem
  | some column =>
      simp only [List.mem_mergeSort, List.mem_flatMap, List.mem_map, g.mem_terminalIds_iff]
      constructor
      · rintro ⟨terminal, hterminal, item, hitem, rfl⟩
        have hrange := (g.isTerminal_iff terminal).mp hterminal
        have hle : terminal ≤ g.symbolCount := Nat.le_trans hrange.2 (Nat.le_add_right _ _)
        obtain ⟨id, hitem, hid, hnext⟩ :=
          (mem_waitingFor_symbol g c hc _ column h terminal hrange.1 hle item).mp hitem
        exact ⟨id, item, terminal, hitem, hid, hnext, hterminal,
          by rw [item_id g c hc id item hitem]⟩
      · rintro ⟨id, item, terminal, hitem, hid, hnext, hterminal, rfl⟩
        have hrange := (g.isTerminal_iff terminal).mp hterminal
        have hle : terminal ≤ g.symbolCount := Nat.le_trans hrange.2 (Nat.le_add_right _ _)
        exact ⟨terminal, hterminal, item, (mem_waitingFor_symbol g c hc _ column h terminal
          hrange.1 hle item).mpr ⟨id, hitem, hid, hnext⟩, by rw [item_id g c hc id item hitem]⟩

end Chart
end EarleyChart
