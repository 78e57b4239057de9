import EarleyChart.Forest.Basic
import EarleyChart.Proofs.Chart.Candidates

/-!
The roots of a forest are the completed items of the start symbol over the whole
input. There is one where the newest column is marked as complete, and the
lowest cost of the forest is the lowest among them.
-/

namespace EarleyChart
namespace Forest

def IsRoot (f : Forest) (id : ItemId) (item : Item) : Prop :=
  f.item? id = some item ∧ id.column = f.chart.current ∧ item.origin = 0 ∧
    f.grammar.lhs item.rule = f.grammar.start ∧ f.grammar.next? item.rule item.dot = none

variable (f : Forest) (hg : f.grammar.Numbered) (hc : f.chart.Filed f.grammar)

include hg hc in
theorem mem_roots (id : ItemId) : id ∈ f.roots ↔ ∃ item, f.IsRoot id item := by
  rw [roots, Chart.newest?, Array.back?_eq_getElem?]
  cases h : f.chart.columns[f.chart.columns.size - 1]? with
  | none =>
      simp only [List.not_mem_nil, false_iff]
      rintro ⟨item, hitem, hid, -⟩
      simp [item?, Chart.item?, hid, Chart.current, h] at hitem
  | some column =>
      have hmem := Chart.mem_waitingFor f.grammar f.chart hc _ column h 0 (Nat.zero_le _)
      simp only [List.mem_map, List.mem_filter, hmem, Chart.awaited_eq_zero_iff _ hg,
        Bool.and_eq_true, beq_iff_eq]
      constructor
      · rintro ⟨item, ⟨⟨other, hitem, hcolumn, hend⟩, horigin, hlhs⟩, rfl⟩
        rw [Chart.item_id _ _ hc other item hitem]
        exact ⟨item, hitem, hcolumn, horigin, hlhs, hend⟩
      · rintro ⟨item, hitem, hcolumn, horigin, hlhs, hend⟩
        exact ⟨item, ⟨⟨id, hitem, hcolumn, hend⟩, horigin, hlhs⟩,
          Chart.item_id _ _ hc id item hitem⟩

include hc in
theorem nodup_roots : f.roots.Nodup := by
  rw [roots, Chart.newest?, Array.back?_eq_getElem?]
  cases h : f.chart.columns[f.chart.columns.size - 1]? with
  | none => exact .nil
  | some column =>
      exact (Chart.nodup_waitingFor f.grammar f.chart hc _ column h 0 (Nat.zero_le _)).sublist
        (List.filter_sublist.map _)

include hc in
/-- The mark of completeness stands for a root. -/
theorem completed_iff : f.chart.newest?.any (·.completed) = true ↔
    ∃ id item, f.IsRoot id item := by
  rw [Chart.newest?, Array.back?_eq_getElem?]
  cases h : f.chart.columns[f.chart.columns.size - 1]? with
  | none =>
      simp only [Option.any_none, Bool.false_eq_true, false_iff]
      rintro ⟨id, item, hitem, hid, -⟩
      simp [item?, Chart.item?, hid, Chart.current, h] at hitem
  | some column =>
      rw [Option.any_some, (hc.column _ _ h).completed]
      constructor
      · rintro ⟨seq, item, hitem, hends⟩
        simp only [Item.ends, Bool.and_eq_true, Option.isNone_iff_eq_none, beq_iff_eq] at hends
        exact ⟨⟨f.chart.current, seq⟩, item, (f.chart.item?_eq _ column h).trans hitem, rfl,
          hends.2, hends.1.2, hends.1.1⟩
      · rintro ⟨⟨_, seq⟩, item, hitem, rfl, horigin, hlhs, hend⟩
        rw [item?, f.chart.item?_eq _ column h] at hitem
        exact ⟨seq, item, hitem, by simp [Item.ends, horigin, hlhs, hend]⟩

include hg hc in
theorem mem_rootCosts (cost : Nat) : cost ∈ (f.roots.filterMap f.item?).map (·.errorCost) ↔
    ∃ id item, f.IsRoot id item ∧ item.errorCost = cost := by
  simp only [List.mem_map, List.mem_filterMap, mem_roots f hg hc]
  constructor
  · rintro ⟨item, ⟨id, ⟨other, hroot⟩, hitem⟩, rfl⟩
    obtain rfl := Option.some.inj (hroot.1.symm.trans hitem)
    exact ⟨id, other, hroot, rfl⟩
  · rintro ⟨id, item, hroot, rfl⟩
    exact ⟨item, ⟨id, ⟨item, hroot⟩, hroot.1⟩, rfl⟩

include hg hc in
/-- A forest with a root has a lowest cost, and a root of that cost. -/
theorem minCost_of_root (h : ∃ id item, f.IsRoot id item) : ∃ id item,
    f.IsRoot id item ∧ f.minCost = some item.errorCost ∧
      ∀ id' item', f.IsRoot id' item' → item.errorCost ≤ item'.errorCost := by
  obtain ⟨id, item, hroot⟩ := h
  have hmem := mem_rootCosts f hg hc
  cases hmin : f.minCost with
  | none =>
      have := (hmem _).mpr ⟨id, item, hroot, rfl⟩
      rw [minCost, List.min?_eq_none_iff] at hmin
      simp [hmin] at this
  | some cost =>
      rw [minCost, List.min?_eq_some_iff] at hmin
      obtain ⟨least, item', hleast, rfl⟩ := (hmem cost).mp hmin.1
      exact ⟨least, item', hleast, rfl, fun other item'' hother =>
        hmin.2 _ ((hmem _).mpr ⟨other, item'', hother, rfl⟩)⟩

end Forest
end EarleyChart
