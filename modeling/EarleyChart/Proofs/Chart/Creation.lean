import EarleyChart.Proofs.Chart.Agreement
import EarleyChart.Proofs.Chart.Entry

/-!
An item with a new identity enters the newest column. It is put at the end of
the column, every other item stays what it was, and it is queued together with
the completions that it waits for.
-/

namespace EarleyChart
namespace Chart

def creating (c : Chart) (g : Grammar) (column : Column) (new : Candidate) : Chart where
  columns := c.columns.pop.push (column.filing g c.arena.allocate.1 new)
  arena := c.arena.storing (new.toItem ⟨column.index, column.size⟩)
  worklist := (g.next? new.rule new.dot).elim (c.worklist.push ⟨column.index, column.size⟩)
    fun symbol => column.requeue g symbol (c.worklist.push ⟨column.index, column.size⟩)

theorem insert_of_absent (g : Grammar) (c : Chart) (new : Candidate) (column : Column)
    (h : c.columns[c.current]? = some column) (hfind : column.find? new.key = none) :
    (c.insert g new).1 = c.creating g column new := by
  obtain ⟨columns, arena, worklist⟩ := c
  rw [current, ← Array.back?_eq_getElem?] at h
  simp only [insert, h, hfind, Column.add_eq, creating, Arena.storing]

section creating

variable (g : Grammar) (c : Chart) (hc : c.Filed g) (new : Candidate) (column : Column)
  (h : c.columns[c.current]? = some column)

theorem columns_creating (i : Nat) : (c.creating g column new).columns[i]? =
    if i = c.current then some (column.filing g c.arena.allocate.1 new) else c.columns[i]? :=
  getElem?_pop_push _ _ _

include h in
theorem current_creating : (c.creating g column new).columns.size = c.columns.size ∧
    (c.creating g column new).current = c.current := by
  have := (Array.getElem?_eq_some_iff.mp h).1
  simp only [creating, current, Array.size_push, Array.size_pop]
  omega

include hc in
/-- Storing an item leaves the items of the columns there are alone. -/
theorem get?_storing (i : Nat) (other : Column) (hother : c.columns[i]? = some other)
    (seq : Nat) : other.get? (c.creating g column new).arena seq = other.get? c.arena seq := by
  simp only [Column.get?, creating]
  cases hslot : other.slots[seq]? with
  | none => rfl
  | some slot =>
      have hlt := hc.slot_lt i other hother seq slot hslot
      rw [Option.bind_some, Option.bind_some, Arena.get?_storing _ hc.free,
        if_neg (Nat.ne_of_lt hlt)]

include hc h in
/-- The newest column has the stored item at its end. -/
theorem get?_filing (seq : Nat) :
    (column.filing g c.arena.allocate.1 new).get? (c.creating g column new).arena seq =
      if seq = column.size then some (new.toItem ⟨c.current, column.size⟩)
      else column.get? c.arena seq := by
  obtain ⟨-, -, hslots, -⟩ := Column.filing_fields column g c.arena.allocate.1 new
  rw [← get?_storing g c hc new column _ column h, Column.get?, hslots, Array.getElem?_push,
    Column.size, Column.get?]
  split
  · rw [Option.bind_some, creating, Arena.get?_storing _ hc.free,
      if_pos (Arena.storing_free _ hc.free Item.blank).2.1, (hc.column _ _ h).index, Column.size]
  · rfl

include hc h in
theorem item?_creating (id : ItemId) : (c.creating g column new).item? id =
    if id = ⟨c.current, column.size⟩ then some (new.toItem ⟨c.current, column.size⟩)
    else c.item? id := by
  obtain ⟨i, seq⟩ := id
  simp only [item?, columns_creating g c new column, ItemId.mk.injEq]
  by_cases hi : i = c.current
  · subst hi
    simp [get?_filing g c hc new column h, h]
  · simp only [hi, false_and, if_false]
    cases hother : c.columns[i]? with
    | none => rfl
    | some other => simp [get?_storing g c hc new column i other hother]

include hc h in
/-- The item that is created next does not wait yet. -/
theorem not_queued_next : ⟨column.index, column.size⟩ ∉ c.worklist.toList := by
  intro hmem
  obtain ⟨-, item, hitem⟩ := hc.queued _ hmem
  rw [c.item?_eq _ column (by rw [(hc.column _ _ h).index, h])] at hitem
  have := (c.get?_isSome g hc _ column h column.size).mp (by simp [hitem])
  omega

include hc h in
/-- The queue gains the new item and the completions that it waits for. -/
theorem worklist_creating : (c.creating g column new).worklist.Valid ∧
    (∀ id, id ∈ (c.creating g column new).worklist.toList ↔
      id ∈ c.worklist.toList ∨ id = ⟨c.current, column.size⟩ ∨ c.Requeued g new id) ∧
    (c.creating g column new).worklist.toList.length ≤
      c.worklist.toList.length + 1 + column.size := by
  have hindex := (hc.column _ _ h).index
  have hvalid := c.worklist.valid_push _ hc.queue (not_queued_next g c hc column h)
  simp only [creating]
  cases hnext : g.next? new.rule new.dot with
  | none =>
      refine ⟨hvalid, fun id => ?_, ?_⟩
      · simp [Requeued, hnext, hindex]
      · simp only [Option.elim_none, Worklist.toList_push, List.length_append,
          List.length_singleton]
        omega
  | some symbol =>
      refine ⟨column.valid_requeue g symbol _ hvalid, fun id => ?_, ?_⟩
      · simp only [Option.elim_some, Requeued, hnext, Option.some.injEq, exists_eq_left']
        rw [column.mem_requeue g symbol _ hvalid, c.mem_emptyEnds_iff g hc column h,
          Worklist.toList_push, List.mem_append, List.mem_singleton, hindex, or_assoc]
      · have hlength := column.length_requeue_le g symbol _ hvalid
        have := c.emptyEnds_size_le g hc column _ h symbol
        simp only [Option.elim_some, Worklist.toList_push, List.length_append,
          List.length_singleton] at hlength ⊢
        omega

include h in
/-- A slot of a column is the fresh one at the end of the newest column, or an
old one in its old place. -/
theorem slots_creating (i : Nat) (other : Column)
    (hother : (c.creating g column new).columns[i]? = some other) (seq : Nat) (slot : Slot)
    (hslot : other.slots[seq]? = some slot) :
    (i = c.current ∧ seq = column.size ∧ slot = c.arena.allocate.1) ∨
      ∃ old, c.columns[i]? = some old ∧ old.slots[seq]? = some slot := by
  obtain ⟨-, -, hslots, -⟩ := Column.filing_fields column g c.arena.allocate.1 new
  rw [columns_creating g c new column] at hother
  split at hother
  · next hi =>
      obtain rfl := Option.some.inj hother
      rw [hslots, Array.getElem?_push] at hslot
      split at hslot
      · next hs => exact .inl ⟨hi, hs, (Option.some.inj hslot).symm⟩
      · exact .inr ⟨column, hi ▸ h, hslot⟩
  · exact .inr ⟨other, hother, hslot⟩

include h in
theorem sameFrame_creating : c.SameFrame (c.creating g column new) := by
  obtain ⟨-, htoken, -, hpredicted, -⟩ :=
    Column.filing_fields column g c.arena.allocate.1 new
  refine ⟨(current_creating g c new column h).1, fun i => ?_, fun i symbol => ?_⟩
  · rw [token?, columns_creating g c new column]
    split
    · next hi => simp [token?, hi, h, htoken]
    · rfl
  · rw [marked?, columns_creating g c new column]
    split
    · next hi => simp [marked?, hi, h, Column.isPredicted?, hpredicted]
    · rfl

include hc h in
theorem filed_creating (hg : g.Numbered) (hdot : g.HasDot new.rule new.dot)
    (hfind : column.find? new.key = none) : (c.creating g column new).Filed g := by
  have hfiled := hc.column _ _ h
  have hitems := item?_creating g c hc new column h
  obtain ⟨hfree, hslot, harena⟩ := Arena.storing_free c.arena hc.free
    (new.toItem ⟨column.index, column.size⟩)
  obtain ⟨hvalid, hqueued, -⟩ := worklist_creating g c hc new column h
  have habsent : ∀ seq item, column.get? c.arena seq = some item → item.key ≠ new.key := by
    intro seq item hitem hkey
    have := (hfiled.found new.key seq).mpr ⟨item, hitem, hkey⟩
    rw [hfind] at this
    contradiction
  constructor
  case free => exact hfree
  case slot_lt =>
    intro i other hother seq slot hseq
    refine Nat.lt_of_lt_of_eq ?_ harena.symm
    rcases slots_creating g c new column h i other hother seq slot hseq with
      ⟨-, -, rfl⟩ | ⟨old, hi, hs⟩
    · omega
    · exact Nat.lt_succ_of_lt (hc.slot_lt i old hi seq slot hs)
  case slot_inj =>
    intro i j first second hfirst hsecond s t slot hs ht
    rcases slots_creating g c new column h i first hfirst s slot hs with
        ⟨rfl, rfl, rfl⟩ | ⟨old, hi, hs⟩ <;>
      rcases slots_creating g c new column h j second hsecond t _ ht with
        ⟨rfl, rfl, heq⟩ | ⟨old', hj, ht⟩
    · exact ⟨rfl, rfl⟩
    · have := hc.slot_lt j old' hj t _ ht
      omega
    · have := hc.slot_lt i old hi s slot hs
      rw [heq] at this
      omega
    · exact hc.slot_inj i j old old' hi hj s t slot hs ht
  case column =>
    intro i other hother
    have hnew := get?_filing g c hc new column h
    rw [columns_creating g c new column] at hother
    split at hother
    · next hi =>
        obtain rfl := Option.some.inj hother
        subst hi
        refine Column.filed_filing hfiled (fun seq hseq => ?_) ?_ hg habsent hdot
        · rw [hnew, if_neg (Nat.ne_of_lt hseq)]
        · rw [hnew, if_pos rfl]
    · refine Column.filed_congr g _ _ i other (hc.column i other hother) fun seq => ?_
      rw [get?_storing g c hc new column i other hother]
  case queue => exact hvalid
  case queued =>
    intro id hid
    rw [(current_creating g c new column h).2, hitems]
    rcases (hqueued id).mp hid with hid | rfl | ⟨symbol, -, -, hcol, item, hitem, -⟩
    · obtain ⟨hcol, item, hitem⟩ := hc.queued id hid
      refine ⟨hcol, ?_⟩
      split
      · exact ⟨_, rfl⟩
      · exact ⟨item, hitem⟩
    · exact ⟨rfl, _, if_pos rfl⟩
    · refine ⟨hcol, ?_⟩
      split
      · exact ⟨_, rfl⟩
      · exact ⟨item, hitem⟩

end creating

end Chart
end EarleyChart
