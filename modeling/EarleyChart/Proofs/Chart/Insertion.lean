import EarleyChart.Proofs.Chart.Creation

/-!
What entering an item does to a chart. Either the item is created at the end of
the newest column, or it is merged into the item with its identity. In both
cases every other item stays what it was, and it is said which items are queued.
Entering keeps the tables of the chart in agreement with its items.
-/

namespace EarleyChart
namespace Chart

inductive Entered (g : Grammar) (c : Chart) (new : Candidate) (c' : Chart) : Prop
  | created (absent : ∀ seq item, c.item? ⟨c.current, seq⟩ = some item → item.key ≠ new.key)
      (items : ∀ id, c'.item? id =
        if id = ⟨c.current, c.newestSize⟩ then some (new.toItem ⟨c.current, c.newestSize⟩)
        else c.item? id)
      (queued : ∀ id, id ∈ c'.worklist.toList ↔
        id ∈ c.worklist.toList ∨ id = ⟨c.current, c.newestSize⟩ ∨ c.Requeued g new id)
      (length : c'.worklist.toList.length ≤ c.worklist.toList.length + (1 + c.newestSize))
  | merged (seq : Nat) (item : Item) (present : c.item? ⟨c.current, seq⟩ = some item)
      (same : item.key = new.key)
      (items : ∀ id, c'.item? id =
        if id = ⟨c.current, seq⟩ then some (mergeInto new item) else c.item? id)
      (queued : ∀ id, id ∈ c'.worklist.toList ↔ id ∈ c.worklist.toList ∨
        new.errorCost < item.errorCost ∧ (id = ⟨c.current, seq⟩ ∨ c.Requeued g new id))
      (length : c'.worklist.toList.length ≤ c.worklist.toList.length +
        if new.errorCost < item.errorCost then 1 + c.newestSize else 0)

/-- An item with a new identity is created at the end of the newest column. -/
theorem insert_created (g : Grammar) (hg : g.Numbered) (c : Chart) (hc : c.Filed g)
    (new : Candidate) (hdot : g.HasDot new.rule new.dot) (column : Column)
    (h : c.columns[c.current]? = some column) (hfind : column.find? new.key = none) :
    c.Entered g new (c.insert g new).1 ∧ (c.insert g new).1.Filed g ∧
      c.SameFrame (c.insert g new).1 := by
  rw [insert_of_absent g c new column h hfind]
  have hsize : c.newestSize = column.size := by rw [newestSize, h, Option.elim_some]
  obtain ⟨-, hqueued, hlength⟩ := worklist_creating g c hc new column h
  refine ⟨.created ?_ ?_ ?_ ?_, filed_creating g c hc new column h hg hdot hfind,
    sameFrame_creating g c new column h⟩
  · intro seq item hitem hkey
    rw [c.item?_eq _ column h] at hitem
    have := ((hc.column _ _ h).found new.key seq).mpr ⟨item, hitem, hkey⟩
    rw [hfind] at this
    contradiction
  · rw [hsize]
    exact item?_creating g c hc new column h
  · rw [hsize]
    exact hqueued
  · omega

theorem mergeInto_id_key (new : Candidate) (item : Item) :
    (mergeInto new item).id = item.id ∧ (mergeInto new item).key = item.key := by
  have hlink : (new.link.elim item item.addLink).id = item.id ∧
      (new.link.elim item item.addLink).key = item.key := by
    cases new.link with
    | none => exact ⟨rfl, rfl⟩
    | some link =>
        simp only [Option.elim_some, Item.addLink]
        split <;> exact ⟨rfl, rfl⟩
  simp only [mergeInto]
  split <;> exact hlink

theorem mergeInto_errorCost (new : Candidate) (item : Item) :
    (mergeInto new item).errorCost = min new.errorCost item.errorCost := by
  have hlink : (new.link.elim item item.addLink).errorCost = item.errorCost := by
    cases new.link with
    | none => rfl
    | some link =>
        simp only [Option.elim_some, Item.addLink]
        split <;> rfl
  simp only [mergeInto, hlink]
  split
  · next h => rw [Nat.min_eq_left (Nat.le_of_lt h)]
  · next h => rw [Nat.min_eq_right (Nat.le_of_not_lt h), hlink]

theorem mergeInto_links (new : Candidate) (item : Item) :
    (mergeInto new item).links =
      item.links ++ new.link.toList.filter fun link => !item.links.contains link := by
  have hlink : (new.link.elim item item.addLink).links =
      item.links ++ new.link.toList.filter fun link => !item.links.contains link := by
    cases new.link with
    | none => simp
    | some link => by_cases h : link ∈ item.links <;> simp [Item.addLink, h]
  simp only [mergeInto]
  split <;> exact hlink

def merging (c : Chart) (g : Grammar) (column : Column) (seq : Nat) (slot : Slot)
    (item : Item) (new : Candidate) : Chart where
  columns := c.columns
  arena := c.arena.modify slot (mergeInto new)
  worklist :=
    if new.errorCost < item.errorCost then
      (g.next? new.rule new.dot).elim (c.worklist.pushUnique ⟨column.index, seq⟩)
        fun symbol => column.requeue g symbol (c.worklist.pushUnique ⟨column.index, seq⟩)
    else c.worklist

section merging

variable (g : Grammar) (c : Chart) (hc : c.Filed g) (new : Candidate) (column : Column)
  (h : c.columns[c.current]? = some column) (seq : Nat) (slot : Slot) (item : Item)
  (hslot : column.slots[seq]? = some slot) (hitem : c.arena.get? slot = some item)

include h hslot hitem in
theorem insert_of_present (hfind : column.find? new.key = some seq) :
    (c.insert g new).1 = c.merging g column seq slot item new := by
  obtain ⟨columns, arena, worklist⟩ := c
  rw [current, ← Array.back?_eq_getElem?] at h
  simp only at hitem
  simp only [insert, h, hfind, hslot, hitem, merging]
  split <;> rfl

include hc h hslot hitem in
theorem item?_merging (id : ItemId) : (c.merging g column seq slot item new).item? id =
    if id = ⟨c.current, seq⟩ then some (mergeInto new item) else c.item? id := by
  obtain ⟨i, s⟩ := id
  simp only [item?, merging, ItemId.mk.injEq]
  cases hother : c.columns[i]? with
  | none =>
      rw [if_neg]
      · rfl
      · rintro ⟨rfl, -⟩
        rw [h] at hother
        contradiction
  | some other =>
      simp only [Option.bind_some, Column.get?]
      cases hs : other.slots[s]? with
      | none =>
          rw [if_neg]
          · rfl
          · rintro ⟨rfl, rfl⟩
            obtain rfl : column = other := Option.some.inj (h.symm.trans hother)
            rw [hslot] at hs
            contradiction
      | some otherSlot =>
          rw [Option.bind_some, Option.bind_some]
          by_cases heq : otherSlot = slot
          · subst heq
            rw [if_pos (hc.slot_inj i _ other column hother h s seq otherSlot hs hslot),
              Arena.get?_modify_self, hitem, Option.map_some]
          · rw [Arena.get?_modify_of_ne _ _ heq, if_neg]
            rintro ⟨rfl, rfl⟩
            obtain rfl : column = other := Option.some.inj (h.symm.trans hother)
            exact heq (Option.some.inj (hs.symm.trans hslot))

include hc h in
/-- The queue gains the item and the completions that it waits for, where the
cost is lowered. -/
theorem worklist_merging : (c.merging g column seq slot item new).worklist.Valid ∧
    (∀ id, id ∈ (c.merging g column seq slot item new).worklist.toList ↔
      id ∈ c.worklist.toList ∨
        new.errorCost < item.errorCost ∧ (id = ⟨c.current, seq⟩ ∨ c.Requeued g new id)) ∧
    (c.merging g column seq slot item new).worklist.toList.length ≤
      c.worklist.toList.length +
        if new.errorCost < item.errorCost then 1 + column.size else 0 := by
  have hindex := (hc.column _ _ h).index
  simp only [merging]
  by_cases hlower : new.errorCost < item.errorCost
  · have hvalid := c.worklist.valid_pushUnique hc.queue ⟨column.index, seq⟩
    have hpush := c.worklist.length_pushUnique_le ⟨column.index, seq⟩
    simp only [hlower, if_true, true_and]
    cases hnext : g.next? new.rule new.dot with
    | none =>
        refine ⟨hvalid, fun id => ?_, ?_⟩
        · simp [Requeued, hnext, hindex, c.worklist.mem_pushUnique hc.queue]
        · rw [Option.elim_none]
          omega
    | some symbol =>
        refine ⟨column.valid_requeue g symbol _ hvalid, fun id => ?_, ?_⟩
        · simp only [Option.elim_some, Requeued, hnext, Option.some.injEq, exists_eq_left']
          rw [column.mem_requeue g symbol _ hvalid, c.mem_emptyEnds_iff g hc column h,
            c.worklist.mem_pushUnique hc.queue, hindex, or_assoc]
        · have hlength := column.length_requeue_le g symbol _ hvalid
          have := c.emptyEnds_size_le g hc column _ h symbol
          rw [Option.elim_some]
          omega
  · simp [hlower, hc.queue]

include hc h hslot hitem in
theorem filed_merging : (c.merging g column seq slot item new).Filed g := by
  have hitems := item?_merging g c hc new column h seq slot item hslot hitem
  obtain ⟨hvalid, hqueued, -⟩ := worklist_merging g c hc new column h seq slot item
  have hthere : c.item? ⟨c.current, seq⟩ = some item := by
    rw [c.item?_eq _ column h, Column.get?, hslot, Option.bind_some, hitem]
  obtain ⟨hfree, harena⟩ := Arena.modify_free c.arena slot (mergeInto new)
  constructor
  case free => exact hfree.trans hc.free
  case slot_lt =>
    intro i other hother s otherSlot hs
    exact Nat.lt_of_lt_of_eq (hc.slot_lt i other hother s otherSlot hs) harena.symm
  case slot_inj => exact hc.slot_inj
  case column =>
    intro i other hother
    refine Column.filed_congr g _ _ i other (hc.column i other hother) fun s => ?_
    have hs := hitems ⟨i, s⟩
    rw [item?_eq _ _ other hother, c.item?_eq ⟨i, s⟩ other hother] at hs
    rw [hs]
    split
    · next heq =>
        rw [← c.item?_eq ⟨i, s⟩ other hother, heq, hthere]
        simp [mergeInto_id_key]
    · rfl
  case queue => exact hvalid
  case queued =>
    intro id hid
    change id.column = c.current ∧ _
    rw [hitems]
    rcases (hqueued id).mp hid with hid | ⟨-, rfl | ⟨symbol, -, -, hcol, other, hother, -⟩⟩
    · obtain ⟨hcol, other, hother⟩ := hc.queued id hid
      refine ⟨hcol, ?_⟩
      split
      · exact ⟨_, rfl⟩
      · exact ⟨other, hother⟩
    · exact ⟨rfl, _, if_pos rfl⟩
    · refine ⟨hcol, ?_⟩
      split
      · exact ⟨_, rfl⟩
      · exact ⟨other, hother⟩

end merging

/-- An item with a known identity is merged into the one that is there. -/
theorem insert_merged (g : Grammar) (c : Chart) (hc : c.Filed g) (new : Candidate)
    (column : Column) (h : c.columns[c.current]? = some column) (seq : Nat)
    (hfind : column.find? new.key = some seq) :
    c.Entered g new (c.insert g new).1 ∧ (c.insert g new).1.Filed g ∧
      c.SameFrame (c.insert g new).1 := by
  obtain ⟨item, hget, hkey⟩ := ((hc.column _ _ h).found new.key seq).mp hfind
  obtain ⟨slot, hslot, hitem⟩ := Option.bind_eq_some_iff.mp hget
  rw [insert_of_present g c new column h seq slot item hslot hitem hfind]
  have hsize : c.newestSize = column.size := by rw [newestSize, h, Option.elim_some]
  obtain ⟨-, hqueued, hlength⟩ := worklist_merging g c hc new column h seq slot item
  refine ⟨.merged seq item ?_ hkey ?_ hqueued (hsize ▸ hlength),
    filed_merging g c hc new column h seq slot item hslot hitem, rfl, fun _ => rfl,
    fun _ _ => rfl⟩
  · rw [c.item?_eq _ column h, hget]
  · exact item?_merging g c hc new column h seq slot item hslot hitem

/-- Entering an item creates it or merges it, and keeps the tables in agreement. -/
theorem insert_entered (g : Grammar) (hg : g.Numbered) (c : Chart) (hc : c.Filed g)
    (hne : 0 < c.columns.size) (new : Candidate) (hdot : g.HasDot new.rule new.dot) :
    c.Entered g new (c.insert g new).1 ∧ (c.insert g new).1.Filed g ∧
      c.SameFrame (c.insert g new).1 := by
  obtain ⟨column, h⟩ := c.newest_of_size hne
  cases hfind : column.find? new.key with
  | none => exact insert_created g hg c hc new hdot column h hfind
  | some seq => exact insert_merged g c hc new column h seq hfind

end Chart
end EarleyChart
