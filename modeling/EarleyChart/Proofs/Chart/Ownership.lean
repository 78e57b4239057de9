import EarleyChart.Proofs.Chart.Insertion
import EarleyChart.Proofs.Chart.Opening
import Mathlib.Algebra.BigOperators.Ring.List
import Mathlib.Algebra.Order.Ring.Nat

/-!
The pool beside the columns. During a run no slot is given back, so every slot
that was ever made is handed out, and there are as many as the columns have
items. Taking the columns down gives all of them back.
-/

namespace EarleyChart
namespace Arena

/-- Every slot that was made is handed out. -/
structure Full (a : Arena) : Prop where
  free : a.free = []
  inUse : a.inUse = Array.replicate a.items.size true
  live : a.live = a.items.size

theorem full_withCapacity (capacity : Nat) : (withCapacity capacity).Full := ⟨rfl, rfl, rfl⟩

theorem Full.storing {a : Arena} (h : a.Full) (item : Item) : (a.storing item).Full := by
  cases a with
  | mk items inUse free live peak capacity =>
      cases h with
      | mk hfree hinUse hlive =>
          simp only at hfree hinUse hlive
          subst hfree hinUse hlive
          constructor
          · rfl
          · simp [Arena.storing, allocate, modify, Array.replicate_succ]
          · simp [Arena.storing, allocate, modify]

theorem Full.modify {a : Arena} (h : a.Full) (slot : Slot) (f : Item → Item) :
    (a.modify slot f).Full where
  free := h.free
  inUse := by simpa [Arena.modify] using h.inUse
  live := by simpa [Arena.modify] using h.live

theorem Full.handed {a : Arena} (h : a.Full) (slot : Slot) (hlt : slot.index < a.items.size) :
    a.inUse[slot.index]? = some true := by
  rw [h.inUse, Array.getElem?_replicate, if_pos hlt]

theorem release_inUse (a : Arena) (slot other : Slot) (hne : other ≠ slot) :
    (a.release slot).inUse[other.index]? = a.inUse[other.index]? := by
  have hindex : slot.index ≠ other.index := fun h => hne (by cases slot; cases other; simp_all)
  rw [release]
  split
  · exact Array.getElem?_setIfInBounds_ne hindex
  · rfl

theorem release_live (a : Arena) (slot : Slot) (h : a.inUse[slot.index]? = some true) :
    (a.release slot).live = a.live - 1 := by
  simp [release, h]

theorem release_capacity (a : Arena) (slot : Slot) : (a.release slot).capacity = a.capacity := by
  rw [release]
  split <;> rfl

/-- Slots that are handed out are all taken back, each of them once. -/
theorem foldl_release (slots : List Slot) (a : Arena) (hnodup : slots.Nodup)
    (h : ∀ slot ∈ slots, a.inUse[slot.index]? = some true) :
    (slots.foldl release a).live = a.live - slots.length ∧
      (slots.foldl release a).capacity = a.capacity := by
  induction slots generalizing a with
  | nil => exact ⟨rfl, rfl⟩
  | cons slot slots ih =>
      cases List.nodup_cons.mp hnodup with
      | intro hfresh hrest =>
          have hslot := release_live a slot (h slot (by simp))
          have hothers : ∀ other ∈ slots, (a.release slot).inUse[other.index]? = some true := by
            intro other hother
            rw [release_inUse a slot other fun heq => hfresh (heq ▸ hother)]
            exact h other (by simp [hother])
          obtain ⟨hlive, hcapacity⟩ := ih (a.release slot) hrest hothers
          rw [List.foldl_cons, hlive, hcapacity, hslot, release_capacity, List.length_cons]
          exact ⟨by omega, rfl⟩

end Arena

namespace Chart

def slots (c : Chart) : List Slot := c.columns.toList.flatMap fun column => column.slots.toList

def itemCount (c : Chart) : Nat := (c.columns.toList.map Column.size).sum

/-- The pool holds the items of the columns and nothing else. -/
structure Owns (c : Chart) : Prop where
  full : c.arena.Full
  count : c.arena.items.size = c.itemCount

variable {c : Chart}

theorem length_slots (c : Chart) : c.slots.length = c.itemCount := by
  rw [slots, itemCount, List.length_flatMap]
  rfl

theorem owns_empty (capacity : Nat) : (empty (.withCapacity capacity)).Owns :=
  ⟨Arena.full_withCapacity capacity, rfl⟩

theorem Owns.openColumn (h : c.Owns) (g : Grammar) (token : Option Token) :
    (c.openColumn g token).Owns :=
  ⟨h.full, by simpa [itemCount, Chart.openColumn, Column.new, Column.size] using h.count⟩

theorem slots_markNewest (c : Chart) (symbol : SymbolId) :
    (c.modifyNewest (·.markPredicted symbol)).slots = c.slots := by
  have hcolumns : (c.modifyNewest (·.markPredicted symbol)).columns.map Column.slots =
      c.columns.map Column.slots := by
    apply Array.ext_getElem?
    intro i
    rw [Array.getElem?_map, Array.getElem?_map, columns_markNewest]
    split
    · rw [Option.map_map]
      rfl
    · rfl
  have hslots : ∀ c : Chart,
      c.slots = (c.columns.map Column.slots).toList.flatMap Array.toList := by
    intro c
    rw [slots, Array.toList_map, List.flatMap_map]
  rw [hslots, hcolumns, ← hslots]

theorem Owns.markNewest (h : c.Owns) (symbol : SymbolId) :
    (c.modifyNewest (·.markPredicted symbol)).Owns := by
  refine ⟨h.full, h.count.trans ?_⟩
  rw [← length_slots, ← length_slots, slots_markNewest]

theorem Owns.requeued (h : c.Owns) (queue : Worklist) : Owns { c with worklist := queue } :=
  ⟨h.full, h.count⟩

theorem Owns.popped (h : c.Owns) : c.popped.Owns := h.requeued _

/-- One more item in the newest column is one more item in all. -/
theorem itemCount_creating (g : Grammar) (new : Candidate) (column : Column)
    (h : c.columns[c.current]? = some column) :
    (c.creating g column new).itemCount = c.itemCount + 1 := by
  rw [current, ← Array.back?_eq_getElem?] at h
  obtain ⟨older, hcolumns⟩ := Array.back?_eq_some_iff.mp h
  obtain ⟨-, -, hslots, -⟩ := Column.filing_fields column g c.arena.allocate.1 new
  simp [itemCount, creating, hcolumns, Column.size, hslots, Nat.add_assoc]

/-- An item that enters takes one slot, or is merged into the one that is there. -/
theorem Owns.insert (h : c.Owns) (g : Grammar) (new : Candidate) : (c.insert g new).1.Owns := by
  cases hcolumn : c.columns[c.current]? with
  | none =>
      rw [current, ← Array.back?_eq_getElem?] at hcolumn
      simpa [Chart.insert, hcolumn] using h
  | some column =>
      cases hfind : column.find? new.key with
      | none =>
          rw [insert_of_absent g c new column hcolumn hfind]
          obtain ⟨-, -, hsize⟩ := Arena.storing_free c.arena h.full.free
            (new.toItem ⟨column.index, column.size⟩)
          have hcount := itemCount_creating g new column hcolumn
          rw [← h.count] at hcount
          exact ⟨h.full.storing _, hsize.trans hcount.symm⟩
      | some seq =>
          cases hget : column.get? c.arena seq with
          | none =>
              rw [current, ← Array.back?_eq_getElem?] at hcolumn
              cases hslot : column.slots[seq]? with
              | none => simpa [Chart.insert, hcolumn, hfind, hslot] using h
              | some slot =>
                  rw [Column.get?, hslot, Option.bind_some] at hget
                  simpa [Chart.insert, hcolumn, hfind, hslot, hget] using h
          | some item =>
              obtain ⟨slot, hslot, hitem⟩ := Option.bind_eq_some_iff.mp hget
              rw [insert_of_present g c new column hcolumn seq slot item hslot hitem hfind]
              obtain ⟨-, hsize⟩ := Arena.modify_free c.arena slot (mergeInto new)
              exact ⟨h.full.modify slot _, hsize.trans h.count⟩

/-- No two items share a slot. -/
theorem nodup_slots {g : Grammar} (hc : c.Filed g) : c.slots.Nodup := by
  have hplace : ∀ (i j s t : Nat) (first second : Column) (slot : Slot),
      c.columns.toList[i]? = some first → c.columns.toList[j]? = some second →
      first.slots.toList[s]? = some slot → second.slots.toList[t]? = some slot →
      i = j ∧ s = t := by
    simp only [Array.getElem?_toList]
    intro i j s t first second slot hfirst hsecond hs ht
    exact hc.slot_inj i j first second hfirst hsecond s t slot hs ht
  rw [slots, List.nodup_flatMap]
  constructor
  · intro column hcolumn
    obtain ⟨i, hi⟩ := List.getElem?_of_mem hcolumn
    rw [List.Nodup, List.pairwise_iff_getElem]
    intro s t hs ht hless heq
    have := (hplace i i s t column column _ hi hi (List.getElem?_eq_getElem hs)
      (by rw [heq]; exact List.getElem?_eq_getElem ht)).2
    omega
  · rw [List.pairwise_iff_getElem]
    intro i j hi hj hless slot hfirst hsecond
    obtain ⟨s, hs⟩ := List.getElem?_of_mem hfirst
    obtain ⟨t, ht⟩ := List.getElem?_of_mem hsecond
    have := (hplace i j s t _ _ slot (List.getElem?_eq_getElem hi) (List.getElem?_eq_getElem hj)
      hs ht).1
    omega

/-- Every slot of a column is one of the pool. -/
theorem slot_lt_of_mem {g : Grammar} (hc : c.Filed g) {slot : Slot} (hslot : slot ∈ c.slots) :
    slot.index < c.arena.items.size := by
  obtain ⟨column, hcolumn, hmem⟩ := List.mem_flatMap.mp hslot
  obtain ⟨i, hi⟩ := List.getElem?_of_mem hcolumn
  obtain ⟨seq, hseq⟩ := List.getElem?_of_mem hmem
  rw [Array.getElem?_toList] at hi hseq
  exact hc.slot_lt i column hi seq slot hseq

theorem Owns.handed {g : Grammar} (h : c.Owns) (hc : c.Filed g) (slot : Slot)
    (hslot : slot ∈ c.slots) : c.arena.inUse[slot.index]? = some true :=
  h.full.handed slot (slot_lt_of_mem hc hslot)

def tornDown (c : Chart) : Arena :=
  c.columns.toList.reverse.foldl (fun arena column => (column.teardown arena).2) c.arena

def returned (c : Chart) : List Slot :=
  c.columns.toList.reverse.flatMap fun column => column.slots.toList

theorem returned_perm (c : Chart) : c.returned.Perm c.slots :=
  (List.reverse_perm _).flatMap_right _

theorem tornDown_eq (c : Chart) : c.tornDown = c.returned.foldl Arena.release c.arena := by
  simp only [Chart.tornDown, returned, List.foldl_flatMap, Column.teardown, Array.foldl_toList]

/-- Taking the columns down gives every slot back, and leaves the room that a
cleared chart keeps. -/
theorem Owns.tornDown {g : Grammar} (h : c.Owns) (hc : c.Filed g) :
    c.tornDown.live = 0 ∧ c.clear = empty c.tornDown.reset := by
  obtain ⟨hlive, hcapacity⟩ := Arena.foldl_release c.returned c.arena
    (c.returned_perm.nodup_iff.mpr (nodup_slots hc)) fun slot hslot =>
      h.handed hc slot (c.returned_perm.subset hslot)
  rw [← tornDown_eq, c.returned_perm.length_eq, length_slots, h.full.live, h.count,
    Nat.sub_self] at hlive
  rw [← tornDown_eq] at hcapacity
  refine ⟨hlive, ?_⟩
  rw [clear, Arena.reset, Arena.reset, hcapacity]

end Chart
end EarleyChart
