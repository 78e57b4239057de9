import EarleyChart.Chart.Basic
import EarleyChart.Proofs.Chart.Filing

/-!
A chart whose tables agree with its items: every column files its items, slots
are handed out in order and belong to one place each, and the queue holds items
of the newest column without repetition.
-/

namespace EarleyChart

namespace Arena

def storing (a : Arena) (item : Item) : Arena :=
  a.allocate.2.modify a.allocate.1 fun _ => item

/-- A fresh slot is the next one, and only it changes. -/
theorem get?_storing (a : Arena) (h : a.free = []) (item : Item) (slot : Slot) :
    (a.storing item).get? slot =
      if slot.index = a.items.size then some item else a.get? slot := by
  obtain ⟨items, inUse, free, live, peak, capacity⟩ := a
  subst h
  simp only [storing, allocate, modify, get?, Array.getElem?_modify, Array.getElem?_push]
  by_cases h : slot.index = items.size
  · simp [h]
  · simp [h, Ne.symm h]

theorem storing_free (a : Arena) (h : a.free = []) (item : Item) :
    (a.storing item).free = [] ∧ a.allocate.1.index = a.items.size ∧
      (a.storing item).items.size = a.items.size + 1 := by
  obtain ⟨items, inUse, free, live, peak, capacity⟩ := a
  subst h
  simp [storing, allocate, modify]

theorem modify_free (a : Arena) (slot : Slot) (f : Item → Item) :
    (a.modify slot f).free = a.free ∧ (a.modify slot f).items.size = a.items.size := by
  simp [modify]

end Arena

namespace Chart

/-- All tables of a chart agree with its items. Slots are handed out in order
and belong to one place each, and the queue holds items of the newest column. -/
structure Filed (g : Grammar) (c : Chart) : Prop where
  free : c.arena.free = []
  slot_lt : ∀ (i : Nat) (column : Column), c.columns[i]? = some column →
    ∀ (seq : Nat) (slot : Slot), column.slots[seq]? = some slot → slot.index < c.arena.items.size
  slot_inj : ∀ (i j : Nat) (first second : Column), c.columns[i]? = some first →
    c.columns[j]? = some second →
    ∀ (s t : Nat) (slot : Slot), first.slots[s]? = some slot → second.slots[t]? = some slot →
      i = j ∧ s = t
  column : ∀ (i : Nat) (column : Column), c.columns[i]? = some column →
    column.Filed g c.arena i
  queue : c.worklist.Valid
  queued : ∀ id ∈ c.worklist.toList, id.column = c.current ∧ ∃ item, c.item? id = some item

/-- A completion of a symbol that began in the newest column and lies in it. -/
def EmptyEnd (g : Grammar) (c : Chart) (symbol : SymbolId) (id : ItemId) : Prop :=
  g.isNonterminal symbol = true ∧ id.column = c.current ∧
    ∃ item, c.item? id = some item ∧ item.ends g symbol c.current = true

/-- The completions that an entered item waits for, to be looked at again. -/
def Requeued (g : Grammar) (c : Chart) (new : Candidate) (id : ItemId) : Prop :=
  ∃ symbol, g.next? new.rule new.dot = some symbol ∧ c.EmptyEnd g symbol id

def token? (c : Chart) (column : Nat) : Option Token := (c.columns[column]?).bind (·.token)

def marked? (c : Chart) (column : Nat) (symbol : SymbolId) : Option Bool :=
  (c.columns[column]?).bind (·.isPredicted? symbol)

structure SameFrame (c c' : Chart) : Prop where
  size : c'.columns.size = c.columns.size
  token : ∀ i, c'.token? i = c.token? i
  marked : ∀ i symbol, c'.marked? i symbol = c.marked? i symbol

theorem SameFrame.refl (c : Chart) : c.SameFrame c := ⟨rfl, fun _ => rfl, fun _ _ => rfl⟩

theorem SameFrame.trans {a b c : Chart} (h : a.SameFrame b) (k : b.SameFrame c) :
    a.SameFrame c where
  size := k.size.trans h.size
  token i := (k.token i).trans (h.token i)
  marked i symbol := (k.marked i symbol).trans (h.marked i symbol)

theorem SameFrame.current {c c' : Chart} (h : c.SameFrame c') : c'.current = c.current := by
  rw [Chart.current, Chart.current, h.size]

theorem getElem?_pop_push {α : Type} (xs : Array α) (x : α) (i : Nat) :
    (xs.pop.push x)[i]? = if i = xs.size - 1 then some x else xs[i]? := by
  rw [Array.getElem?_push, Array.size_pop]
  split
  · rfl
  · next hi =>
      rw [Array.getElem?_pop]
      split
      · rfl
      · exact (Array.getElem?_eq_none (by omega)).symm

theorem newest_of_size (c : Chart) (h : 0 < c.columns.size) :
    ∃ column, c.columns[c.current]? = some column := by
  have hlt : c.current < c.columns.size := by
    rw [current]
    omega
  exact ⟨_, Array.getElem?_eq_getElem hlt⟩

theorem item?_eq (c : Chart) (id : ItemId) (column : Column)
    (h : c.columns[id.column]? = some column) : c.item? id = column.get? c.arena id.seq := by
  simp [item?, h]

/-- In a filed chart every slot of a column holds an item. -/
theorem get?_isSome (g : Grammar) (c : Chart) (hc : c.Filed g) (i : Nat) (column : Column)
    (h : c.columns[i]? = some column) (seq : Nat) :
    (column.get? c.arena seq).isSome = true ↔ seq < column.size := by
  rw [Column.get?, Column.size]
  cases hslot : column.slots[seq]? with
  | none => simpa using hslot
  | some slot =>
      have hlt := hc.slot_lt i column h seq slot hslot
      simp [Arena.get?, hlt, (Array.getElem?_eq_some_iff.mp hslot).1]

def newestSize (c : Chart) : Nat := (c.columns[c.current]?).elim 0 (·.size)

theorem newest_isSome_iff (g : Grammar) (c : Chart) (hc : c.Filed g) (seq : Nat) :
    (c.item? ⟨c.current, seq⟩).isSome = true ↔ seq < c.newestSize := by
  cases h : c.columns[c.current]? with
  | none => simp [item?, newestSize, h]
  | some column =>
      rw [c.item?_eq _ column h, c.get?_isSome g hc _ column h]
      simp [newestSize, h]

theorem mem_emptyEnds_iff (g : Grammar) (c : Chart) (hc : c.Filed g) (column : Column)
    (h : c.columns[c.current]? = some column) (symbol : SymbolId) (id : ItemId) :
    c.EmptyEnd g symbol id ↔
      id.column = column.index ∧ id.seq ∈ (column.emptyEndsOf g symbol).toList := by
  have hcolumn := hc.column _ _ h
  rw [hcolumn.index]
  by_cases hs : g.isNonterminal symbol = true
  · rw [hcolumn.emptyEnds symbol hs, List.mem_filter, List.mem_range, EmptyEnd,
      Option.any_eq_true]
    constructor
    · rintro ⟨-, hid, item, hitem, hends⟩
      rw [c.item?_eq id column (by rw [hid, h])] at hitem
      exact ⟨hid, (c.get?_isSome g hc _ column h id.seq).mp (by simp [hitem]), item, hitem,
        hends⟩
    · rintro ⟨hid, -, item, hitem, hends⟩
      exact ⟨hs, hid, item, by rw [c.item?_eq id column (by rw [hid, h]), hitem], hends⟩
  · constructor
    · exact fun hend => absurd hend.1 hs
    · rintro ⟨-, hmem⟩
      simp [Column.emptyEndsOf, hs] at hmem

/-- The table of completions is no longer than the column. -/
theorem emptyEnds_size_le (g : Grammar) (c : Chart) (hc : c.Filed g) (column : Column)
    (i : Nat) (h : c.columns[i]? = some column) (symbol : SymbolId) :
    (column.emptyEndsOf g symbol).size ≤ column.size := by
  by_cases hs : g.isNonterminal symbol = true
  · rw [← Array.length_toList, (hc.column _ _ h).emptyEnds symbol hs]
    simpa using List.length_filter_le _ (List.range column.size)
  · simp [Column.emptyEndsOf, hs]

end Chart
end EarleyChart
