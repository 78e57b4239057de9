import EarleyChart.Proofs.Chart.Agreement

/-!
The changes of a chart that create no items: a column is opened, a symbol is
marked as predicted, an item is taken out of the queue, everything is forgotten.
None of them touches an item, and each keeps the tables in agreement.
-/

namespace EarleyChart
namespace Chart

variable (g : Grammar) (c : Chart) (hc : c.Filed g)

theorem filed_empty (arena : Arena) (h : arena.free = []) : (empty arena).Filed g where
  free := h
  slot_lt := by simp [empty]
  slot_inj := by simp [empty]
  column := by simp [empty]
  queue := Worklist.valid_empty
  queued := by simp [empty]

theorem columns_openColumn (token : Option Token) (i : Nat) :
    (c.openColumn g token).columns[i]? =
      if i = c.columns.size then some (Column.new g c.columns.size token)
      else c.columns[i]? := by
  simp [openColumn, Array.getElem?_push]

/-- A new column has no items. -/
theorem item?_openColumn (token : Option Token) (id : ItemId) :
    (c.openColumn g token).item? id = c.item? id := by
  rw [item?, columns_openColumn]
  split
  · next h => simp [item?, h, Column.new, Column.get?]
  · rfl

theorem token?_openColumn (token : Option Token) (i : Nat) :
    (c.openColumn g token).token? i = if i = c.columns.size then token else c.token? i := by
  rw [token?, columns_openColumn]
  split <;> rfl

theorem current_openColumn (token : Option Token) :
    (c.openColumn g token).columns.size = c.columns.size + 1 ∧
      (c.openColumn g token).current = c.columns.size := by
  simp [openColumn, current]

include hc in
/-- A column may be opened when the one before it is closed. -/
theorem filed_openColumn (h : c.worklist.toList = []) (token : Option Token) :
    (c.openColumn g token).Filed g := by
  constructor
  case free => exact hc.free
  case slot_lt =>
    intro i column hcolumn seq slot hslot
    rw [columns_openColumn] at hcolumn
    split at hcolumn
    · obtain rfl := Option.some.inj hcolumn
      simp [Column.new] at hslot
    · exact hc.slot_lt i column hcolumn seq slot hslot
  case slot_inj =>
    intro i j first second hfirst hsecond s t slot hs ht
    rw [columns_openColumn] at hfirst hsecond
    split at hfirst
    · obtain rfl := Option.some.inj hfirst
      simp [Column.new] at hs
    · split at hsecond
      · obtain rfl := Option.some.inj hsecond
        simp [Column.new] at ht
      · exact hc.slot_inj i j first second hfirst hsecond s t slot hs ht
  case column =>
    intro i column hcolumn
    rw [columns_openColumn] at hcolumn
    split at hcolumn
    · next hi =>
        obtain rfl := Option.some.inj hcolumn
        exact hi ▸ Column.filed_new g _ _ token
    · exact hc.column i column hcolumn
  case queue => exact hc.queue
  case queued =>
    intro id hid
    change id ∈ c.worklist.toList at hid
    simp [h] at hid

theorem columns_markNewest (symbol : SymbolId) (i : Nat) :
    (c.modifyNewest (·.markPredicted symbol)).columns[i]? =
      if i = c.current then (c.columns[i]?).map (·.markPredicted symbol)
      else c.columns[i]? := by
  simp only [modifyNewest, Array.getElem?_modify, current, eq_comm (a := i)]

/-- A mark leaves the items alone. -/
theorem item?_markNewest (symbol : SymbolId) (id : ItemId) :
    (c.modifyNewest (·.markPredicted symbol)).item? id = c.item? id := by
  rw [item?, columns_markNewest]
  split
  · rw [item?, Option.bind_map]
    rfl
  · rfl

theorem current_markNewest (symbol : SymbolId) :
    (c.modifyNewest (·.markPredicted symbol)).columns.size = c.columns.size ∧
      (c.modifyNewest (·.markPredicted symbol)).current = c.current := by
  simp [modifyNewest, current]

theorem token?_markNewest (symbol : SymbolId) (i : Nat) :
    (c.modifyNewest (·.markPredicted symbol)).token? i = c.token? i := by
  rw [token?, columns_markNewest, token?]
  split
  · rw [Option.bind_map]
    rfl
  · rfl

theorem marked_markNewest (symbol other : Nat) (i : Nat) :
    (c.modifyNewest (·.markPredicted symbol)).marked? i other =
      if i = c.current ∧ symbol = other then (c.marked? i other).map fun _ => true
      else c.marked? i other := by
  rw [marked?, columns_markNewest, marked?]
  by_cases hi : i = c.current
  · cases hcolumn : c.columns[i]? with
    | none => simp [hi]
    | some column =>
        simp only [hi, true_and, if_true, Option.map_some, Option.bind_some,
          Column.isPredicted?, Column.markPredicted, Array.set!_eq_setIfInBounds,
          Array.getElem?_setIfInBounds]
        by_cases hs : symbol = other
        · subst hs
          by_cases hlt : symbol < column.predicted.size
          · simp [hlt]
          · simp [hlt]
        · simp [hs]
  · simp [hi]

include hc in
theorem filed_markNewest (symbol : SymbolId) :
    (c.modifyNewest (·.markPredicted symbol)).Filed g := by
  have hcurrent : (c.modifyNewest (·.markPredicted symbol)).current = c.current := by
    simp [modifyNewest, current]
  have hslots : ∀ (i : Nat) (column : Column),
      (c.modifyNewest (·.markPredicted symbol)).columns[i]? = some column →
        ∃ old, c.columns[i]? = some old ∧ old.slots = column.slots := by
    intro i column hcolumn
    rw [columns_markNewest] at hcolumn
    split at hcolumn
    · obtain ⟨old, hold, rfl⟩ := Option.map_eq_some_iff.mp hcolumn
      exact ⟨old, hold, rfl⟩
    · exact ⟨column, hcolumn, rfl⟩
  constructor
  case free => exact hc.free
  case slot_lt =>
    intro i column hcolumn seq slot hslot
    obtain ⟨old, hold, heq⟩ := hslots i column hcolumn
    exact hc.slot_lt i old hold seq slot (heq ▸ hslot)
  case slot_inj =>
    intro i j first second hfirst hsecond s t slot hs ht
    obtain ⟨old, hold, heq⟩ := hslots i first hfirst
    obtain ⟨old', hold', heq'⟩ := hslots j second hsecond
    exact hc.slot_inj i j old old' hold hold' s t slot (heq ▸ hs) (heq' ▸ ht)
  case column =>
    intro i column hcolumn
    rw [columns_markNewest] at hcolumn
    split at hcolumn
    · obtain ⟨old, hold, rfl⟩ := Option.map_eq_some_iff.mp hcolumn
      exact Column.filed_markPredicted g _ i old (hc.column i old hold) symbol
    · exact hc.column i column hcolumn
  case queue => exact hc.queue
  case queued =>
    intro id hid
    rw [hcurrent, item?_markNewest]
    exact hc.queued id hid

def popped (c : Chart) : Chart := { c with worklist := c.worklist.pop.2 }

include hc in
/-- Taking the oldest queued item leaves the others in the queue. -/
theorem filed_popped (id : ItemId) (h : c.worklist.pop.1 = some id) :
    c.popped.Filed g ∧ c.worklist.toList = id :: c.popped.worklist.toList := by
  obtain ⟨hlist, hvalid⟩ := c.worklist.pop_some hc.queue id h
  refine ⟨{ hc with queue := hvalid, queued := fun other hother => ?_ }, hlist⟩
  exact hc.queued other (hlist ▸ List.mem_cons_of_mem _ hother)

end Chart
end EarleyChart
