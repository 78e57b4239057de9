import EarleyChart.Proofs.Chart.Ownership

/-!
The pool against a plain account of what its user holds. Whatever slots were asked
for, given back and written to, a slot that is held has the item that was last
written to it, and each slot that was ever made is held or waits to be handed out
again. No slot is made while another waits, so that there are as many as were
held at most.
-/

namespace EarleyChart

abbrev Holding := List (Slot × Item)

namespace Holding

def slots (held : Holding) : List Slot := held.map Prod.fst

def giveBack (held : Holding) (slot : Slot) : Holding :=
  held.filter fun entry => entry.1 != slot

def write (held : Holding) (slot : Slot) (f : Item → Item) : Holding :=
  held.map fun entry => if entry.1 = slot then (slot, f entry.2) else entry

theorem mem_slots {held : Holding} {slot : Slot} :
    slot ∈ held.slots ↔ ∃ item, (slot, item) ∈ held := by
  simp [slots]

theorem slots_write (held : Holding) (slot : Slot) (f : Item → Item) :
    (held.write slot f).slots = held.slots := by
  rw [slots, slots, write, List.map_map]
  refine List.map_congr_left fun entry _ => ?_
  rw [Function.comp_apply]
  split
  · next h => exact h.symm
  · rfl

/-- A slot that is given back leaves the others as they were. -/
theorem slots_giveBack {held : Holding} (hnodup : held.slots.Nodup) (slot : Slot) :
    (held.giveBack slot).slots = held.slots.erase slot := by
  rw [hnodup.erase_eq_filter, slots, slots, giveBack, List.filter_map]
  rfl

end Holding

namespace Arena

/-- A pool with room for `capacity` slots at first, after any uses of it: a slot was
asked for, or one that was held was given back or written to. What is held by now
stands before all that was held earlier. -/
inductive Used (capacity : Nat) : Arena → Holding → List Holding → Prop
  | new : Used capacity (withCapacity capacity) [] []
  | allocate {a : Arena} {held : Holding} {earlier : List Holding}
      (h : Used capacity a held earlier) :
      Used capacity a.allocate.2 ((a.allocate.1, .blank) :: held) (held :: earlier)
  | release {a : Arena} {held : Holding} {earlier : List Holding} {slot : Slot}
      (h : Used capacity a held earlier) (hslot : slot ∈ held.slots) :
      Used capacity (a.release slot) (held.giveBack slot) (held :: earlier)
  | write {a : Arena} {held : Holding} {earlier : List Holding} {slot : Slot}
      (h : Used capacity a held earlier) (hslot : slot ∈ held.slots) (f : Item → Item) :
      Used capacity (a.modify slot f) (held.write slot f) (held :: earlier)

/-- The pool is as its user takes it to be. -/
structure Accounts (a : Arena) (held : Holding) : Prop where
  items : ∀ slot item, (slot, item) ∈ held → a.get? slot = some item
  blank : ∀ slot ∈ a.free, a.get? slot = some .blank
  slots : (held.slots ++ a.free).Perm ((List.range a.items.size).map Slot.mk)
  inUse : ∀ slot ∈ held.slots, a.inUse[slot.index]? = some true
  size : a.inUse.size = a.items.size
  live : a.live = held.length
  peak : a.peak = a.items.size

/-- A slot that waits is handed out again; where none does, one more is made. -/
theorem allocate_cases (a : Arena) :
    (∃ slot free, a.free = slot :: free ∧ a.allocate = (slot, { a with
      inUse := a.inUse.set! slot.index true
      free := free
      live := a.live + 1
      peak := max a.peak (a.live + 1) })) ∨
    a.free = [] ∧ ∃ capacity, a.allocate = (⟨a.items.size⟩, {
      items := a.items.push .blank
      inUse := a.inUse.push true
      free := []
      live := a.live + 1
      peak := max a.peak (a.live + 1)
      capacity := capacity }) := by
  obtain ⟨items, inUse, free, live, peak, capacity⟩ := a
  cases free with
  | nil => exact .inr ⟨rfl, _, rfl⟩
  | cons slot free => exact .inl ⟨slot, free, rfl, rfl⟩

theorem get?_release_of_ne (a : Arena) {slot other : Slot} (h : other ≠ slot) :
    (a.release slot).get? other = a.get? other := by
  have hindex : slot.index ≠ other.index := fun heq => h (by cases slot; cases other; simp_all)
  rw [release]
  split
  · exact Array.getElem?_setIfInBounds_ne hindex
  · rfl

/-- A slot that is handed out is taken back, and its item is blanked. -/
theorem release_of_inUse (a : Arena) {slot : Slot} (h : a.inUse[slot.index]? = some true) :
    a.release slot = { a with
      items := a.items.set! slot.index .blank
      inUse := a.inUse.set! slot.index false
      free := slot :: a.free
      live := a.live - 1 } := by
  rw [release, if_pos h]

namespace Accounts

variable {a : Arena} {held : Holding}

theorem new (capacity : Nat) : (withCapacity capacity).Accounts [] where
  items := by simp
  blank := by simp [withCapacity]
  slots := .refl _
  inUse := by simp [Holding.slots]
  size := rfl
  live := rfl
  peak := rfl

theorem nodup (h : a.Accounts held) : (held.slots ++ a.free).Nodup := by
  refine h.slots.nodup_iff.mpr (List.Nodup.map ?_ List.nodup_range)
  intro i j heq
  exact Slot.mk.inj heq

theorem index_lt (h : a.Accounts held) {slot : Slot} (hslot : slot ∈ held.slots ++ a.free) :
    slot.index < a.items.size := by
  obtain ⟨i, hi, rfl⟩ := List.mem_map.mp (h.slots.subset hslot)
  exact List.mem_range.mp hi

/-- There are as many slots as are held and wait. -/
theorem length_add_length (h : a.Accounts held) :
    held.length + a.free.length = a.items.size := by
  have := h.slots.length_eq
  simpa [Holding.slots] using this

theorem allocate (h : a.Accounts held) :
    a.allocate.1 ∉ held.slots ∧
      a.allocate.2.Accounts ((a.allocate.1, .blank) :: held) := by
  have hcount := h.length_add_length
  have hnodup := h.nodup
  obtain ⟨slot, free, hfree, heq⟩ | ⟨hfree, capacity, heq⟩ := a.allocate_cases
  · have hslot : slot ∈ held.slots ++ a.free := by simp [hfree]
    have hindex := h.index_lt hslot
    rw [hfree] at hnodup hcount
    have hnew : slot ∉ held.slots := fun hmem =>
      List.disjoint_of_nodup_append hnodup hmem List.mem_cons_self
    rw [heq]
    refine ⟨hnew, ?_⟩
    constructor
    case items =>
      rintro other item (_ | ⟨_, hmem⟩)
      · exact h.blank slot (by simp [hfree])
      · exact h.items other item hmem
    case blank => exact fun other hother => h.blank other (by simp [hfree, hother])
    case slots =>
      refine List.Perm.trans ?_ (hfree ▸ h.slots)
      exact List.perm_middle.symm
    case inUse =>
      intro other hother
      by_cases hsame : slot.index = other.index
      · simp [hsame, h.size, hsame ▸ hindex]
      · have hmem : other ∈ held.slots := by
          refine (List.mem_cons.mp hother).resolve_left fun he => hsame (he ▸ rfl)
        exact (Array.getElem?_setIfInBounds_ne hsame).trans (h.inUse other hmem)
    case size => simp [h.size]
    case live => simp [h.live]
    case peak =>
      have hlive := h.live
      have hpeak := h.peak
      rw [List.length_cons] at hcount
      simp only
      omega
  · have hnew : (⟨a.items.size⟩ : Slot) ∉ held.slots := fun hmem =>
      Nat.lt_irrefl _ (h.index_lt (List.mem_append_left _ hmem))
    have hlt : ∀ other ∈ held.slots, other.index < a.items.size := fun other hother =>
      h.index_lt (List.mem_append_left _ hother)
    rw [heq]
    refine ⟨hnew, ?_⟩
    constructor
    case items =>
      rintro other item (_ | ⟨_, hmem⟩)
      · exact Array.getElem?_push_size
      · have hother := hlt other (Holding.mem_slots.mpr ⟨item, hmem⟩)
        rw [get?, Array.getElem?_push_lt hother, ← Array.getElem?_eq_getElem hother]
        exact h.items other item hmem
    case blank => simp
    case slots =>
      have hslots := h.slots
      rw [hfree, List.append_nil] at hslots
      simp only [Array.size_push, List.range_succ, List.map_append, List.append_nil]
      exact (hslots.cons _).trans (List.perm_append_singleton _ _).symm
    case inUse =>
      rintro other (_ | ⟨_, hother⟩)
      · rw [← h.size]
        exact Array.getElem?_push_size
      · have hlt : other.index < a.inUse.size := h.size ▸ hlt other hother
        rw [Array.getElem?_push_lt hlt, ← Array.getElem?_eq_getElem hlt]
        exact h.inUse other hother
    case size => simp [h.size]
    case live => simp [h.live]
    case peak =>
      have hlive := h.live
      have hpeak := h.peak
      rw [hfree, List.length_nil] at hcount
      simp only [Array.size_push]
      omega

theorem release (h : a.Accounts held) {slot : Slot} (hslot : slot ∈ held.slots) :
    (a.release slot).Accounts (held.giveBack slot) := by
  have hnodup := List.Nodup.of_append_left h.nodup
  have hindex := h.index_lt (List.mem_append_left _ hslot)
  have hslots := Holding.slots_giveBack hnodup slot
  have hkept : ∀ other ∈ (held.giveBack slot).slots, other ≠ slot ∧ other ∈ held.slots := by
    intro other hother
    rw [hslots] at hother
    exact hnodup.mem_erase_iff.mp hother
  have heq := a.release_of_inUse (h.inUse slot hslot)
  constructor
  case items =>
    intro other item hmem
    rw [get?_release_of_ne a (hkept other (Holding.mem_slots.mpr ⟨item, hmem⟩)).1]
    exact h.items other item (List.mem_filter.mp hmem).1
  case blank =>
    intro other hother
    rw [heq] at hother
    by_cases hsame : other = slot
    · rw [heq, hsame, get?]
      simp [hindex]
    · rw [get?_release_of_ne a hsame]
      exact h.blank other ((List.mem_cons.mp hother).resolve_left hsame)
  case slots =>
    rw [heq, hslots]
    refine List.Perm.trans ?_ (by simpa using h.slots)
    refine List.perm_middle.trans ?_
    exact ((List.perm_cons_erase hslot).append_right a.free).symm
  case inUse =>
    intro other hother
    obtain ⟨hne, hmem⟩ := hkept other hother
    rw [release_inUse a slot other hne]
    exact h.inUse other hmem
  case size => simp [heq, h.size]
  case live =>
    have hlength : (held.giveBack slot).length = held.length - 1 := by
      have := congrArg List.length hslots
      rw [List.length_erase_of_mem hslot] at this
      simpa [Holding.slots] using this
    rw [release_live a slot (h.inUse slot hslot), h.live, hlength]
  case peak => simp [heq, h.peak]

theorem write (h : a.Accounts held) {slot : Slot} (hslot : slot ∈ held.slots) (f : Item → Item) :
    (a.modify slot f).Accounts (held.write slot f) where
  items other item hmem := by
    obtain ⟨⟨other', old⟩, hold, heq⟩ := List.mem_map.mp hmem
    have hget := h.items other' old hold
    split at heq
    · next hsame =>
      cases heq
      rw [get?_modify_self, ← show other' = slot from hsame, hget, Option.map_some]
    · next hne =>
      cases heq
      rw [get?_modify_of_ne a f hne, hget]
  blank other hother := by
    rw [(modify_free a slot f).1] at hother
    have hne : other ≠ slot := fun hsame =>
      List.disjoint_of_nodup_append h.nodup hslot (hsame ▸ hother)
    rw [get?_modify_of_ne a f hne]
    exact h.blank other hother
  slots := by
    rw [Holding.slots_write, (modify_free a slot f).1, (modify_free a slot f).2]
    exact h.slots
  inUse := by
    rw [Holding.slots_write]
    exact h.inUse
  size := h.size.trans (modify_free a slot f).2.symm
  live := by
    rw [Holding.write, List.length_map]
    exact h.live
  peak := h.peak.trans (modify_free a slot f).2.symm

end Accounts

namespace Used

variable {capacity : Nat} {a : Arena} {held : Holding} {earlier : List Holding}

theorem accounts (h : Used capacity a held earlier) : a.Accounts held := by
  induction h with
  | new => exact .new capacity
  | allocate _ ih => exact ih.allocate.2
  | release _ hslot ih => exact ih.release hslot
  | write _ hslot f ih => exact ih.write hslot f

/-- What is held now is the most, or the most was held earlier. -/
theorem peak (h : Used capacity a held earlier) :
    ((held :: earlier).map List.length).max? = some a.peak := by
  induction h with
  | new => rfl
  | @allocate a held earlier h ih =>
      have hpeak : a.allocate.2.peak = max a.peak (a.live + 1) := by
        obtain ⟨slot, free, -, heq⟩ | ⟨-, capacity, heq⟩ := a.allocate_cases <;> rw [heq]
      rw [List.map_cons, List.max?_cons, ih, Option.elim_some, hpeak, h.accounts.live,
        List.length_cons, Nat.max_comm]
  | @release a held earlier slot h hslot ih =>
      have hle := (List.max?_eq_some_iff.mp ih).2 held.length (by simp)
      have hless : (held.giveBack slot).length ≤ held.length := List.length_filter_le _ _
      rw [List.map_cons, List.max?_cons, ih, Option.elim_some,
        a.release_of_inUse (h.accounts.inUse slot hslot),
        Nat.max_eq_right (Nat.le_trans hless hle)]
  | @write a held earlier slot h _ f ih =>
      have hle := (List.max?_eq_some_iff.mp ih).2 held.length (by simp)
      have hsame : (held.write slot f).length = held.length := List.length_map _
      rw [List.map_cons, List.max?_cons, ih, Option.elim_some, hsame, Nat.max_eq_right hle]
      rfl

end Used

/-- After any uses of a pool of any room, what is held is in the slots it was put
into, the next slot handed out is not held and is blank, writing to a slot changes
no other, the counts are those of what is and was held, and each slot that was made
is held or waits, and that once. -/
theorem serves_holding {capacity : Nat} {a : Arena} {held : Holding} {earlier : List Holding}
    (h : Used capacity a held earlier) :
    (∀ slot item, (slot, item) ∈ held → a.get? slot = some item) ∧
      (a.allocate.1 ∉ held.slots ∧ a.allocate.2.get? a.allocate.1 = some .blank ∧
        Item.blank.links = []) ∧
      (∀ slot ∈ held.slots, ∀ other ∈ held.slots, other ≠ slot → ∀ f : Item → Item,
        (a.modify slot f).get? other = a.get? other) ∧
      a.live = held.length ∧
      ((held :: earlier).map List.length).max? = some a.peak ∧
      (held.slots ++ a.free).Perm ((List.range a.items.size).map Slot.mk) ∧
      a.items.size = a.peak := by
  have haccounts := h.accounts
  obtain ⟨hfresh, hnext⟩ := haccounts.allocate
  refine ⟨haccounts.items, ⟨hfresh, ?_, rfl⟩, ?_, haccounts.live, h.peak, haccounts.slots,
    haccounts.peak.symm⟩
  · exact hnext.items _ _ List.mem_cons_self
  · intro slot _ other _ hne f
    exact get?_modify_of_ne a f hne

/-- Two slots are taken of a pool without room, the first is written to and given
back, and then taken again. -/
theorem serves_holding_again :
    let a : Arena := ⟨#[.blank, .blank], #[true, true], [], 2, 2, 1024⟩
    let held : Holding := [(⟨0⟩, .blank), (⟨1⟩, .blank)]
    ∃ earlier, Used 0 a held earlier ∧ a.allocate.1 ∉ held.slots ∧ a.live = 2 ∧ a.peak = 2 ∧
      (held :: earlier).map List.length = [2, 1, 2, 2, 1, 0] := by
  have htaken := (show Used 0 (withCapacity 0) [] [] from .new).allocate.allocate
  have hwritten := htaken.write (show ⟨0⟩ ∈ Holding.slots _ by decide)
    fun item => { item with rule := 7 }
  have hused := (hwritten.release (show ⟨0⟩ ∈ Holding.slots _ by decide)).allocate
  have hserves := serves_holding hused
  exact ⟨_, hused, hserves.2.1.1, hserves.2.2.2.1, rfl, rfl⟩

end Arena
end EarleyChart
