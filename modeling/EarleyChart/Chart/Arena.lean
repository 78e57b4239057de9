import EarleyChart.Chart.Item

/-!
The pool of item slots. A released slot is handed out again before a new one is
made, the last released first. Room for slots grows by whole blocks and is kept
when the pool is emptied.
-/

namespace EarleyChart

structure Slot where
  index : Nat
  deriving DecidableEq, Repr, Inhabited

/-- The pool: the items ever made, which of them are handed out, the released
slots with the last released first, and the numbers of slots in use now, in use
at most, and with room set aside. -/
structure Arena where
  items : Array Item
  inUse : Array Bool
  free : List Slot
  live : Nat
  peak : Nat
  capacity : Nat
  deriving Repr

namespace Arena

def blockSize : Nat := 1024

def withCapacity (capacity : Nat) : Arena := ⟨#[], #[], [], 0, 0, capacity⟩

def empty : Arena := withCapacity blockSize

/-- Blocks set aside for a number of tokens: 32 slots a token and as many for
the beginning, in whole blocks, from one to 1024. Token counts are words of 64
bits, and one more than the greatest is zero. -/
def blocksForTokens (tokens : Nat) : Nat :=
  let estimate := min ((tokens + 1) % UInt64.size * 32) (UInt64.size - 1)
  max 1 (min 1024 ((estimate + blockSize - 1) / blockSize))

def forTokens (tokens : Nat) : Arena :=
  withCapacity (blocksForTokens tokens * blockSize)

def allocate (a : Arena) : Slot × Arena :=
  match a with
  | ⟨items, inUse, slot :: free, live, peak, capacity⟩ =>
      (slot, ⟨items, inUse.set! slot.index true, free, live + 1, max peak (live + 1), capacity⟩)
  | ⟨items, inUse, [], live, peak, capacity⟩ =>
      let size := items.size
      let capacity := if size = capacity then capacity + blockSize else capacity
      (⟨size⟩, ⟨items.push Item.blank, inUse.push true, [], live + 1, max peak (live + 1), capacity⟩)

/-- Takes a slot back and blanks its item; a slot not handed out is left alone. -/
def release (a : Arena) (slot : Slot) : Arena :=
  match a with
  | ⟨items, inUse, free, live, peak, capacity⟩ =>
      if inUse[slot.index]? = some true then
        ⟨items.set! slot.index Item.blank, inUse.set! slot.index false, slot :: free, live - 1,
          peak, capacity⟩
      else ⟨items, inUse, free, live, peak, capacity⟩

def get? (a : Arena) (slot : Slot) : Option Item := a.items[slot.index]?

def modify (a : Arena) (slot : Slot) (f : Item → Item) : Arena :=
  match a with
  | ⟨items, inUse, free, live, peak, capacity⟩ =>
      ⟨items.modify slot.index f, inUse, free, live, peak, capacity⟩

def isEmpty (a : Arena) : Bool := a.live == 0

def reset (a : Arena) : Arena := withCapacity a.capacity

theorem get?_modify_of_ne (a : Arena) {slot other : Slot} (f : Item → Item)
    (h : other ≠ slot) : (a.modify slot f).get? other = a.get? other := by
  have h' : slot.index ≠ other.index := fun e => h (by cases slot; cases other; simp_all)
  simp [get?, modify, Array.getElem?_modify, h']

theorem get?_modify_self (a : Arena) (slot : Slot) (f : Item → Item) :
    (a.modify slot f).get? slot = (a.get? slot).map f := by
  simp [get?, modify, Array.getElem?_modify]

end Arena
end EarleyChart
