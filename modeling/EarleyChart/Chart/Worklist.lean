import Std.Data.TreeSet
import EarleyChart.Chart.Item

/-!
The queue of items that the closure of a column still has to look at, first in,
first out. A set beside the queue answers whether an item waits.
-/

namespace EarleyChart

/-- The queue as two lists, the second in reverse, and the set of waiting items. -/
structure Worklist where
  front : List ItemId
  back : List ItemId
  waiting : Std.TreeSet ItemId

namespace Worklist

def empty : Worklist := ⟨[], [], {}⟩

instance : Inhabited Worklist := ⟨empty⟩

def toList (w : Worklist) : List ItemId := w.front ++ w.back.reverse

def size (w : Worklist) : Nat := w.front.length + w.back.length

def isEmpty (w : Worklist) : Bool := w.front.isEmpty && w.back.isEmpty

def contains (w : Worklist) (id : ItemId) : Bool := w.waiting.contains id

def push (w : Worklist) (id : ItemId) : Worklist :=
  match w with
  | ⟨front, back, waiting⟩ => ⟨front, id :: back, waiting.insert id⟩

def pushUnique (w : Worklist) (id : ItemId) : Worklist :=
  if w.contains id then w else w.push id

def pop (w : Worklist) : Option ItemId × Worklist :=
  match w with
  | ⟨id :: front, back, waiting⟩ => (some id, ⟨front, back, waiting.erase id⟩)
  | ⟨[], back, waiting⟩ =>
      match back.reverse with
      | [] => (none, ⟨[], [], waiting⟩)
      | id :: front => (some id, ⟨front, [], waiting.erase id⟩)

@[simp] theorem toList_empty : empty.toList = [] := rfl

@[simp] theorem toList_push (w : Worklist) (id : ItemId) :
    (w.push id).toList = w.toList ++ [id] := by
  simp [push, toList]

theorem toList_pushUnique (w : Worklist) (id : ItemId) :
    (w.pushUnique id).toList = if w.contains id then w.toList else w.toList ++ [id] := by
  unfold pushUnique
  split <;> simp

/-- The oldest item is taken and the others keep their order. -/
theorem toList_pop (w : Worklist) :
    (w.pop.1, w.pop.2.toList) = (w.toList.head?, w.toList.tail) := by
  obtain ⟨front, back, waiting⟩ := w
  cases front with
  | cons id front => simp [pop, toList]
  | nil =>
      simp only [pop, toList, List.nil_append]
      split <;> simp_all

end Worklist
end EarleyChart
