import EarleyChart.Chart.Column
import Mathlib.Data.List.Nodup

/-!
The queue as a list without repetition. The set beside the queue answers for
membership in the list, and every operation on the queue keeps the two in step. Under
all calls items leave in the order in which they were added, and none waits twice as
long as none is pushed that waits already.
-/

namespace EarleyChart

namespace Worklist

/-- No item waits twice, and the set holds exactly the waiting items. -/
structure Valid (w : Worklist) : Prop where
  nodup : w.toList.Nodup
  contains_iff : ∀ id, w.contains id = true ↔ id ∈ w.toList

theorem valid_empty : empty.Valid := ⟨.nil, by simp [contains, empty, toList]⟩

theorem valid_push (w : Worklist) (id : ItemId) (hw : w.Valid) (h : id ∉ w.toList) :
    (w.push id).Valid := by
  refine ⟨?_, fun other => ?_⟩
  · rw [toList_push]
    exact List.nodup_append.mpr ⟨hw.nodup, by simp, by simp; exact fun a ha => (h <| · ▸ ha)⟩
  · rw [toList_push, List.mem_append, List.mem_singleton, ← hw.contains_iff]
    change (w.waiting.insert id).contains other = true ↔ w.waiting.contains other = true ∨ _
    rw [Std.TreeSet.contains_insert, Bool.or_eq_true, beq_iff_eq, Std.compare_eq_iff_eq, or_comm,
      eq_comm (a := id)]

theorem mem_pushUnique (w : Worklist) (hw : w.Valid) (id other : ItemId) :
    other ∈ (w.pushUnique id).toList ↔ other ∈ w.toList ∨ other = id := by
  rw [toList_pushUnique]
  split
  · next h =>
      rw [hw.contains_iff] at h
      constructor
      · exact .inl
      · rintro (h' | rfl)
        · exact h'
        · exact h
  · simp

theorem valid_pushUnique (w : Worklist) (hw : w.Valid) (id : ItemId) :
    (w.pushUnique id).Valid := by
  unfold pushUnique
  split
  · exact hw
  · next h => exact w.valid_push id hw (by rwa [hw.contains_iff] at h)

theorem length_pushUnique_le (w : Worklist) (id : ItemId) :
    (w.pushUnique id).toList.length ≤ w.toList.length + 1 := by
  rw [toList_pushUnique]
  split <;> simp

/-- An empty queue has nothing to take. -/
theorem pop_none (w : Worklist) (h : w.pop.1 = none) : w.toList = [] := by
  have := w.toList_pop
  rw [Prod.mk.injEq, h] at this
  exact List.head?_eq_none_iff.mp this.1.symm

theorem pop_none_eq (w : Worklist) (h : w.pop.1 = none) : w.pop.2 = w := by
  obtain ⟨front, back, waiting⟩ := w
  cases front with
  | cons id front => simp [pop] at h
  | nil =>
      cases back with
      | nil => rfl
      | cons id back =>
          simp only [pop] at h
          split at h
          · next hnil => simp at hnil
          · contradiction

/-- Taking the oldest item leaves the others. -/
theorem pop_some (w : Worklist) (hw : w.Valid) (id : ItemId) (h : w.pop.1 = some id) :
    w.toList = id :: w.pop.2.toList ∧ w.pop.2.Valid := by
  have hpop := w.toList_pop
  rw [Prod.mk.injEq, h] at hpop
  have hlist : w.toList = id :: w.pop.2.toList := by
    rw [hpop.2]
    exact (List.cons_head?_tail (by rw [← hpop.1]; exact Option.mem_some_self id)).symm
  refine ⟨hlist, ?_⟩
  have hnodup := hw.nodup
  rw [hlist, List.nodup_cons] at hnodup
  refine ⟨hnodup.2, fun other => ?_⟩
  have herase : w.pop.2.waiting = w.waiting.erase id := by
    obtain ⟨front, back, waiting⟩ := w
    cases front with
    | cons first front =>
        obtain rfl : first = id := Option.some.inj h
        rfl
    | nil =>
        simp only [pop] at h ⊢
        cases hback : back.reverse with
        | nil => simp [hback] at h
        | cons first front =>
            simp only [hback, Option.some.injEq] at h
            subst h
            rfl
  have hcontains := hw.contains_iff other
  rw [hlist, List.mem_cons] at hcontains
  simp only [contains] at hcontains ⊢
  rw [herase, Std.TreeSet.contains_erase, Bool.and_eq_true, hcontains]
  by_cases hother : other = id
  · subst hother
    simp [hnodup.1]
  · simp [hother, Ne.symm hother]

/-- Queues items one after another unless they wait. -/
theorem foldl_pushUnique (seqs : List Nat) (column : Nat) (w : Worklist) (hw : w.Valid) :
    (seqs.foldl (fun w seq => w.pushUnique ⟨column, seq⟩) w).Valid ∧
      (∀ id, id ∈ (seqs.foldl (fun w seq => w.pushUnique ⟨column, seq⟩) w).toList ↔
        id ∈ w.toList ∨ id.column = column ∧ id.seq ∈ seqs) ∧
      (seqs.foldl (fun w seq => w.pushUnique ⟨column, seq⟩) w).toList.length ≤
        w.toList.length + seqs.length := by
  induction seqs generalizing w with
  | nil => simp [hw]
  | cons seq seqs ih =>
      obtain ⟨hvalid, hmem, hlength⟩ := ih _ (w.valid_pushUnique hw ⟨column, seq⟩)
      refine ⟨hvalid, fun id => ?_, ?_⟩
      · rw [List.foldl_cons, hmem, mem_pushUnique w hw]
        obtain ⟨c, s⟩ := id
        simp only [ItemId.mk.injEq, List.mem_cons]
        tauto
      · have := w.length_pushUnique_le ⟨column, seq⟩
        simp only [List.foldl_cons, List.length_cons] at hlength ⊢
        omega

inductive Call where
  | push (id : ItemId)
  | pushUnique (id : ItemId)
  | pop
  | clear
  deriving DecidableEq, Repr

def Call.queued? : Call → Option ItemId
  | push id | pushUnique id => some id
  | pop | clear => none

def make (w : Worklist) : Call → Worklist
  | .push id => w.push id
  | .pushUnique id => w.pushUnique id
  | .pop => w.pop.2
  | .clear => .empty

def makeAll (w : Worklist) (calls : List Call) : Worklist := calls.foldl make w

/-- An item is pushed without a look at the others only where it does not wait. -/
def Allows (w : Worklist) : Call → Prop
  | .push id => id ∉ w.toList
  | .pushUnique _ | .pop | .clear => True

/-- Each of the calls is allowed when its turn comes. -/
def Admits : Worklist → List Call → Prop
  | _, [] => True
  | w, call :: calls => w.Allows call ∧ (w.make call).Admits calls

def entering (w : Worklist) : Call → List ItemId
  | .push id => [id]
  | .pushUnique id => if w.contains id then [] else [id]
  | .pop | .clear => []

def leaving (w : Worklist) : Call → List ItemId
  | .push _ | .pushUnique _ => []
  | .pop => w.pop.1.toList
  | .clear => w.toList

def entered : Worklist → List Call → List ItemId
  | _, [] => []
  | w, call :: calls => w.entering call ++ (w.make call).entered calls

def left : Worklist → List Call → List ItemId
  | _, [] => []
  | w, call :: calls => w.leaving call ++ (w.make call).left calls

/-- What waited and what was added after it is what has left and, behind it, what waits. The
next item to be taken is the one in front, and no item waits twice. -/
structure Orderly (w : Worklist) (calls : List Call) : Prop where
  valid : (w.makeAll calls).Valid
  order : w.toList ++ w.entered calls = w.left calls ++ (w.makeAll calls).toList
  next : (w.makeAll calls).pop.1 = (w.makeAll calls).toList.head?

variable (w : Worklist)

theorem makeAll_append (calls more : List Call) :
    w.makeAll (calls ++ more) = (w.makeAll calls).makeAll more :=
  List.foldl_append

theorem admits_append (calls more : List Call) :
    w.Admits (calls ++ more) ↔ w.Admits calls ∧ (w.makeAll calls).Admits more := by
  induction calls generalizing w with
  | nil => simp [Admits, makeAll]
  | cons call calls ih =>
      rw [List.cons_append, Admits, Admits, ih, and_assoc]
      rfl

theorem toList_make (call : Call) :
    w.toList ++ w.entering call = w.leaving call ++ (w.make call).toList := by
  cases call with
  | push id => exact (w.toList_push id).symm
  | pushUnique id =>
      simp only [entering, leaving, make, toList_pushUnique, List.nil_append]
      split
      · exact List.append_nil _
      · rfl
  | pop =>
      have hpop := w.toList_pop
      rw [Prod.mk.injEq] at hpop
      simp only [entering, leaving, make, hpop, List.append_nil]
      cases w.toList with
      | nil => rfl
      | cons id rest => rfl
  | clear => simp [entering, leaving, make]

theorem toList_makeAll (calls : List Call) :
    w.toList ++ w.entered calls = w.left calls ++ (w.makeAll calls).toList := by
  induction calls generalizing w with
  | nil => exact List.append_nil _
  | cons call calls ih =>
      rw [entered, left, ← List.append_assoc, toList_make, List.append_assoc, ih,
        List.append_assoc]
      rfl

variable {w}

theorem Valid.make (hw : w.Valid) {call : Call} (h : w.Allows call) : (w.make call).Valid := by
  cases call with
  | push id => exact w.valid_push id hw h
  | pushUnique id => exact w.valid_pushUnique hw id
  | pop =>
      cases hpop : w.pop.1 with
      | none =>
          rw [Worklist.make, w.pop_none_eq hpop]
          exact hw
      | some id => exact (w.pop_some hw id hpop).2
  | clear => exact valid_empty

theorem Valid.makeAll (hw : w.Valid) {calls : List Call} (h : w.Admits calls) :
    (w.makeAll calls).Valid := by
  induction calls generalizing w with
  | nil => exact hw
  | cons call calls ih => exact ih (hw.make h.1) h.2

theorem Valid.orderly (hw : w.Valid) {calls : List Call} (h : w.Admits calls) :
    w.Orderly calls :=
  ⟨hw.makeAll h, w.toList_makeAll calls, congrArg Prod.fst (toList_pop _)⟩

/-- After calls that only queue items, what waited waits, and so do the items. -/
theorem Valid.mem_makeAll (hw : w.Valid) {calls : List Call} (h : w.Admits calls)
    (hqueues : ∀ call ∈ calls, call.queued? ≠ none) {id : ItemId}
    (hid : id ∈ w.toList ∨ ∃ call ∈ calls, call.queued? = some id) :
    id ∈ (w.makeAll calls).toList := by
  induction calls generalizing w with
  | nil =>
      rcases hid with hid | ⟨call, hcall, -⟩
      · exact hid
      · contradiction
  | cons call calls ih =>
      refine ih (hw.make h.1) h.2 (fun other hother => hqueues other (by simp [hother])) ?_
      have hmake : id ∈ (w.make call).toList ↔ id ∈ w.toList ∨ call.queued? = some id := by
        cases call with
        | push other => simp [Worklist.make, Call.queued?, eq_comm]
        | pushUnique other => simp [Worklist.make, Call.queued?, w.mem_pushUnique hw, eq_comm]
        | pop | clear => exact absurd rfl (hqueues _ List.mem_cons_self)
      rw [hmake]
      rcases hid with hid | ⟨other, hother, hqueued⟩
      · exact .inl (.inl hid)
      · rcases List.mem_cons.mp hother with rfl | hother
        · exact .inl (.inr hqueued)
        · exact .inr ⟨other, hother, hqueued⟩

/-- Where nothing is pushed, all calls are allowed. -/
theorem admits_of_not_push {calls : List Call} (h : ∀ id, .push id ∉ calls) : w.Admits calls := by
  induction calls generalizing w with
  | nil => trivial
  | cons call calls ih =>
      refine ⟨?_, ih fun id hid => h id (List.mem_cons_of_mem call hid)⟩
      cases call with
      | push id => exact absurd List.mem_cons_self (h id)
      | pushUnique id | pop | clear => trivial

end Worklist

namespace Column

theorem requeue_eq (c : Column) (g : Grammar) (symbol : SymbolId) (w : Worklist) :
    c.requeue g symbol w =
      (c.emptyEndsOf g symbol).toList.foldl (fun w seq => w.pushUnique ⟨c.index, seq⟩) w := by
  rw [requeue, Array.foldl_toList]

theorem valid_requeue (c : Column) (g : Grammar) (symbol : SymbolId) (w : Worklist)
    (hw : w.Valid) : (c.requeue g symbol w).Valid := by
  rw [requeue_eq]
  exact (Worklist.foldl_pushUnique _ _ w hw).1

theorem mem_requeue (c : Column) (g : Grammar) (symbol : SymbolId) (w : Worklist)
    (hw : w.Valid) (id : ItemId) :
    id ∈ (c.requeue g symbol w).toList ↔
      id ∈ w.toList ∨ id.column = c.index ∧ id.seq ∈ (c.emptyEndsOf g symbol).toList := by
  rw [requeue_eq]
  exact (Worklist.foldl_pushUnique _ _ w hw).2.1 id

theorem length_requeue_le (c : Column) (g : Grammar) (symbol : SymbolId) (w : Worklist)
    (hw : w.Valid) :
    (c.requeue g symbol w).toList.length ≤
      w.toList.length + (c.emptyEndsOf g symbol).size := by
  rw [requeue_eq, ← Array.length_toList]
  exact (Worklist.foldl_pushUnique _ _ w hw).2.2

end Column
end EarleyChart
