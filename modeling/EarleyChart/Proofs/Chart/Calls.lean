import EarleyChart.Proofs.Chart.Extension

/-!
The calls to the queue that entering items comes down to. Only the item that is created is
pushed, and it is new to the queue. All else is queued unless it waits, and whatever is
queued lies in the newest column.
-/

namespace EarleyChart
namespace Column

/-- The calls that queue again the completions of this column that an item waits for. -/
def requeueCalls (c : Column) (g : Grammar) (new : Candidate) : List Worklist.Call :=
  match g.next? new.rule new.dot with
  | none => []
  | some symbol => (c.emptyEndsOf g symbol).toList.map fun seq => .pushUnique ⟨c.index, seq⟩

theorem makeAll_requeueCalls (c : Column) (g : Grammar) (new : Candidate) (w : Worklist) :
    w.makeAll (c.requeueCalls g new) =
      (g.next? new.rule new.dot).elim w fun symbol => c.requeue g symbol w := by
  rw [requeueCalls]
  cases g.next? new.rule new.dot with
  | none => rfl
  | some symbol =>
      rw [Option.elim_some, requeue_eq, Worklist.makeAll, List.foldl_map]
      rfl

/-- These calls queue items that may wait already, and are allowed always. -/
theorem admits_requeueCalls (c : Column) (g : Grammar) (new : Candidate) (w : Worklist) :
    w.Admits (c.requeueCalls g new) ∧ ∀ call ∈ c.requeueCalls g new, call.queued? ≠ none := by
  have hunique : ∀ call ∈ c.requeueCalls g new, ∃ id, call = .pushUnique id := by
    intro call hcall
    rw [requeueCalls] at hcall
    split at hcall
    · contradiction
    · obtain ⟨seq, -, rfl⟩ := List.mem_map.mp hcall
      exact ⟨_, rfl⟩
  constructor
  · apply Worklist.admits_of_not_push
    intro id hid
    obtain ⟨_, hcall⟩ := hunique _ hid
    contradiction
  · intro call hcall
    obtain ⟨id, rfl⟩ := hunique call hcall
    exact Option.some_ne_none id

end Column

structure QueueCall where
  newest : Nat
  call : Worklist.Call
  deriving DecidableEq, Repr

namespace Chart

def insertCalls (c : Chart) (g : Grammar) (new : Candidate) : List Worklist.Call :=
  match c.newest? with
  | none => []
  | some column =>
      match column.find? new.key with
      | none => .push ⟨column.index, column.size⟩ :: column.requeueCalls g new
      | some seq =>
          match column.get? c.arena seq with
          | none => []
          | some item =>
              if new.errorCost < item.errorCost then
                .pushUnique ⟨column.index, seq⟩ :: column.requeueCalls g new
              else []

def insertAllCalls (c : Chart) (g : Grammar) : List Candidate → List QueueCall
  | [] => []
  | new :: news =>
      (c.insertCalls g new).map (QueueCall.mk c.current) ++
        (c.insert g new).1.insertAllCalls g news

/-- A chart comes out of another with calls to its queue, each of which is allowed when its
turn comes. What they queue are items, of the column that was the newest at that time. -/
structure Queues (c : Chart) (calls : List QueueCall) (c' : Chart) : Prop where
  admits : c.worklist.Admits (calls.map (·.call))
  queue : c'.worklist = c.worklist.makeAll (calls.map (·.call))
  newest : ∀ call ∈ calls, ∀ id, call.call.queued? = some id →
    id.column = call.newest ∧ (c'.item? id).isSome = true

/-- A chart that grows in this way. -/
structure Proceeds (c : Chart) (calls : List QueueCall) (c' : Chart) : Prop
    extends c.Queues calls c' where
  grows : c.Grows c'

section insert

variable (c : Chart) (g : Grammar) (new : Candidate)

/-- The calls do to the queue what entering the item does. -/
theorem worklist_insert :
    (c.insert g new).1.worklist = c.worklist.makeAll (c.insertCalls g new) := by
  unfold insertCalls
  cases hnewest : c.newest? with
  | none =>
      rw [newest?] at hnewest
      simp only [insert, hnewest]
      rfl
  | some column =>
      have hcurrent : c.columns[c.current]? = some column := by
        rwa [newest?, Array.back?_eq_getElem?] at hnewest
      dsimp only
      cases hfind : column.find? new.key with
      | none =>
          rw [insert_of_absent g c new column hcurrent hfind]
          exact (column.makeAll_requeueCalls g new _).symm
      | some seq =>
          dsimp only
          cases hitem : column.get? c.arena seq with
          | none =>
              rw [newest?] at hnewest
              simp only [insert, hnewest, hfind]
              cases hslot : column.slots[seq]? with
              | none => rfl
              | some slot =>
                  rw [Column.get?, hslot, Option.bind_some] at hitem
                  simp only [hitem]
                  rfl
          | some item =>
              obtain ⟨slot, hslot, hget⟩ := Option.bind_eq_some_iff.mp hitem
              rw [insert_of_present g c new column hcurrent seq slot item hslot hget hfind, merging]
              dsimp only
              split
              · exact (column.makeAll_requeueCalls g new _).symm
              · rfl

variable {c g}

/-- Each call queues an item, and what is pushed does not wait yet. -/
theorem admits_insertCalls (hc : c.Filed g) :
    c.worklist.Admits (c.insertCalls g new) ∧
      ∀ call ∈ c.insertCalls g new, call.queued? ≠ none := by
  unfold insertCalls
  cases hnewest : c.newest? with
  | none => exact ⟨trivial, by simp⟩
  | some column =>
      have hcurrent : c.columns[c.current]? = some column := by
        rwa [newest?, Array.back?_eq_getElem?] at hnewest
      have hagain := column.admits_requeueCalls g new
      dsimp only
      split
      · obtain ⟨hadmits, hqueues⟩ := hagain (c.worklist.push ⟨column.index, column.size⟩)
        exact ⟨⟨not_queued_next g c hc column hcurrent, hadmits⟩,
          List.forall_mem_cons.mpr ⟨Option.some_ne_none _, hqueues⟩⟩
      · next seq hfind =>
        split
        · exact ⟨trivial, by simp⟩
        · split
          · obtain ⟨hadmits, hqueues⟩ := hagain (c.worklist.pushUnique ⟨column.index, seq⟩)
            exact ⟨⟨trivial, hadmits⟩,
              List.forall_mem_cons.mpr ⟨Option.some_ne_none _, hqueues⟩⟩
          · exact ⟨trivial, by simp⟩

theorem calls_at (newest : Nat) (calls : List Worklist.Call) :
    (calls.map (QueueCall.mk newest)).map (·.call) = calls := by
  rw [List.map_map]
  exact List.map_id calls

/-- Entering an item queues items of the newest column, and pushes none that waits. -/
theorem insert_queues (hc : c.Filed g) (hfiled : (c.insert g new).1.Filed g)
    (hframe : c.SameFrame (c.insert g new).1) :
    c.Queues ((c.insertCalls g new).map (QueueCall.mk c.current)) (c.insert g new).1 := by
  obtain ⟨hadmits, hqueues⟩ := admits_insertCalls new hc
  constructor
  case admits => rwa [calls_at]
  case queue => rw [calls_at, worklist_insert]
  case newest =>
    intro _ hcall id hid
    obtain ⟨call, hmem, rfl⟩ := List.mem_map.mp hcall
    -- What is queued by the calls waits at their end, where all that waits is an item.
    have hwaits := hc.queue.mem_makeAll hadmits hqueues (.inr ⟨call, hmem, hid⟩)
    rw [← worklist_insert] at hwaits
    obtain ⟨hcolumn, hitem⟩ := hfiled.queued id hwaits
    exact ⟨hcolumn.trans hframe.current, Option.isSome_iff_exists.mpr hitem⟩

end insert

section compose

variable {a b c : Chart} {calls more : List QueueCall}

theorem Queues.of_worklist (h : b.worklist = a.worklist) : a.Queues [] b :=
  ⟨trivial, h, by simp⟩

/-- A call that queues nothing is allowed always. -/
theorem Queues.single (newest : Nat) {call : Worklist.Call} (hcall : call.queued? = none)
    (h : b.worklist = a.worklist.make call) : a.Queues [⟨newest, call⟩] b := by
  constructor
  case admits =>
    refine ⟨?_, trivial⟩
    cases call with
    | push id | pushUnique id => contradiction
    | pop | clear => trivial
  case queue => exact h
  case newest =>
    intro _ hmem id hid
    obtain rfl := List.mem_singleton.mp hmem
    rw [hcall] at hid
    contradiction

theorem Proceeds.refl (c : Chart) : c.Proceeds [] c := ⟨.of_worklist rfl, .refl c⟩

theorem Proceeds.trans (h : a.Proceeds calls b) (k : b.Proceeds more c) :
    a.Proceeds (calls ++ more) c := by
  constructor
  case toQueues =>
    constructor
    case admits =>
      rw [List.map_append, Worklist.admits_append, ← h.queue]
      exact ⟨h.admits, k.admits⟩
    case queue => rw [List.map_append, Worklist.makeAll_append, ← h.queue, k.queue]
    case newest =>
      intro call hcall id hid
      rcases List.mem_append.mp hcall with hcall | hcall
      · obtain ⟨hcolumn, hitem⟩ := h.newest call hcall id hid
        obtain ⟨item, hitem⟩ := Option.isSome_iff_exists.mp hitem
        obtain ⟨item', hitem', -⟩ := k.grows.item id item hitem
        exact ⟨hcolumn, by rw [hitem', Option.isSome_some]⟩
      · exact k.newest call hcall id hid
  case grows => exact h.grows.trans k.grows

end compose

section entering

variable {g : Grammar} (hg : g.Numbered) {c : Chart}

include hg in
theorem insertAll_proceeds (hc : c.Valid g) (hne : 0 < c.columns.size) {news : List Candidate}
    (hfits : ∀ new ∈ news, c.Fits g new) :
    c.Proceeds (c.insertAllCalls g news) (c.insertAll g news) := by
  induction news generalizing c with
  | nil => exact .refl c
  | cons new news ih =>
      have hnew := hfits new List.mem_cons_self
      obtain ⟨-, hfiled, hframe⟩ := c.insert_entered g hg hc.filed hne new hnew.dot
      obtain ⟨hvalid, hextends⟩ := insert_extends g hg c hc hne hnew
      have hfirst : c.Proceeds _ (c.insert g new).1 :=
        ⟨insert_queues new hc.filed hfiled hframe, hextends.grows⟩
      refine hfirst.trans (ih hvalid (hframe.size ▸ hne) fun other hother => ?_)
      exact (hfits other (List.mem_cons_of_mem new hother)).grows hextends.grows hframe.current

end entering

end Chart
end EarleyChart
