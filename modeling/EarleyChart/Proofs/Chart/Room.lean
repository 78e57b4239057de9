import EarleyChart.Chart.Basic

/-!
The room of the pool plays no part in what becomes of a chart. A chart over a pool
with other room has the same columns, items and queue after every change; only the
room may differ again, as the pool that is full first takes more.
-/

namespace EarleyChart

def Arena.withRoom (a : Arena) (room : Nat) : Arena := { a with capacity := room }

theorem Arena.allocate_withRoom (a : Arena) (room : Nat) : ∃ room',
    (a.withRoom room).allocate = (a.allocate.1, a.allocate.2.withRoom room') := by
  cases a with
  | mk items inUse free live peak capacity =>
      cases free with
      | nil => exact ⟨_, rfl⟩
      | cons slot free => exact ⟨_, rfl⟩

theorem Column.add_withRoom (c : Column) (g : Grammar) (arena : Arena) (worklist : Worklist)
    (new : Candidate) (room : Nat) : ∃ room',
    c.add g (arena.withRoom room) worklist new =
      ((c.add g arena worklist new).1, (c.add g arena worklist new).2.1.withRoom room',
        (c.add g arena worklist new).2.2) := by
  obtain ⟨room', h⟩ := arena.allocate_withRoom room
  refine ⟨room', ?_⟩
  simp only [Column.add, h]
  cases g.next? new.rule new.dot with
  | none => rfl
  | some symbol => rfl

namespace Chart

def withRoom (c : Chart) (room : Nat) : Chart := { c with arena := c.arena.withRoom room }

variable (c : Chart) (g : Grammar) (room : Nat)

theorem insert_withRoom (new : Candidate) : ∃ room',
    (c.withRoom room).insert g new = ((c.insert g new).1.withRoom room', (c.insert g new).2) := by
  cases c with
  | mk columns arena worklist =>
      simp only [Chart.withRoom, Chart.insert]
      cases columns.back? with
      | none => exact ⟨room, rfl⟩
      | some column =>
          simp only
          cases column.find? new.key with
          | none =>
              obtain ⟨room', h⟩ := column.add_withRoom g arena worklist new room
              exact ⟨room', by simp only [h]⟩
          | some seq =>
              simp only
              cases column.slots[seq]? with
              | none => exact ⟨room, rfl⟩
              | some slot =>
                  simp only
                  have hget : (arena.withRoom room).get? slot = arena.get? slot := rfl
                  rw [hget]
                  cases arena.get? slot with
                  | none => exact ⟨room, rfl⟩
                  | some item =>
                      refine ⟨room, ?_⟩
                      simp only
                      split <;> rfl

end Chart
end EarleyChart
