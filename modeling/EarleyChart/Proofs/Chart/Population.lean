import EarleyChart.Proofs.Chart.Ownership
import EarleyChart.Proofs.Parser.Process

/-!
The number of items in use beside the queue. Whatever enters a chart only adds to it,
and an item that is added is queued. A chart that outgrows a limit therefore has an
item in its queue, at which the limit is looked at.
-/

namespace EarleyChart

namespace Worklist

theorem pushUnique_ne_nil {w : Worklist} (h : w.toList ≠ []) (id : ItemId) :
    (w.pushUnique id).toList ≠ [] := by
  rw [toList_pushUnique]
  split
  · exact h
  · simp

theorem push_ne_nil (w : Worklist) (id : ItemId) : (w.push id).toList ≠ [] := by
  simp

end Worklist

theorem Column.requeue_ne_nil {w : Worklist} (h : w.toList ≠ []) (column : Column) (g : Grammar)
    (symbol : SymbolId) : (column.requeue g symbol w).toList ≠ [] := by
  rw [requeue_eq]
  induction (column.emptyEndsOf g symbol).toList generalizing w with
  | nil => exact h
  | cons seq seqs ih => exact ih (Worklist.pushUnique_ne_nil h _)

theorem Arena.storing_live (a : Arena) (item : Item) : (a.storing item).live = a.live + 1 := by
  obtain ⟨items, inUse, free, live, peak, capacity⟩ := a
  cases free <;> rfl

namespace Chart

/-- Items are only added. Where one was queued, or where one was added, one is queued. -/
structure Swells (c c' : Chart) : Prop where
  live_le : c.arena.live ≤ c'.arena.live
  queued : c.worklist.toList ≠ [] ∨ c.arena.live < c'.arena.live → c'.worklist.toList ≠ []

/-- Where there are more items than a limit allows, one of them is queued. -/
def Alert (limit : Nat) (c : Chart) : Prop := limit < c.arena.live → c.worklist.toList ≠ []

variable {c c' : Chart}

namespace Swells

theorem of_eq (hlive : c'.arena.live = c.arena.live)
    (hqueued : c.worklist.toList ≠ [] → c'.worklist.toList ≠ []) : c.Swells c' :=
  ⟨Nat.le_of_eq hlive.symm, fun h => hqueued (h.resolve_right (by omega))⟩

theorem refl (c : Chart) : c.Swells c := .of_eq rfl id

theorem trans {a b c : Chart} (h : a.Swells b) (k : b.Swells c) : a.Swells c := by
  have hab := h.live_le
  have hbc := k.live_le
  refine ⟨Nat.le_trans hab hbc, fun hqueued => k.queued ?_⟩
  rcases hqueued with hqueued | hlt
  · exact .inl (h.queued (.inl hqueued))
  · by_cases hfirst : a.arena.live < b.arena.live
    · exact .inl (h.queued (.inr hfirst))
    · exact .inr (by omega)

theorem alert (h : c.Swells c') {limit : Nat} (halert : c.Alert limit) : c'.Alert limit := by
  intro hover
  have := h.live_le
  by_cases hbefore : limit < c.arena.live
  · exact h.queued (.inl (halert hbefore))
  · exact h.queued (.inr (by omega))

end Swells

variable (c) (g : Grammar)

theorem swells_openColumn (token : Option Token) : c.Swells (c.openColumn g token) :=
  .of_eq rfl id

theorem swells_insert (new : Candidate) : c.Swells (c.insert g new).1 := by
  cases hcolumn : c.columns[c.current]? with
  | none =>
      rw [current, ← Array.back?_eq_getElem?] at hcolumn
      simpa [Chart.insert, hcolumn] using Swells.refl c
  | some column =>
      cases hfind : column.find? new.key with
      | none =>
          rw [insert_of_absent g c new column hcolumn hfind]
          have hlive := c.arena.storing_live (new.toItem ⟨column.index, column.size⟩)
          have hpushed := c.worklist.push_ne_nil ⟨column.index, column.size⟩
          refine ⟨by rw [creating, hlive]; exact Nat.le_succ _, fun _ => ?_⟩
          rw [creating]
          cases g.next? new.rule new.dot with
          | none => exact hpushed
          | some symbol => exact column.requeue_ne_nil hpushed g symbol
      | some seq =>
          cases hget : column.get? c.arena seq with
          | none =>
              rw [current, ← Array.back?_eq_getElem?] at hcolumn
              cases hslot : column.slots[seq]? with
              | none => simpa [Chart.insert, hcolumn, hfind, hslot] using Swells.refl c
              | some slot =>
                  rw [Column.get?, hslot, Option.bind_some] at hget
                  simpa [Chart.insert, hcolumn, hfind, hslot, hget] using Swells.refl c
          | some item =>
              obtain ⟨slot, hslot, hitem⟩ := Option.bind_eq_some_iff.mp hget
              rw [insert_of_present g c new column hcolumn seq slot item hslot hitem hfind]
              refine .of_eq rfl fun hqueued => ?_
              rw [merging]
              have hpushed := Worklist.pushUnique_ne_nil hqueued ⟨column.index, seq⟩
              split
              · cases g.next? new.rule new.dot with
                | none => exact hpushed
                | some symbol => exact column.requeue_ne_nil hpushed g symbol
              · exact hqueued

theorem swells_insertAll (news : List Candidate) : c.Swells (c.insertAll g news) := by
  induction news generalizing c with
  | nil => exact .refl c
  | cons new news ih => exact (c.swells_insert g new).trans (ih _)

theorem swells_predict (symbol : SymbolId) : c.Swells (c.predict g symbol) := by
  rw [predict]
  split
  · have hmarked : c.Swells (c.modifyNewest (·.markPredicted symbol)) := .of_eq rfl id
    exact hmarked.trans (swells_insertAll _ g _)
  · exact .refl c

theorem swells_process (ceiling : Nat) (item : Item) : c.Swells (c.process g ceiling item) := by
  rw [process]
  cases g.next? item.rule item.dot with
  | none => exact c.swells_insertAll g _
  | some symbol =>
      simp only
      split
      · exact c.swells_predict g symbol
      · exact .refl c

end Chart
end EarleyChart
