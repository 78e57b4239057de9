import EarleyChart.Proofs.Parser.Process

/-!
The chart only grows at its end. Entering an item changes the newest column and no
other; its slots keep their order and new ones come last. What an identifier stands
for, once it was given out, stays the same, and so does the first link of the item.
-/

namespace EarleyChart
namespace Chart

/-- The columns but the newest one are the same, and the newest one has kept its token
and its slots. -/
structure Stacks (c c' : Chart) : Prop where
  size : c'.columns.size = c.columns.size
  older : ∀ i, i ≠ c.current → c'.columns[i]? = c.columns[i]?
  newest : ∀ column, c.columns[c.current]? = some column →
    ∃ column', c'.columns[c.current]? = some column' ∧ column'.index = column.index ∧
      column'.token = column.token ∧ column.slots.toList <+: column'.slots.toList

theorem Stacks.current {c c' : Chart} (h : c.Stacks c') : c'.current = c.current := by
  rw [Chart.current, Chart.current, h.size]

theorem Stacks.of_columns {c c' : Chart} (h : c'.columns = c.columns) : c.Stacks c' where
  size := by rw [h]
  older _ _ := by rw [h]
  newest column hcolumn := ⟨column, by rw [h, hcolumn], rfl, rfl, List.prefix_refl _⟩

theorem Stacks.trans {a b c : Chart} (h : a.Stacks b) (k : b.Stacks c) : a.Stacks c where
  size := k.size.trans h.size
  older i hi := by rw [k.older i (h.current.symm ▸ hi), h.older i hi]
  newest column hcolumn := by
    obtain ⟨mid, hmid, hindex, htoken, hslots⟩ := h.newest column hcolumn
    rw [← h.current] at hmid
    obtain ⟨last, hlast, hindex', htoken', hslots'⟩ := k.newest mid hmid
    rw [h.current] at hlast
    exact ⟨last, hlast, hindex'.trans hindex, htoken'.trans htoken, hslots.trans hslots'⟩

variable (c : Chart) (g : Grammar)

theorem stacks_creating (new : Candidate) (column : Column)
    (h : c.columns[c.current]? = some column) : c.Stacks (c.creating g column new) := by
  obtain ⟨hindex, htoken, hslots, -⟩ := Column.filing_fields column g c.arena.allocate.1 new
  constructor
  case size => exact (current_creating g c new column h).1
  case older =>
    intro i hi
    rw [columns_creating, if_neg hi]
  case newest =>
    intro other hother
    obtain rfl := Option.some.inj (h.symm.trans hother)
    refine ⟨_, by rw [columns_creating, if_pos rfl], hindex, htoken, ?_⟩
    rw [hslots, Array.toList_push]
    exact List.prefix_append _ _

/-- Entering an item leaves the columns as they are, or creates an item at the end of
the newest one. -/
theorem stacks_insert (new : Candidate) : c.Stacks (c.insert g new).1 := by
  cases hnewest : c.columns[c.current]? with
  | none =>
      apply Stacks.of_columns
      rw [current, ← Array.back?_eq_getElem?] at hnewest
      simp only [insert, hnewest]
  | some column =>
      cases hfind : column.find? new.key with
      | none =>
          rw [insert_of_absent g c new column hnewest hfind]
          exact c.stacks_creating g new column hnewest
      | some seq =>
          apply Stacks.of_columns
          rw [current, ← Array.back?_eq_getElem?] at hnewest
          simp only [insert, hnewest, hfind]
          split
          · rfl
          · split
            · rfl
            · split <;> rfl

theorem stacks_insertAll (news : List Candidate) : c.Stacks (c.insertAll g news) := by
  induction news generalizing c with
  | nil => exact .of_columns rfl
  | cons new news ih => exact (c.stacks_insert g new).trans (ih _)

theorem stacks_markNewest (symbol : SymbolId) :
    c.Stacks (c.modifyNewest (·.markPredicted symbol)) where
  size := (c.current_markNewest symbol).1
  older i hi := by rw [columns_markNewest, if_neg hi]
  newest column hcolumn := by
    rw [columns_markNewest, if_pos rfl, hcolumn]
    exact ⟨_, rfl, rfl, rfl, List.prefix_refl _⟩

theorem stacks_predict (symbol : SymbolId) : c.Stacks (c.predict g symbol) := by
  rw [predict]
  split
  · exact (c.stacks_markNewest symbol).trans (stacks_insertAll _ g _)
  · exact .of_columns rfl

theorem stacks_process (ceiling : Nat) (item : Item) : c.Stacks (c.process g ceiling item) := by
  rw [process]
  split
  · exact c.stacks_insertAll g _
  · split
    · exact c.stacks_predict g _
    · exact .of_columns rfl

/-- What an identifier stands for: the identity of its item and the first link. -/
def meaning? (c : Chart) (id : ItemId) : Option (ItemKey × Option Link) :=
  (c.item? id).map fun item => (item.key, item.links.head?)

/-- Items are added to the newest column at its end, links to an item at the end of
its links, and costs only fall. All other columns and their items are the same. -/
structure Appends (c c' : Chart) : Prop extends c.Stacks c' where
  olderItem : ∀ id, id.column ≠ c.current → c'.item? id = c.item? id
  item : ∀ id item, c.item? id = some item → ∃ item', c'.item? id = some item' ∧
    item'.key = item.key ∧ item'.errorCost ≤ item.errorCost ∧ item.links <+: item'.links
  meaning : ∀ id meaning, c.meaning? id = some meaning → c'.meaning? id = some meaning

variable {c g} {c' : Chart}

/-- An item without links stays so, and the first link of the others stays first. -/
theorem Grows.head_links (h : c.Grows c') (hc : c.Valid g) (hc' : c'.Valid g) {id : ItemId}
    {item item' : Item} (hitem : c.item? id = some item) (hitem' : c'.item? id = some item') :
    item'.links.head? = item.links.head? := by
  obtain ⟨other, hother, hkey, -, hlinks⟩ := h.item id item hitem
  obtain rfl := Option.some.inj (hitem'.symm.trans hother)
  cases hfirst : item.links with
  | nil =>
      obtain ⟨-, hdot, horigin⟩ := Item.key_eq_iff.mp hkey
      have hseed := (hc.item id item hitem).links.mp hfirst
      rw [← hdot, ← horigin] at hseed
      rw [(hc'.item id item' hitem').links.mpr hseed]
  | cons link links =>
      obtain ⟨more, hmore⟩ := hlinks
      rw [← hmore, hfirst]
      rfl

theorem Grows.meaning (h : c.Grows c') (hc : c.Valid g) (hc' : c'.Valid g) (id : ItemId)
    (meaning : ItemKey × Option Link) (hid : c.meaning? id = some meaning) :
    c'.meaning? id = some meaning := by
  obtain ⟨item, hitem, rfl⟩ := Option.map_eq_some_iff.mp hid
  obtain ⟨item', hitem', hkey, -⟩ := h.item id item hitem
  rw [meaning?, hitem', Option.map_some, hkey, h.head_links hc hc' hitem hitem']

theorem Stacks.appends (h : c.Stacks c') (hprogress : c.Progresses c') (hc : c.Valid g)
    (hc' : c'.Valid g) : c.Appends c' where
  toStacks := h
  olderItem := hprogress.older
  item := hprogress.grows.item
  meaning := hprogress.grows.meaning hc hc'

theorem appends_insert (hg : g.Numbered) (hc : c.Valid g) (hne : 0 < c.columns.size)
    {new : Candidate} (hfits : c.Fits g new) : c.Appends (c.insert g new).1 := by
  obtain ⟨hvalid, hextends⟩ := insert_extends g hg c hc hne hfits
  exact (c.stacks_insert g new).appends hextends.progresses hc hvalid

end Chart
end EarleyChart
