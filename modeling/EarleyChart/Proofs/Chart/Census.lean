import EarleyChart.Proofs.Chart.Extension
import EarleyChart.Proofs.Chart.Ownership

/-!
The items and links of a whole chart, listed. An item that enters is put at the end of
the list of all items, or it changes one place of it, where its link is added unless it is
known. A column that is opened adds neither items nor links.
-/

namespace EarleyChart

/-- A list without repetition has one place for each of its members. -/
theorem split_of_nodup {α : Type} {a : α} {xs : List α} (hnodup : xs.Nodup) (ha : a ∈ xs) :
    ∃ before after, xs = before ++ a :: after ∧ (∀ b ∈ before, b ≠ a) ∧ ∀ b ∈ after, b ≠ a := by
  obtain ⟨before, after, rfl⟩ := List.append_of_mem ha
  obtain ⟨-, hafter, hbefore⟩ := List.nodup_append.mp hnodup
  refine ⟨before, after, rfl, fun b hb => hbefore b hb a List.mem_cons_self, ?_⟩
  rintro b hb rfl
  exact (List.nodup_cons.mp hafter).1 hb

/-- Two functions that differ at one place of a list select lists that differ there. -/
theorem filterMap_update {α β : Type} {f f' : α → Option β} {a : α} {x y : β} {xs : List α}
    (hnodup : xs.Nodup) (ha : a ∈ xs) (hx : f a = some x) (hy : f' a = some y)
    (hsame : ∀ b ≠ a, f' b = f b) : ∃ older newer,
      xs.filterMap f = older ++ x :: newer ∧ xs.filterMap f' = older ++ y :: newer := by
  obtain ⟨before, after, rfl, hbefore, hafter⟩ := split_of_nodup hnodup ha
  refine ⟨before.filterMap f, after.filterMap f, ?_, ?_⟩
  · rw [List.filterMap_append, List.filterMap_cons_some hx]
  · rw [List.filterMap_append, List.filterMap_cons_some hy,
      List.filterMap_congr fun b hb => hsame b (hbefore b hb),
      List.filterMap_congr fun b hb => hsame b (hafter b hb)]

/-- A test that one more member passes is passed by one more. -/
theorem length_filter_update {α : Type} {f f' : α → Bool} {a : α} {xs : List α}
    (hnodup : xs.Nodup) (ha : a ∈ xs) (hold : f a = false) (hnew : f' a = true)
    (hsame : ∀ b ≠ a, f' b = f b) : (xs.filter f').length = (xs.filter f).length + 1 := by
  obtain ⟨before, after, rfl, hbefore, hafter⟩ := split_of_nodup hnodup ha
  rw [List.filter_append, List.filter_append, List.filter_cons, List.filter_cons, hold, hnew,
    List.filter_congr fun b hb => hsame b (hbefore b hb),
    List.filter_congr fun b hb => hsame b (hafter b hb)]
  simp [Nat.add_assoc]

namespace Chart

def links (c : Chart) : List Link := c.allItems.flatMap (·.links)

def linkedCount (c : Chart) : Nat := c.allItems.countP fun item => !item.isPredicted

def marks (c : Chart) (g : Grammar) : List (Nat × SymbolId) :=
  ((List.range c.columns.size).product g.nonterminalIds).filter fun mark =>
    c.marked? mark.1 mark.2 == some true

variable {g : Grammar} {c : Chart}

theorem allItems_eq (c : Chart) : c.allItems = c.slots.filterMap c.arena.get? := by
  rw [slots, List.filterMap_flatMap]
  rfl

theorem length_allItems (hc : c.Filed g) : c.allItems.length = c.itemCount := by
  rw [← length_slots, allItems_eq, List.length_filterMap_eq_countP, List.countP_eq_length]
  intro slot hslot
  simp [Arena.get?, slot_lt_of_mem hc hslot]

/-- The list holds the items that have a position, and no others. -/
theorem mem_allItems_iff (c : Chart) (item : Item) :
    item ∈ c.allItems ↔ ∃ id, c.item? id = some item := by
  simp only [allItems, List.mem_flatMap, itemsOf, Column.items, List.mem_filterMap]
  constructor
  · rintro ⟨column, hcolumn, slot, hslot, hitem⟩
    obtain ⟨i, hi⟩ := List.getElem?_of_mem hcolumn
    obtain ⟨seq, hseq⟩ := List.getElem?_of_mem hslot
    rw [Array.getElem?_toList] at hi hseq
    exact ⟨⟨i, seq⟩, by rw [c.item?_eq _ column hi, Column.get?, hseq, Option.bind_some, hitem]⟩
  · rintro ⟨id, hitem⟩
    obtain ⟨column, hcolumn, hget⟩ := Option.bind_eq_some_iff.mp hitem
    obtain ⟨slot, hslot, hitem⟩ := Option.bind_eq_some_iff.mp hget
    exact ⟨column, Array.mem_toList_iff.mpr (Array.mem_of_getElem? hcolumn), slot,
      Array.mem_toList_iff.mpr (Array.mem_of_getElem? hslot), hitem⟩

/-! ### Changes that enter no items -/

theorem allItems_openColumn (c : Chart) (g : Grammar) (token : Option Token) :
    (c.openColumn g token).allItems = c.allItems := by
  simp [allItems_eq, slots, openColumn, Column.new]

theorem allItems_markNewest (c : Chart) (symbol : SymbolId) :
    (c.modifyNewest (·.markPredicted symbol)).allItems = c.allItems := by
  rw [allItems_eq, allItems_eq, slots_markNewest]
  rfl

theorem marks_eq_of_frame {c' : Chart} (h : c.SameFrame c') (g : Grammar) :
    c'.marks g = c.marks g := by
  simp only [marks, h.size, h.marked]

/-- Nothing is predicted yet in a column that is opened. -/
theorem marks_openColumn (c : Chart) (g : Grammar) (token : Option Token) :
    (c.openColumn g token).marks g = c.marks g := by
  have hold : ∀ i < c.columns.size, ∀ symbol,
      (c.openColumn g token).marked? i symbol = c.marked? i symbol := by
    intro i hi symbol
    rw [marked?, columns_openColumn, if_neg (Nat.ne_of_lt hi), marked?]
  have hnew : ∀ symbol, (c.openColumn g token).marked? c.columns.size symbol ≠ some true := by
    intro symbol
    rw [marked?, columns_openColumn, if_pos rfl]
    simp [Column.isPredicted?, Column.new, Array.getElem?_replicate]
  have hnone : ((g.nonterminalIds.map (Prod.mk c.columns.size)).filter fun mark =>
      (c.openColumn g token).marked? mark.1 mark.2 == some true) = [] := by
    simp [hnew]
  rw [marks, (c.current_openColumn g token).1, List.range_succ, marks, List.product,
    List.flatMap_append, List.filter_append, ← List.product, List.flatMap_singleton, hnone,
    List.append_nil]
  refine List.filter_congr fun mark hmark => ?_
  rw [hold _ (List.mem_range.mp (List.pair_mem_product.mp hmark).1)]

theorem marks_markNewest (c : Chart) {symbol : SymbolId}
    (hsymbol : g.isNonterminal symbol = true) (h : c.marked? c.current symbol = some false) :
    ((c.modifyNewest (·.markPredicted symbol)).marks g).length = (c.marks g).length + 1 := by
  obtain ⟨hsize, -⟩ := c.current_markNewest symbol
  rw [marks, marks, hsize]
  refine length_filter_update (List.nodup_range.product Grammar.nodup_nonterminalIds)
    (a := (c.current, symbol)) ?_ ?_ ?_ ?_
  · rw [List.pair_mem_product, List.mem_range, g.mem_nonterminalIds_iff]
    obtain ⟨column, hcolumn, -⟩ := Option.bind_eq_some_iff.mp h
    exact ⟨(Array.getElem?_eq_some_iff.mp hcolumn).1, hsymbol⟩
  · simp [h]
  · simp [marked_markNewest, h]
  · rintro ⟨i, other⟩ hother
    have hne : ¬ (i = c.current ∧ symbol = other) := by
      rintro ⟨rfl, rfl⟩
      exact hother rfl
    simp only [marked_markNewest, if_neg hne]

/-! ### Entering an item -/

/-- What entering an item makes of the list of all items, with what is noted about it. -/
inductive Lists (c : Chart) (new : Candidate) : Chart × Insertion → Prop
  | created {c' : Chart} (id : ItemId) (items : c'.allItems = c.allItems ++ [new.toItem id]) :
      Lists c new (c', .created)
  | merged {c' : Chart} (seq : Nat) (item : Item)
      (present : c.item? ⟨c.current, seq⟩ = some item) (same : item.key = new.key)
      (older newer : List Item) (before : c.allItems = older ++ item :: newer)
      (after : c'.allItems = older ++ mergeInto new item :: newer) :
      Lists c new (c', mergeOutcome new item)

theorem allItems_creating (hc : c.Filed g) (new : Candidate) (column : Column)
    (h : c.columns[c.current]? = some column) :
    (c.creating g column new).allItems =
      c.allItems ++ [new.toItem ⟨column.index, column.size⟩] := by
  have hfresh := (Arena.storing_free c.arena hc.free Item.blank).2.1
  have hslots : (c.creating g column new).slots = c.slots ++ [c.arena.allocate.1] := by
    rw [current, ← Array.back?_eq_getElem?] at h
    obtain ⟨older, hcolumns⟩ := Array.back?_eq_some_iff.mp h
    obtain ⟨-, -, hslots, -⟩ := Column.filing_fields column g c.arena.allocate.1 new
    simp [slots, creating, hcolumns, hslots]
  have hget := Arena.get?_storing c.arena hc.free (new.toItem ⟨column.index, column.size⟩)
  rw [allItems_eq, allItems_eq, hslots, List.filterMap_append]
  congr 1
  · refine List.filterMap_congr fun slot hslot => ?_
    rw [creating, hget, if_neg (Nat.ne_of_lt (slot_lt_of_mem hc hslot))]
  · rw [creating, List.filterMap_cons_some (by rw [hget, if_pos hfresh]), List.filterMap_nil]

theorem allItems_merging (hc : c.Filed g) (new : Candidate) (column : Column)
    (h : c.columns[c.current]? = some column) (seq : Nat) (slot : Slot) (item : Item)
    (hslot : column.slots[seq]? = some slot) (hitem : c.arena.get? slot = some item) :
    ∃ older newer, c.allItems = older ++ item :: newer ∧
      (c.merging g column seq slot item new).allItems = older ++ mergeInto new item :: newer := by
  have hmem : slot ∈ c.slots := List.mem_flatMap.mpr ⟨column,
    Array.mem_toList_iff.mpr (Array.mem_of_getElem? h),
    Array.mem_toList_iff.mpr (Array.mem_of_getElem? hslot)⟩
  rw [allItems_eq, allItems_eq]
  refine filterMap_update (nodup_slots hc) hmem hitem ?_ ?_
  · rw [merging, Arena.get?_modify_self, hitem, Option.map_some]
  · exact fun other hother => Arena.get?_modify_of_ne _ _ hother

theorem insert_lists (hc : c.Filed g) (hne : 0 < c.columns.size) (new : Candidate) :
    c.Lists new (c.insert g new) := by
  obtain ⟨column, h⟩ := c.newest_of_size hne
  have hback := h
  rw [current, ← Array.back?_eq_getElem?] at hback
  cases hfind : column.find? new.key with
  | none =>
      have houtcome : (c.insert g new).2 = .created := by simp [insert, hback, hfind]
      have hchart := insert_of_absent g c new column h hfind
      rw [← Prod.mk.eta (p := c.insert g new), houtcome, hchart]
      exact .created _ (allItems_creating hc new column h)
  | some seq =>
      obtain ⟨item, hget, hkey⟩ := ((hc.column _ _ h).found new.key seq).mp hfind
      obtain ⟨slot, hslot, hitem⟩ := Option.bind_eq_some_iff.mp hget
      have houtcome : (c.insert g new).2 = mergeOutcome new item := by
        simp only [insert, hback, hfind, hslot, hitem]
        split <;> rfl
      have hchart := insert_of_present g c new column h seq slot item hslot hitem hfind
      obtain ⟨older, newer, hbefore, hafter⟩ :=
        allItems_merging hc new column h seq slot item hslot hitem
      rw [← Prod.mk.eta (p := c.insert g new), houtcome, hchart]
      exact .merged seq item (by rw [c.item?_eq _ column h, hget]) hkey older newer hbefore hafter

namespace Lists

variable {new : Candidate} {after : Chart × Insertion}

/-- The link of the candidate is added, unless it is known. -/
theorem links_perm (h : c.Lists new after) : ∃ added : List Link,
    added.Sublist new.link.toList ∧ (∀ link ∉ c.links, new.link = some link → added = [link]) ∧
      after.1.links.Perm (c.links ++ added) := by
  cases h with
  | created id items =>
      refine ⟨new.link.toList, .refl _, fun link _ hlink => by rw [hlink, Option.toList_some], ?_⟩
      rw [links, items, List.flatMap_append, List.flatMap_singleton]
      rfl
  | merged seq item present same older newer before after =>
      refine ⟨new.link.toList.filter fun link => !item.links.contains link,
        List.filter_sublist, ?_, ?_⟩
      · intro link hnew hlink
        have hitem : link ∉ item.links := by
          refine fun hmem => hnew (List.mem_flatMap.mpr ⟨item, ?_, hmem⟩)
          simp [before]
        simp [hlink, hitem]
      · rw [links, after, links, before]
        simp only [List.flatMap_append, List.flatMap_cons, mergeInto_links, List.append_assoc]
        exact ((List.perm_append_comm).append_left _).append_left _

theorem mem_links (h : c.Lists new after) {link : Link} (hlink : link ∈ after.1.links) :
    link ∈ c.links ∨ new.link = some link := by
  obtain ⟨added, hadded, -, hperm⟩ := h.links_perm
  rcases List.mem_append.mp (hperm.subset hlink) with hold | hnew
  · exact .inl hold
  · exact .inr (Option.mem_toList.mp (hadded.subset hnew))

/-- An item that enters is counted as a new one, or its link as packed where it is new. -/
theorem counted (h : c.Lists new after) (hc : c.Valid g) (hfits : c.Fits g new) {t : Tally}
    (hitems : t.items = c.allItems.length)
    (hpacked : t.packedLinks + c.linkedCount = c.links.length) :
    (t.record after.2).items = after.1.allItems.length ∧
      (t.record after.2).packedLinks + after.1.linkedCount = after.1.links.length := by
  cases h with
  | @created c' id items =>
      have hlinked : c'.linkedCount = c.linkedCount + new.link.toList.length := by
        rw [linkedCount, items, linkedCount]
        cases hlink : new.link <;> simp [Item.isPredicted, Candidate.toItem, hlink]
      have hlinks : c'.links.length = c.links.length + new.link.toList.length := by
        simp [links, items, Candidate.toItem]
      constructor
      · rw [Tally.record, hitems, items, List.length_append, List.length_singleton]
      · rw [Tally.record, hlinked, hlinks, ← Nat.add_assoc, hpacked]
  | @merged c' seq item present same older newer before after =>
      -- Both the item and the candidate are seeds of the column, or neither is.
      have hseed : item.links = [] ↔ new.link = none := by
        obtain ⟨-, hdot, horigin⟩ := Item.key_eq_iff.mp same
        rw [(hc.item _ item present).links, hfits.link_iff hc, hdot, horigin]
      have hlinked : c'.linkedCount = c.linkedCount := by
        rw [linkedCount, after, linkedCount, before, List.countP_append, List.countP_append,
          List.countP_cons, List.countP_cons, Item.isPredicted, Item.isPredicted, mergeInto_links]
        cases hlink : new.link with
        | none => rw [Option.toList_none, List.filter_nil, List.append_nil]
        | some link => simp [hseed, hlink]
      have hlinks : c'.links.length = c.links.length +
          (new.link.any fun link => !item.links.contains link).toNat := by
        rw [links, after, links, before]
        simp only [List.flatMap_append, List.flatMap_cons, List.length_append, mergeInto_links]
        have hadded : (new.link.toList.filter fun link => !item.links.contains link).length =
            (new.link.any fun link => !item.links.contains link).toNat := by
          cases new.link with
          | none => rfl
          | some link => by_cases hknown : link ∈ item.links <;> simp [hknown]
        omega
      constructor
      · rw [mergeOutcome, Tally.record, hitems, before, after]
        simp
      · simp only [mergeOutcome, Tally.record, hlinked, hlinks]
        omega

end Lists

end Chart
end EarleyChart
