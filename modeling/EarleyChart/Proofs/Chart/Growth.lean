import EarleyChart.Proofs.Chart.Validity

/-!
A chart grows when items enter it. `Grows` is what every entry does, `Holds`
says that a candidate arrived, and `Insert.valid` that a chart whose items are
well formed stays so. Entering several candidates is the same, one by one.
-/

namespace EarleyChart
namespace Chart

/-- A candidate has arrived in a column: there is an item with its identity, at
most at its cost, and with its link. -/
def Holds (c : Chart) (column : Nat) (new : Candidate) : Prop :=
  ∃ id item, c.item? id = some item ∧ id.column = column ∧ item.key = new.key ∧
    item.errorCost ≤ new.errorCost ∧ ∀ link, new.link = some link → link ∈ item.links

theorem Holds.grows {c c' : Chart} {column : Nat} {new : Candidate} (h : c.Holds column new)
    (hc : c.Grows c') : c'.Holds column new := by
  obtain ⟨id, item, hitem, hcolumn, hkey, hcost, hlink⟩ := h
  obtain ⟨item', hitem', hkey', hcost', hlinks⟩ := hc.item id item hitem
  exact ⟨id, item', hitem', hcolumn, hkey'.trans hkey, Nat.le_trans hcost' hcost,
    fun link hl => hlinks.subset (hlink link hl)⟩

section Entered

variable {g : Grammar} {c c' : Chart} {new : Candidate} (h : c.Entered g new c')

include h in
theorem Entered.grows (hc : c.Filed g) (hframe : c.SameFrame c') : c.Grows c' := by
  refine ⟨fun id item hitem => ?_, fun i token htoken => (hframe.token i).trans htoken⟩
  cases h with
  | created absent items queued length =>
      refine ⟨item, ?_, rfl, Nat.le_refl _, List.prefix_refl _⟩
      rw [items, if_neg, hitem]
      rintro rfl
      exact Nat.lt_irrefl _ ((c.newest_isSome_iff g hc _).mp (by rw [hitem, Option.isSome_some]))
  | merged seq old present same items queued length =>
      by_cases hid : id = ⟨c.current, seq⟩
      · subst hid
        obtain rfl := Option.some.inj (present.symm.trans hitem)
        refine ⟨mergeInto new old, by rw [items, if_pos rfl], (mergeInto_id_key new old).2, ?_, ?_⟩
        · rw [mergeInto_errorCost]
          exact Nat.min_le_right _ _
        · rw [mergeInto_links]
          exact List.prefix_append _ _
      · exact ⟨item, by rw [items, if_neg hid, hitem], rfl, Nat.le_refl _, List.prefix_refl _⟩

include h in
theorem Entered.holds : c'.Holds c.current new := by
  cases h with
  | created absent items queued length =>
      refine ⟨_, _, by rw [items, if_pos rfl], rfl, rfl, Nat.le_refl _, fun link hlink => ?_⟩
      simp [Candidate.toItem, hlink]
  | merged seq old present same items queued length =>
      refine ⟨_, _, by rw [items, if_pos rfl], rfl, (mergeInto_id_key new old).2.trans same, ?_,
        fun link hlink => ?_⟩
      · rw [mergeInto_errorCost]
        exact Nat.min_le_left _ _
      · rw [mergeInto_links, List.mem_append, hlink]
        by_cases hmem : link ∈ old.links
        · exact .inl hmem
        · exact .inr (by simp [hmem])

include h in
/-- Every item of the newer chart is the one that was there, the created one, or
the one that the candidate was merged into. -/
theorem Entered.item_cases (id : ItemId) (item' : Item) (hitem : c'.item? id = some item') :
    c.item? id = some item' ∨
      (id = ⟨c.current, c.newestSize⟩ ∧ item' = new.toItem ⟨c.current, c.newestSize⟩) ∨
      (id.column = c.current ∧ ∃ item, c.item? id = some item ∧ item.key = new.key ∧
        item' = mergeInto new item) := by
  cases h with
  | created absent items queued length =>
      rw [items] at hitem
      split at hitem
      · next hid => exact .inr (.inl ⟨hid, (Option.some.inj hitem).symm⟩)
      · exact .inl hitem
  | merged seq old present same items queued length =>
      rw [items] at hitem
      split at hitem
      · next hid =>
          subst hid
          exact .inr (.inr ⟨rfl, old, present, same, (Option.some.inj hitem).symm⟩)
      · exact .inl hitem

theorem created_fits (hc : c.Valid g) (hfits : c.Fits g new) :
    c.ItemFits g ⟨c.current, c.newestSize⟩ (new.toItem ⟨c.current, c.newestSize⟩) := by
  constructor
  case dot => exact hfits.dot
  case origin => exact hfits.origin
  case cost => exact hfits.cost
  case links =>
    refine Iff.trans ?_ (hfits.link_iff hc)
    cases hlink : new.link <;> simp [Candidate.toItem, hlink]
  case nodup => cases hlink : new.link <;> simp [Candidate.toItem, hlink]
  case shape =>
    intro link hlink
    refine hfits.link link ?_
    simpa [Candidate.toItem, eq_comm] using hlink
  case first =>
    intro link hlink
    refine (hfits.link link ?_).older hc.filed
    cases hnew : new.link <;> simp_all [Candidate.toItem]

/-- Merging a candidate keeps an item in its place. A seed has no links before
and after, and where there are links the first one stays. -/
theorem mergeInto_fits (hc : c.Valid g) (hfits : c.Fits g new) (id : ItemId) (item : Item)
    (hid : id.column = c.current) (hitem : c.item? id = some item) (hkey : item.key = new.key) :
    c.ItemFits g id (mergeInto new item) := by
  have hold := hc.item id item hitem
  have hsame := (mergeInto_id_key new item).2
  obtain ⟨hrule, hdot, horigin⟩ := Item.key_eq_iff.mp hsame
  have hseed : new.dot = item.dot ∧ new.origin = item.origin := by
    simp only [Item.key, Candidate.key, ItemKey.mk.injEq] at hkey
    exact ⟨hkey.2.1.symm, hkey.2.2.symm⟩
  have hnone : item.links = [] → new.link = none := by
    intro hempty
    rw [hfits.link_iff hc, hseed.1, hseed.2, ← hid]
    exact hold.links.mp hempty
  constructor
  case dot => rw [hrule, hdot]; exact hold.dot
  case origin => rw [horigin]; exact hold.origin
  case cost =>
    rw [mergeInto_errorCost]
    exact Nat.le_trans (Nat.min_le_right _ _) hold.cost
  case links =>
    rw [hdot, horigin, ← hold.links, mergeInto_links, List.append_eq_nil_iff]
    refine ⟨fun hempty => hempty.1, fun hempty => ⟨hempty, ?_⟩⟩
    simp [hnone hempty]
  case nodup =>
    rw [mergeInto_links, List.nodup_append]
    refine ⟨hold.nodup, ?_, ?_⟩
    · exact List.Nodup.filter _ (by cases new.link <;> simp)
    · rintro link hlink _ hnew rfl
      simp [hlink] at hnew
  case shape =>
    intro link hlink
    rw [hsame]
    rw [mergeInto_links, List.mem_append, List.mem_filter, Option.mem_toList] at hlink
    rcases hlink with hlink | ⟨hlink, -⟩
    · exact hold.shape link hlink
    · rw [hid, hkey]
      exact hfits.link link hlink
  case first =>
    intro link hlink
    rw [mergeInto_links] at hlink
    cases hlinks : item.links with
    | nil => simp [hlinks, hnone hlinks] at hlink
    | cons first rest =>
        rw [hlinks, List.cons_append, List.head?_cons, Option.some.injEq] at hlink
        exact hold.first link (by rw [hlinks, List.head?_cons, hlink])

include h in
theorem Entered.valid (hc : c.Valid g) (hfits : c.Fits g new) (hframe : c.SameFrame c')
    (hfiled : c'.Filed g) : c'.Valid g := by
  refine ⟨hfiled, fun id item' hitem => ?_⟩
  have hgrows := h.grows hc.filed hframe
  rcases h.item_cases id item' hitem with hold | ⟨rfl, rfl⟩ | ⟨hid, item, hold, hkey, rfl⟩
  · exact (hc.item id item' hold).grows hgrows
  · exact (created_fits hc hfits).grows hgrows
  · exact (mergeInto_fits hc hfits id item hid hold hkey).grows hgrows

end Entered

section openColumn

variable {g : Grammar} {c : Chart} (token : Option Token)

theorem grows_openColumn : c.Grows (c.openColumn g token) := by
  refine .of_items (fun id item h => by rw [item?_openColumn, h]) fun i found h => ?_
  rw [token?_openColumn, if_neg, h]
  rintro rfl
  simp [token?] at h

theorem valid_openColumn (hc : c.Valid g) (h : c.worklist.toList = []) :
    (c.openColumn g token).Valid g :=
  ⟨filed_openColumn g c hc.filed h token, fun id item hitem =>
    (hc.item id item (by rwa [item?_openColumn] at hitem)).grows (grows_openColumn token)⟩

/-- The newest column is empty when it is opened. -/
theorem column_ne_openColumn (id : ItemId) (item : Item)
    (hitem : (c.openColumn g token).item? id = some item) :
    id.column ≠ (c.openColumn g token).current := by
  rw [item?_openColumn] at hitem
  obtain ⟨column, hcolumn, -⟩ := Option.bind_eq_some_iff.mp hitem
  have hlt := (Array.getElem?_eq_some_iff.mp hcolumn).1
  rw [(c.current_openColumn g token).2]
  exact Nat.ne_of_lt hlt

end openColumn

end Chart
end EarleyChart
