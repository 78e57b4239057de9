import EarleyChart.Proofs.Chart.Growth

/-!
How entering items goes together with the queue. Whatever is new in the newest
column, or cheaper than before, is queued. And when an item changes that a
completion of the column waits for, the completion is queued too: one that is
not queued finds everything it has to advance as it was before.
-/

namespace EarleyChart
namespace Chart

/-- The newest column has taken in items, and all that has to be looked at again
is queued. -/
structure Extends (g : Grammar) (c c' : Chart) : Prop where
  frame : c.SameFrame c'
  grows : c.Grows c'
  older : ∀ id, id.column ≠ c.current → c'.item? id = c.item? id
  queue : ∀ id ∈ c.worklist.toList, id ∈ c'.worklist.toList
  fresh : ∀ id item', c'.item? id = some item' → id.column = c.current →
    id ∈ c'.worklist.toList ∨ ∃ item, c.item? id = some item ∧ item.errorCost = item'.errorCost
  waiting : ∀ id last, c'.item? id = some last → id.column = c.current →
    g.next? last.rule last.dot = none → id ∉ c'.worklist.toList →
    ∀ other item', c'.item? other = some item' → other.column = last.origin →
      g.next? item'.rule item'.dot = some (g.lhs last.rule) →
      ∃ item, c.item? other = some item ∧ item.errorCost = item'.errorCost

theorem Extends.refl (g : Grammar) (c : Chart) : c.Extends g c where
  frame := .refl c
  grows := .refl c
  older _ _ := rfl
  queue _ h := h
  fresh _ item h _ := .inr ⟨item, h, rfl⟩
  waiting _ _ _ _ _ _ _ item h _ _ := ⟨item, h, rfl⟩

theorem Extends.trans {g : Grammar} {a b c : Chart} (h : a.Extends g b) (k : b.Extends g c) :
    a.Extends g c := by
  have hcurrent := h.frame.current
  constructor
  case frame => exact h.frame.trans k.frame
  case grows => exact h.grows.trans k.grows
  case older =>
    intro id hid
    rw [k.older id (by rwa [hcurrent]), h.older id hid]
  case queue => exact fun id hid => k.queue id (h.queue id hid)
  case fresh =>
    intro id last hlast hid
    rcases k.fresh id last hlast (by rwa [hcurrent]) with hqueued | ⟨next, hnext, hcost⟩
    · exact .inl hqueued
    · rcases h.fresh id next hnext hid with hqueued | ⟨item, hitem, hcost'⟩
      · exact .inl (k.queue id hqueued)
      · exact .inr ⟨item, hitem, hcost'.trans hcost⟩
  case waiting =>
    intro id last hlast hid hend hqueue other item' hitem' hcolumn hnext
    obtain ⟨mid, hmid, hmidcost⟩ := k.waiting id last hlast (by rwa [hcurrent]) hend hqueue
      other item' hitem' hcolumn hnext
    obtain ⟨before, hbefore, -⟩ :=
      (k.fresh id last hlast (by rwa [hcurrent])).resolve_left hqueue
    obtain ⟨last', hlast', hkey, -⟩ := k.grows.item id before hbefore
    obtain rfl := Option.some.inj (hlast.symm.trans hlast')
    obtain ⟨mid', hmid', hkey', -⟩ := k.grows.item other mid hmid
    obtain rfl := Option.some.inj (hitem'.symm.trans hmid')
    obtain ⟨hrule, hdot, horigin⟩ := Item.key_eq_iff.mp hkey
    obtain ⟨hrule', hdot', -⟩ := Item.key_eq_iff.mp hkey'
    rw [hrule, hdot] at hend
    rw [horigin] at hcolumn
    rw [hrule', hdot', hrule] at hnext
    obtain ⟨item, hitem, hcost⟩ := h.waiting id before hbefore hid hend
      (fun hq => hqueue (k.queue id hq)) other mid hmid hcolumn hnext
    exact ⟨item, hitem, hcost.trans hmidcost⟩

section Entered

variable {g : Grammar} {c c' : Chart} {new : Candidate}

/-- A completion that began in the newest column is queued again with a new item
that waits for it there. -/
theorem requeued_of_awaited (hg : g.Numbered) (hc : c.Valid g) {id : ItemId} {before last : Item}
    (hbefore : c.item? id = some before) (hkey : before.key = last.key)
    (hid : id.column = c.current) (hend : g.next? last.rule last.dot = none)
    (horigin : last.origin = c.current)
    (hnext : g.next? new.rule new.dot = some (g.lhs last.rule)) : c.Requeued g new id := by
  obtain ⟨hrule, hdot, horigin'⟩ := Item.key_eq_iff.mp hkey
  refine ⟨g.lhs last.rule, hnext, ?_, hid, before, hbefore, ?_⟩
  · rw [← hrule]
    exact g.lhs_nonterminal hg _ _ (hc.item id before hbefore).dot
  · simp [Item.ends, hrule, hdot, hend, horigin', horigin]

namespace Entered

variable (h : c.Entered g new c')

include h in
theorem older {id : ItemId} (hid : id.column ≠ c.current) : c'.item? id = c.item? id := by
  cases h with
  | created absent items queued length | merged seq old present same items queued length =>
      rw [items, if_neg]
      rintro rfl
      exact hid rfl

include h in
theorem mem_queue {id : ItemId} (hid : id ∈ c.worklist.toList) : id ∈ c'.worklist.toList := by
  cases h with
  | created absent items queued length | merged seq old present same items queued length =>
      exact (queued id).mpr (.inl hid)

include h in
/-- What is new, or cheaper than before, is queued. -/
theorem fresh {id : ItemId} {item' : Item} (hitem' : c'.item? id = some item') :
    id ∈ c'.worklist.toList ∨
      ∃ item, c.item? id = some item ∧ item.errorCost = item'.errorCost := by
  cases h with
  | created absent items queued length =>
      rw [items] at hitem'
      split at hitem'
      · next heq => exact .inl ((queued id).mpr (.inr (.inl heq)))
      · exact .inr ⟨item', hitem', rfl⟩
  | merged seq old present same items queued length =>
      rw [items] at hitem'
      split at hitem'
      · next heq =>
          subst heq
          obtain rfl := Option.some.inj hitem'
          by_cases hlower : new.errorCost < old.errorCost
          · exact .inl ((queued _).mpr (.inr ⟨hlower, .inl rfl⟩))
          · refine .inr ⟨old, present, ?_⟩
            rw [mergeInto_errorCost, Nat.min_eq_right (Nat.le_of_not_lt hlower)]
      · exact .inr ⟨item', hitem', rfl⟩

include h in
/-- A completion that is not queued finds what it has to advance as it was. -/
theorem waiting (hg : g.Numbered) (hc : c.Valid g) {id other : ItemId} {last item' : Item}
    (hlast : c'.item? id = some last) (hid : id.column = c.current)
    (hend : g.next? last.rule last.dot = none) (hqueue : id ∉ c'.worklist.toList)
    (hitem' : c'.item? other = some item') (hcolumn : other.column = last.origin)
    (hnext : g.next? item'.rule item'.dot = some (g.lhs last.rule)) :
    ∃ item, c.item? other = some item ∧ item.errorCost = item'.errorCost := by
  cases h with
  | created absent items queued length =>
      rw [items] at hitem'
      split at hitem'
      · next heq =>
          obtain rfl := Option.some.inj hitem'
          rw [items] at hlast
          split at hlast
          · next hsame => exact absurd ((queued id).mpr (.inr (.inl hsame))) hqueue
          · have hagain := requeued_of_awaited hg hc hlast rfl hid hend
              (by rw [← hcolumn, heq]) hnext
            exact absurd ((queued id).mpr (.inr (.inr hagain))) hqueue
      · exact ⟨item', hitem', rfl⟩
  | merged seq old present same items queued length =>
      rw [items] at hitem'
      split at hitem'
      · next heq =>
          obtain rfl := Option.some.inj hitem'
          refine ⟨old, by rw [heq, present], ?_⟩
          by_cases hlower : new.errorCost < old.errorCost
          · obtain ⟨hrule, hdot, -⟩ := Item.key_eq_iff.mp (mergeInto_id_key new old).2
            obtain ⟨hrule', hdot', -⟩ := Item.key_eq_iff.mp same
            rw [hrule, hdot, hrule', hdot'] at hnext
            have hbefore : ∃ before, c.item? id = some before ∧ before.key = last.key := by
              rw [items] at hlast
              split at hlast
              · next hsame =>
                  obtain rfl := Option.some.inj hlast
                  exact ⟨old, by rw [hsame, present], (mergeInto_id_key new old).2.symm⟩
              · exact ⟨last, hlast, rfl⟩
            obtain ⟨before, hbefore, hkey⟩ := hbefore
            have hagain := requeued_of_awaited hg hc hbefore hkey hid hend (by rw [← hcolumn, heq])
              hnext
            exact absurd ((queued id).mpr (.inr ⟨hlower, .inr hagain⟩)) hqueue
          · rw [mergeInto_errorCost, Nat.min_eq_right (Nat.le_of_not_lt hlower)]
      · exact ⟨item', hitem', rfl⟩

end Entered

theorem Entered.extends (h : c.Entered g new c') (hg : g.Numbered) (hc : c.Valid g)
    (hframe : c.SameFrame c') : c.Extends g c' where
  frame := hframe
  grows := h.grows hc.filed hframe
  older _ hid := h.older hid
  queue _ hid := h.mem_queue hid
  fresh _ _ hitem' _ := h.fresh hitem'
  waiting _ _ hlast hid hend hqueue _ _ hitem' hcolumn hnext :=
    h.waiting hg hc hlast hid hend hqueue hitem' hcolumn hnext

end Entered

/-- What entering a well-formed candidate does to a chart. -/
theorem insert_extends (g : Grammar) (hg : g.Numbered) (c : Chart) (hc : c.Valid g)
    (hne : 0 < c.columns.size) {new : Candidate} (hfits : c.Fits g new) :
    (c.insert g new).1.Valid g ∧ c.Extends g (c.insert g new).1 := by
  obtain ⟨hentered, hfiled, hframe⟩ := c.insert_entered g hg hc.filed hne new hfits.dot
  exact ⟨hentered.valid hc hfits hframe hfiled, hentered.extends hg hc hframe⟩

def insertAll (c : Chart) (g : Grammar) (news : List Candidate) : Chart :=
  news.foldl (fun c new => (c.insert g new).1) c

/-- What entering well-formed candidates does to a chart. -/
theorem insertAll_extends (g : Grammar) (hg : g.Numbered) (news : List Candidate) (c : Chart)
    (hc : c.Valid g) (hne : 0 < c.columns.size) (hfits : ∀ new ∈ news, c.Fits g new) :
    (c.insertAll g news).Valid g ∧ c.Extends g (c.insertAll g news) ∧
      ∀ new ∈ news, (c.insertAll g news).Holds c.current new := by
  induction news generalizing c with
  | nil => exact ⟨hc, .refl g c, by simp⟩
  | cons new news ih =>
      have hnew := hfits new (by simp)
      obtain ⟨hentered, -, hframe⟩ := c.insert_entered g hg hc.filed hne new hnew.dot
      obtain ⟨hvalid, hextends⟩ := insert_extends g hg c hc hne hnew
      obtain ⟨hvalid', hextends', hholds⟩ := ih (c.insert g new).1 hvalid (by
        rwa [hframe.size]) fun other hother =>
          (hfits other (by simp [hother])).grows hextends.grows hframe.current
      refine ⟨hvalid', hextends.trans hextends', ?_⟩
      rintro other (_ | ⟨_, hother⟩)
      · exact hentered.holds.grows hextends'.grows
      · exact hframe.current ▸ hholds other hother

end Chart
end EarleyChart
