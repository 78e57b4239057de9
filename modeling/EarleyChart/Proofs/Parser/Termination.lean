import EarleyChart.Proofs.Parser.Process
import Mathlib.Algebra.BigOperators.Ring.List
import Mathlib.Algebra.Order.BigOperators.Group.List
import Mathlib.Algebra.Order.Ring.Nat
import Mathlib.Data.List.Perm.Subperm
import Mathlib.Tactic.Ring

/-!
A measure for the closure of a column. A column has at most one item for each
identity, and each identity has a cost that only falls, counting an absent item
as dearer than any other. Entering an item pays for all that it queues, so that
the bound on the items taken is never reached.
-/

namespace EarleyChart

def Grammar.keysUpTo (g : Grammar) (column : Nat) : List ItemKey :=
  g.rules.toList.zipIdx.flatMap fun (r, rule) =>
    (List.range (r.rhs.length + 1)).flatMap fun dot =>
      (List.range (column + 1)).map fun origin => ⟨rule, dot, origin⟩

theorem Grammar.mem_keysUpTo (g : Grammar) (column : Nat) (key : ItemKey)
    (h : g.HasDot key.rule key.dot) (horigin : key.origin ≤ column) :
    key ∈ g.keysUpTo column := by
  obtain ⟨r, hr, hdot⟩ := h
  simp only [keysUpTo, List.mem_flatMap, Prod.exists, List.mem_map, List.mem_range]
  refine ⟨r, key.rule, ?_, key.dot, by omega, key.origin, by omega, rfl⟩
  rw [List.mk_mem_zipIdx_iff_getElem?, Array.getElem?_toList]
  exact hr

theorem Grammar.length_keysUpTo (g : Grammar) (column : Nat) :
    (g.keysUpTo column).length = (column + 1) * Parser.dottedRules g := by
  have hlength : (g.keysUpTo column).length =
      ((g.rules.toList.zipIdx.map Prod.fst).map fun r =>
        (r.rhs.length + 1) * (column + 1)).sum := by
    simp only [keysUpTo, List.length_flatMap, List.length_map, List.length_range,
      List.map_const', List.sum_replicate, Nat.nsmul_eq_mul, List.map_map, Function.comp_def]
  rw [hlength, List.zipIdx_map_fst, List.sum_map_mul_right, Nat.mul_comm, Parser.dottedRules,
    List.sum, List.foldr_map]

namespace Chart

def keyed? (c : Chart) (key : ItemKey) : Option Item :=
  (c.columns[c.current]?).bind fun column => (column.find? key).bind (column.get? c.arena)

/-- The cost of an identity in the newest column, and more than any cost where it
is absent. -/
def costOf (c : Chart) (key : ItemKey) : Nat := (c.keyed? key).elim (maxCost + 1) (·.errorCost)

def debt (c : Chart) (g : Grammar) : Nat := ((g.keysUpTo c.current).map c.costOf).sum

/-- A bound on the items that the closure still takes. -/
def potential (c : Chart) (g : Grammar) : Nat :=
  c.worklist.toList.length + c.debt g * ((g.keysUpTo c.current).length + 1)

variable (g : Grammar) (c : Chart)

theorem keyed?_eq_some_iff (hc : c.Filed g) (key : ItemKey) (item : Item) :
    c.keyed? key = some item ↔
      ∃ id, c.item? id = some item ∧ id.column = c.current ∧ item.key = key := by
  rw [keyed?]
  cases h : c.columns[c.current]? with
  | none =>
      simp only [Option.bind_none, reduceCtorEq, false_iff]
      rintro ⟨id, hitem, hid, -⟩
      simp [item?, hid, h] at hitem
  | some column =>
      have hfound := (hc.column _ _ h).found
      rw [Option.bind_some, Option.bind_eq_some_iff]
      constructor
      · rintro ⟨seq, hseq, hitem⟩
        obtain ⟨other, hother, hkey⟩ := (hfound key seq).mp hseq
        obtain rfl := Option.some.inj (hitem.symm.trans hother)
        exact ⟨⟨c.current, seq⟩, by rw [c.item?_eq _ column h, hitem], rfl, hkey⟩
      · rintro ⟨⟨_, seq⟩, hitem, rfl, hkey⟩
        rw [c.item?_eq _ column h] at hitem
        exact ⟨seq, (hfound key seq).mpr ⟨item, hitem, hkey⟩, hitem⟩

theorem costOf_le (hc : c.Valid g) (key : ItemKey) : c.costOf key ≤ maxCost + 1 := by
  rw [costOf]
  cases h : c.keyed? key with
  | none => exact Nat.le_refl _
  | some item =>
      obtain ⟨id, hitem, -⟩ := (keyed?_eq_some_iff g c hc.filed key item).mp h
      exact Nat.le_succ_of_le (hc.item id item hitem).cost

theorem costOf_grows {c' : Chart} (hc : c.Valid g) (hc' : c'.Valid g) (h : c.Grows c')
    (hcurrent : c'.current = c.current) (key : ItemKey) : c'.costOf key ≤ c.costOf key := by
  cases hold : c.keyed? key with
  | none =>
      have : c.costOf key = maxCost + 1 := by rw [costOf, hold, Option.elim_none]
      rw [this]
      exact c'.costOf_le g hc' key
  | some item =>
      obtain ⟨id, hitem, hid, hkey⟩ := (keyed?_eq_some_iff g c hc.filed key item).mp hold
      obtain ⟨item', hitem', hkey', hcost, -⟩ := h.item id item hitem
      have hnew := (keyed?_eq_some_iff g c' hc'.filed key item').mpr
        ⟨id, hitem', hid.trans hcurrent.symm, hkey'.trans hkey⟩
      simpa [costOf, hold, hnew] using hcost

/-- A column has no more items than there are identities. -/
theorem columnSize_le (hc : c.Valid g) {i : Nat} {column : Column}
    (h : c.columns[i]? = some column) : column.size ≤ (g.keysUpTo i).length := by
  have hsome : ∀ seq < column.size, ∃ item, c.item? ⟨i, seq⟩ = some item := by
    intro seq hseq
    rw [c.item?_eq ⟨i, seq⟩ column h]
    exact Option.isSome_iff_exists.mp ((c.get?_isSome g hc.filed i column h seq).mpr hseq)
  let keys := (List.range column.size).filterMap fun seq => (c.item? ⟨i, seq⟩).map Item.key
  have hkeys : keys.length = column.size := by
    rw [List.length_filterMap_eq_countP, List.countP_eq_length.mpr, List.length_range]
    intro seq hseq
    obtain ⟨item, hitem⟩ := hsome seq (List.mem_range.mp hseq)
    simp [hitem]
  have hnodup : keys.Nodup := by
    refine List.Nodup.filterMap ?_ List.nodup_range
    intro s t key hs ht
    obtain ⟨first, hfirst, hkey⟩ := Option.map_eq_some_iff.mp hs
    obtain ⟨second, hsecond, hkey'⟩ := Option.map_eq_some_iff.mp ht
    have := (item_unique g c hc.filed ⟨i, s⟩ ⟨i, t⟩ first second hfirst hsecond rfl
      (hkey.trans hkey'.symm)).1
    exact congrArg ItemId.seq this
  have hsub : keys ⊆ g.keysUpTo i := by
    intro key hkey
    obtain ⟨seq, -, hsome⟩ := List.mem_filterMap.mp hkey
    obtain ⟨item, hitem, rfl⟩ := Option.map_eq_some_iff.mp hsome
    have hfits := hc.item _ item hitem
    exact g.mem_keysUpTo _ _ hfits.dot hfits.origin
  rw [← hkeys]
  exact (hnodup.subperm hsub).length_le

theorem newestSize_le (hc : c.Valid g) : c.newestSize ≤ (g.keysUpTo c.current).length := by
  rw [newestSize]
  cases h : c.columns[c.current]? with
  | none => exact Nat.zero_le _
  | some column => exact c.columnSize_le g hc h

/-- Where the cost of an identity falls, so does the sum of the costs. -/
theorem debt_lt {c' : Chart} (hc : c.Valid g) (hc' : c'.Valid g) (h : c.Grows c')
    (hcurrent : c'.current = c.current) (key : ItemKey) (hkey : key ∈ g.keysUpTo c.current)
    (hlower : c'.costOf key < c.costOf key) : c'.debt g < c.debt g := by
  rw [debt, debt, hcurrent]
  exact List.sum_lt_sum _ _ (fun other _ => costOf_grows g c hc hc' h hcurrent other)
    ⟨key, hkey, hlower⟩

theorem debt_le {c' : Chart} (hc : c.Valid g) (hc' : c'.Valid g) (h : c.Grows c')
    (hcurrent : c'.current = c.current) : c'.debt g ≤ c.debt g := by
  rw [debt, debt, hcurrent]
  exact List.sum_le_sum fun key _ => costOf_grows g c hc hc' h hcurrent key

theorem costOf_of_holds {c' : Chart} (hc' : c'.Valid g) (new : Candidate)
    (h : c'.Holds c'.current new) : c'.costOf new.key ≤ new.errorCost := by
  obtain ⟨id, item, hitem, hid, hkey, hcost, -⟩ := h
  have := (keyed?_eq_some_iff g c' hc'.filed new.key item).mpr ⟨id, hitem, hid, hkey⟩
  simpa [costOf, this] using hcost

/-- An entry that queues anything lowers a cost, which pays for the queue. -/
theorem Entered.potential_le {c' : Chart} {new : Candidate} (h : c.Entered g new c')
    (hc : c.Valid g) (hfits : c.Fits g new) (hframe : c.SameFrame c') (hc' : c'.Valid g) :
    c'.potential g ≤ c.potential g := by
  have hgrows := h.grows hc.filed hframe
  have hcurrent := hframe.current
  have hkey := g.mem_keysUpTo c.current new.key hfits.dot hfits.origin
  have hsize := newestSize_le g c hc
  have hnew := costOf_of_holds g hc' new (hcurrent ▸ h.holds)
  -- one cost less is worth one round over the whole column
  have hpay : ∀ queued, queued ≤ 1 + c.newestSize → new.errorCost < c.costOf new.key →
      c'.worklist.toList.length ≤ c.worklist.toList.length + queued →
      c'.potential g ≤ c.potential g := by
    intro queued hqueued hlower hlength
    have hdebt := debt_lt g c hc hc' hgrows hcurrent new.key hkey
      (Nat.lt_of_le_of_lt hnew hlower)
    have hmul := Nat.mul_le_mul_right ((g.keysUpTo c.current).length + 1)
      (Nat.succ_le_of_lt hdebt)
    rw [Nat.succ_mul] at hmul
    rw [potential, potential, hcurrent]
    omega
  cases h with
  | created absent items queued length =>
      refine hpay _ (Nat.le_refl _) ?_ length
      have hnone : c.keyed? new.key = none := by
        rw [Option.eq_none_iff_forall_ne_some]
        intro item hitem
        obtain ⟨⟨_, seq⟩, hitem, rfl, hsame⟩ :=
          (keyed?_eq_some_iff g c hc.filed new.key item).mp hitem
        exact absent seq item hitem hsame
      rw [costOf, hnone, Option.elim_none]
      exact Nat.lt_succ_of_le hfits.cost
  | merged seq item present same items queued length =>
      by_cases hlower : new.errorCost < item.errorCost
      · rw [if_pos hlower] at length
        refine hpay _ (Nat.le_refl _) ?_ length
        have := (keyed?_eq_some_iff g c hc.filed new.key item).mpr ⟨_, present, rfl, same⟩
        rwa [costOf, this, Option.elim_some]
      · rw [if_neg hlower] at length
        have hdebt := debt_le g c hc hc' hgrows hcurrent
        have hmul := Nat.mul_le_mul_right ((g.keysUpTo c.current).length + 1) hdebt
        rw [potential, potential, hcurrent]
        omega

section process

variable {g c} (hg : g.Numbered) (hc : c.Valid g) (hne : 0 < c.columns.size)

include hg hc hne in
theorem insertAll_potential_le (news : List Candidate) (hfits : ∀ new ∈ news, c.Fits g new) :
    (c.insertAll g news).potential g ≤ c.potential g := by
  induction news generalizing c with
  | nil => exact Nat.le_refl _
  | cons new news ih =>
      have hnew := hfits new (by simp)
      obtain ⟨hentered, hfiled, hframe⟩ := c.insert_entered g hg hc.filed hne new hnew.dot
      have hvalid := hentered.valid hc hnew hframe hfiled
      have hgrows := hentered.grows hc.filed hframe
      refine Nat.le_trans (ih hvalid (by rwa [hframe.size]) fun other hother =>
        (hfits other (by simp [hother])).grows hgrows hframe.current) ?_
      exact hentered.potential_le g c hc hnew hframe hvalid

include hg hc hne in
theorem predict_potential_le (symbol : SymbolId) :
    (c.predict g symbol).potential g ≤ c.potential g := by
  rw [predict]
  split
  · obtain ⟨hsize, hcurrent⟩ := c.current_markNewest symbol
    have hvalid := valid_markNewest g c symbol hc
    have hgrows := (c.progresses_markNewest symbol).grows
    refine Nat.le_trans (insertAll_potential_le hg hvalid (by rwa [hsize]) _
      fun new hnew => (predictions_fit hg symbol new hnew).grows hgrows hcurrent) ?_
    have hdebt := debt_le g c hc hvalid hgrows hcurrent
    rw [potential, potential, hcurrent]
    exact Nat.add_le_add_left (Nat.mul_le_mul_right _ hdebt) _
  · exact Nat.le_refl _

include hg hc hne in
/-- Processing an item queues no more than it pays for. -/
theorem process_potential_le (ceiling : Nat) (id : ItemId) (item : Item)
    (hitem : c.item? id = some item) (hid : id.column = c.current) :
    (c.process g ceiling item).potential g ≤ c.potential g := by
  rw [process]
  cases hnext : g.next? item.rule item.dot with
  | none =>
      exact insertAll_potential_le hg hc hne _
        (completions_fit hg hc ceiling id item hitem hid hnext)
  | some symbol =>
      simp only
      split
      · exact predict_potential_le hg hc hne symbol
      · exact Nat.le_refl _

end process

/-- Taking an item out of the queue lowers the bound by one. -/
theorem popped_potential (hc : c.Filed g) (id : ItemId) (h : c.worklist.pop.1 = some id) :
    c.popped.potential g + 1 = c.potential g := by
  obtain ⟨-, hlist⟩ := c.filed_popped g hc id h
  have hdebt : c.popped.debt g = c.debt g := rfl
  have hcurrent : c.popped.current = c.current := rfl
  rw [potential, potential, hlist, hdebt, hcurrent, List.length_cons]
  omega

/-- The queue is no longer than the column. -/
theorem worklist_length_le (hc : c.Valid g) :
    c.worklist.toList.length ≤ (g.keysUpTo c.current).length := by
  refine Nat.le_trans ?_ (newestSize_le g c hc)
  have hnodup : (c.worklist.toList.map ItemId.seq).Nodup := by
    refine List.Nodup.map_on ?_ hc.filed.queue.nodup
    rintro ⟨i, s⟩ ha ⟨j, t⟩ hb heq
    have hi := (hc.filed.queued _ ha).1
    have hj := (hc.filed.queued _ hb).1
    simp_all
  have hsub : c.worklist.toList.map ItemId.seq ⊆ List.range c.newestSize := by
    intro seq hseq
    obtain ⟨id, hid, rfl⟩ := List.mem_map.mp hseq
    obtain ⟨hcolumn, item, hitem⟩ := hc.filed.queued id hid
    rw [List.mem_range, ← c.newest_isSome_iff g hc.filed, ← hcolumn, hitem, Option.isSome_some]
  simpa using (hnodup.subperm hsub).length_le

/-- The bound on the items taken exceeds the measure. -/
theorem potential_lt (hc : c.Valid g) (hne : 0 < c.columns.size) :
    c.potential g < (maxCost + 2) * (c.columns.size * Parser.dottedRules g *
      (c.columns.size * Parser.dottedRules g + 1)) + 1 := by
  have hqueue := worklist_length_le g c hc
  have hdebt : c.debt g ≤ (g.keysUpTo c.current).length * (maxCost + 1) := by
    rw [debt, ← List.length_map (f := c.costOf)]
    refine List.sum_le_card_nsmul _ _ fun cost hcost => ?_
    obtain ⟨key, -, rfl⟩ := List.mem_map.mp hcost
    exact c.costOf_le g hc key
  have hlength : (g.keysUpTo c.current).length = c.columns.size * Parser.dottedRules g := by
    rw [g.length_keysUpTo, current, Nat.sub_add_cancel hne]
  rw [potential, ← hlength]
  generalize (g.keysUpTo c.current).length = n at *
  have hmul := Nat.mul_le_mul_right (n + 1) hdebt
  have hn : n ≤ n * (n + 1) := Nat.le_mul_of_pos_right n (Nat.succ_pos n)
  have hexpand : (maxCost + 2) * (n * (n + 1)) = n * (maxCost + 1) * (n + 1) + n * (n + 1) := by
    ring
  omega

end Chart
end EarleyChart
