import EarleyChart.Proofs.Parser.Reading

/-!
Every derivation within the ceiling is in the chart, at most at its cost. The
induction is on the derivation: a waiting item has its nonterminal's rules
predicted, which is what the derivation of the completed item starts from, and
the saturation of the column joins the two.
-/

namespace EarleyChart

theorem le_addCost_left {a : Nat} (b : Nat) (h : a ≤ maxCost) : a ≤ addCost a b := by
  simp only [addCost]
  omega

theorem le_addCost_right (a : Nat) {b : Nat} (h : b ≤ maxCost) : b ≤ addCost a b := by
  simp only [addCost]
  omega

namespace Corrected

variable {g : Grammar} {quote : Quote} {tokens : List Token} {column : Nat} {key : ItemKey}
  {cost : Nat} (h : Corrected g quote tokens column key cost)

include h in
theorem cost_le : cost ≤ maxCost := by
  induction h with
  | start => exact Nat.zero_le _
  | scan _ _ _ _ ih => exact ih
  | substitute | delete | join => exact Chart.addCost_le _ _

include h in
theorem rule_isSome : (g.rule? key.rule).isSome = true := by
  induction h with
  | start _ _ _ hrule => exact hrule
  | scan _ _ _ _ ih | substitute _ _ _ _ _ _ ih | delete _ _ _ _ _ ih => exact ih
  | join _ _ _ _ ih => exact ih

end Corrected

namespace Chart

def Contains (c : Chart) (column : Nat) (key : ItemKey) (cost : Nat) : Prop :=
  ∃ id item, c.item? id = some item ∧ id.column = column ∧ item.key = key ∧
    item.errorCost ≤ cost

/-- The seed of an identity is in its column of origin. -/
def Begun (c : Chart) (key : ItemKey) : Prop :=
  c.Holds key.origin ⟨key.rule, 0, key.origin, 0, none⟩

theorem Holds.contains {c : Chart} {column cost : Nat} {new : Candidate}
    (h : c.Holds column new) (hcost : new.errorCost ≤ cost) :
    c.Contains column new.key cost := by
  obtain ⟨id, item, hitem, hid, hkey, hle, -⟩ := h
  exact ⟨id, item, hitem, hid, hkey, Nat.le_trans hle hcost⟩

variable {g : Grammar} (hg : g.Numbered) {quote : Quote} {ceiling n : Nat}
  {tokens : List Token} {c : Chart} (h : c.Reading g quote ceiling tokens n)
  (hlast : ∀ token, tokens[n]? = some token → c.Readings g quote ceiling token [])

include h hlast in
/-- A reading within the ceiling arrives in the next column; there is none at the
last one. -/
theorem Reading.contains_of_readsAs {id : ItemId} {item : Item} {token : Token}
    {new : Candidate} (hitem : c.item? id = some item) (hcolumn : id.column ≤ n)
    (htoken : tokens[id.column]? = some token) (hreads : ReadsAs g quote token id item new)
    {cost : Nat} (hnew : new.errorCost ≤ cost) (hcost : cost ≤ ceiling) :
    id.column + 1 ≤ n ∧ c.Contains (id.column + 1) new.key cost := by
  rcases Nat.lt_or_eq_of_le hcolumn with hlt | heq
  · refine ⟨hlt, (h.read id item token new hitem hlt htoken hreads ?_).contains hnew⟩
    exact Nat.le_trans hnew hcost
  · rw [heq] at htoken
    have := (hlast token htoken new).mpr
      ⟨id, item, hitem, heq.trans h.current.symm, hreads, Nat.le_trans hnew hcost⟩
    simp at this

include hg h hlast in
/-- Every derivation within the ceiling whose rule was begun is in the chart. -/
theorem Reading.contains_of_corrected {column : Nat} {key : ItemKey} {cost : Nat}
    (hderived : Corrected g quote tokens column key cost) (hcost : cost ≤ ceiling)
    (hbegun : c.Begun key) : column ≤ n ∧ c.Contains column key cost := by
  induction hderived with
  | start column rule hcolumn hrule =>
      have hseed := Holds.contains hbegun (Nat.le_refl 0)
      obtain ⟨id, item, hitem, hid, -⟩ := hbegun
      have hle := c.column_lt id item hitem
      rw [h.current, hid] at hle
      exact ⟨hle, hseed⟩
  | scan _ htoken hnext hkind ih =>
      obtain ⟨hle, id, item, hitem, rfl, rfl, hitemcost⟩ := ih hcost hbegun
      exact h.contains_of_readsAs hlast hitem hle htoken (.scan hnext hkind) hitemcost hcost
  | substitute hprev htoken hnext hterminal hkind hquote ih =>
      obtain ⟨hle, id, item, hitem, rfl, rfl, hitemcost⟩ :=
        ih (Nat.le_trans (le_addCost_left _ hprev.cost_le) hcost) hbegun
      exact h.contains_of_readsAs hlast hitem hle htoken
        (.substitute hnext hterminal hkind hquote) (addCost_mono hitemcost (Nat.le_refl _)) hcost
  | delete hprev htoken hnext hterminal hquote ih =>
      obtain ⟨hle, id, item, hitem, rfl, rfl, hitemcost⟩ :=
        ih (Nat.le_trans (le_addCost_left _ hprev.cost_le) hcost) hbegun
      exact h.contains_of_readsAs hlast hitem hle htoken
        (.delete hnext hterminal hquote) (addCost_mono hitemcost (Nat.le_refl _)) hcost
  | @join column left right cost cost' hleft hright hnext hend ihleft ihright =>
      obtain ⟨hle, id, item, hitem, hid, rfl, hitemcost⟩ :=
        ihleft (Nat.le_trans (le_addCost_left _ hleft.cost_le) hcost) hbegun
      obtain ⟨r, hr⟩ := Option.isSome_iff_exists.mp hright.rule_isSome
      have hlhs : g.lhs right.rule = r.lhs := by rw [Grammar.lhs, hr, Option.elim_some]
      have hpredicted : c.Begun right := by
        refine (h.saturated right.origin hle).predicted id item _ hitem hid hnext ?_ right.rule
          ((Grammar.mem_rulesFor_iff hg _ _).mpr ⟨r, hr, hlhs.symm⟩)
        rw [hlhs]
        exact hg.lhs r (Array.mem_of_getElem? hr)
      obtain ⟨hle', other, last, hlast', hother, rfl, hlastcost⟩ :=
        ihright (Nat.le_trans (le_addCost_right _ hright.cost_le) hcost) hpredicted
      have hjoined := addCost_mono hitemcost hlastcost
      refine ⟨hle', ?_⟩
      exact ((h.saturated column hle').completed other last id item hlast' hother hend hitem
        hid hnext (Nat.le_trans hjoined hcost)).contains hjoined

end Chart
end EarleyChart
