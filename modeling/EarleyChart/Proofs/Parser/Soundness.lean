import EarleyChart.Proofs.Parser.Preservation

/-!
Properties of all items. A property of column, identity and cost that holds of
what is predicted, and is passed on when a waiting item is advanced over a
completed one, holds of all items that the closure of a column adds. The steps
of their links are those of the items that entered, and completions.
-/

namespace EarleyChart
namespace Chart

/-- A property holds of every item, and its links take allowed steps. -/
def All (property : Nat → ItemKey → Nat → Prop) (allowed : StepKind → Prop) (c : Chart) :
    Prop :=
  ∀ id item, c.item? id = some item → property id.column item.key item.errorCost ∧
    ∀ link ∈ item.links, allowed link.step

def Having (property : Nat → ItemKey → Nat → Prop) (allowed : StepKind → Prop) (column : Nat)
    (new : Candidate) : Prop :=
  property column new.key new.errorCost ∧ ∀ link, new.link = some link → allowed link.step

/-- A property that prediction and completion in a column lead to. -/
structure PassedOn (g : Grammar) (ceiling column : Nat)
    (property : Nat → ItemKey → Nat → Prop) (allowed : StepKind → Prop) : Prop where
  seed : ∀ key cost symbol rule, property column key cost →
    g.next? key.rule key.dot = some symbol → rule ∈ g.rulesFor symbol →
    property column ⟨rule, 0, column⟩ 0
  join : ∀ left cost right cost', property right.origin left cost → property column right cost' →
    g.next? left.rule left.dot = some (g.lhs right.rule) →
    g.next? right.rule right.dot = none → addCost cost cost' ≤ ceiling →
    property column ⟨left.rule, left.dot + 1, left.origin⟩ (addCost cost cost')
  completed : allowed .completed

variable {g : Grammar} (hg : g.Numbered) {ceiling : Nat} {c : Chart}
  {property : Nat → ItemKey → Nat → Prop} {allowed : StepKind → Prop}

theorem Entered.all {c' : Chart} {new : Candidate} (h : c.Entered g new c')
    (hall : c.All property allowed) (hnew : Having property allowed c.current new) :
    c'.All property allowed := by
  intro id item' hitem'
  rcases h.item_cases id item' hitem' with hold | ⟨rfl, rfl⟩ | ⟨hid, item, hold, hkey, rfl⟩
  · exact hall id item' hold
  · refine ⟨hnew.1, fun link hlink => hnew.2 link ?_⟩
    simpa [Candidate.toItem, eq_comm] using hlink
  · obtain ⟨hproperty, hlinks⟩ := hall id item hold
    rw [(mergeInto_id_key new item).2, mergeInto_errorCost, mergeInto_links]
    constructor
    · rcases Nat.le_total new.errorCost item.errorCost with hle | hle
      · rw [Nat.min_eq_left hle, hid, hkey]
        exact hnew.1
      · rwa [Nat.min_eq_right hle]
    · intro link hlink
      rcases List.mem_append.mp hlink with hold | hadded
      · exact hlinks link hold
      · exact hnew.2 link (Option.mem_toList.mp (List.mem_filter.mp hadded).1)

theorem all_admits (column : Nat) :
    Admits g (fun c => c.current = column ∧ c.All property allowed)
      fun _ new => Having property allowed column new where
  enter := by
    rintro c c' new - - hentered hprogress ⟨rfl, hall⟩ hnew
    exact ⟨hprogress.current, hentered.all hall hnew⟩
  later _ _ _ hnew := hnew

/-- What is passed on in a column survives its closure. -/
theorem PassedOn.preserved {column : Nat} (h : PassedOn g ceiling column property allowed) :
    Preserved g ceiling (fun c => c.current = column ∧ c.All property allowed)
      fun _ new => Having property allowed column new where
  toAdmits := all_admits column
  same := by
    rintro c c' hprogress hsame ⟨rfl, hall⟩
    refine ⟨hprogress.current, fun id item hitem => hall id item ?_⟩
    rw [← hsame, hitem]
  predict := by
    rintro c id item symbol rule - ⟨rfl, hall⟩ hitem hid hnext hrule
    have hproperty := (hall id item hitem).1
    rw [hid] at hproperty
    exact ⟨h.seed item.key item.errorCost symbol rule hproperty hnext hrule, by simp⟩
  complete := by
    rintro c id other last item - ⟨rfl, hall⟩ hlast hid hend hitem hcolumn hnext hcost
    refine ⟨h.join item.key item.errorCost last.key last.errorCost
      (by simpa [Item.key, hcolumn] using (hall other item hitem).1)
      (hid ▸ (hall id last hlast).1) hnext hend hcost, ?_⟩
    rintro _ ⟨⟩
    exact h.completed

include hg in
theorem insertAll_all (news : List Candidate) (hc : c.Valid g) (hne : 0 < c.columns.size)
    (hfits : ∀ new ∈ news, c.Fits g new) (hall : c.All property allowed)
    (hnews : ∀ new ∈ news, Having property allowed c.current new) :
    (c.insertAll g news).All property allowed :=
  ((all_admits c.current).insertAll hg news hc hne hfits ⟨rfl, hall⟩ hnews).2

include hg in
theorem predict_all (hc : c.Valid g) (hne : 0 < c.columns.size) (symbol : SymbolId)
    (hall : c.All property allowed) (hpassed : PassedOn g ceiling c.current property allowed)
    (hseed : ∀ rule ∈ g.rulesFor symbol, property c.current ⟨rule, 0, c.current⟩ 0) :
    (c.predict g symbol).All property allowed := by
  refine (hpassed.preserved.predicted hg hc hne symbol ⟨rfl, hall⟩ fun rule hrule => ?_).2
  exact ⟨hseed rule hrule, by simp⟩

include hg in
theorem TakesAll.all {c' : Chart} (h : TakesAll g ceiling c c') (hc : c.Closable g)
    (hall : c.All property allowed) (hpassed : PassedOn g ceiling c.current property allowed) :
    c'.All property allowed :=
  (hpassed.preserved.takesAll hg h hc ⟨rfl, hall⟩).2

end Chart
end EarleyChart
