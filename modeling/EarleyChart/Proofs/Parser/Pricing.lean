import EarleyChart.Proofs.Parser.Preservation

/-!
The cost of an item against the costs of its links. While a column is closed,
some link of an item costs no more than the item, and no step over a token costs
less. A completion may fall behind, when an item that it joins became cheaper; a
column that owes nothing has caught up, so that the cost of each item is the
least of its links.
-/

namespace EarleyChart
namespace Chart

/-- The cost of the step that a link takes. A correction is made at the price of
the item that it leads from. -/
def stepCost? (c : Chart) (price : ItemId → Option CorrectionCost) (link : Link) : Option Nat :=
  match link.step with
  | .scanned => (c.item? link.left).map (·.errorCost)
  | .completed => (c.item? link.left).bind fun left =>
      (link.right.bind c.item?).map fun right => addCost left.errorCost right.errorCost
  | .deleted => (c.item? link.left).bind fun left =>
      (price link.left).map fun cost => addCost left.errorCost cost.deletion
  | .substituted => (c.item? link.left).bind fun left =>
      (price link.left).map fun cost => addCost left.errorCost cost.substitution

/-- A cost together with the links that lead to it. -/
structure Priced (c : Chart) (price : ItemId → Option CorrectionCost) (ceiling cost : Nat)
    (links : List Link) : Prop where
  free : links = [] → cost = 0
  reached : links ≠ [] → ∃ link ∈ links, ∃ step, c.stepCost? price link = some step ∧ step ≤ cost
  token : ∀ link ∈ links, link.step ≠ .completed →
    ∃ step, c.stepCost? price link = some step ∧ cost ≤ step
  completed : ∀ link ∈ links, link.step = .completed →
    ∃ step, c.stepCost? price link = some step ∧ step ≤ ceiling

def NewestPriced (price : ItemId → Option CorrectionCost) (ceiling : Nat) (c : Chart) : Prop :=
  ∀ id item, c.item? id = some item → id.column = c.current →
    c.Priced price ceiling item.errorCost item.links

variable {g : Grammar} {c c' : Chart} {price : ItemId → Option CorrectionCost} {ceiling : Nat}

theorem stepCost?_congr (h : ∀ id, c'.item? id = c.item? id) (link : Link) :
    c'.stepCost? price link = c.stepCost? price link := by
  have heq : c'.item? = c.item? := funext h
  rw [stepCost?, stepCost?, heq]

/-- A step becomes no dearer. -/
theorem stepCost?_grows (h : c.Grows c') {link : Link} {step : Nat}
    (hstep : c.stepCost? price link = some step) :
    ∃ step', c'.stepCost? price link = some step' ∧ step' ≤ step := by
  rw [stepCost?] at hstep
  rw [stepCost?]
  cases hkind : link.step with
  | scanned =>
      rw [hkind] at hstep
      obtain ⟨left, hleft, rfl⟩ := Option.map_eq_some_iff.mp hstep
      obtain ⟨left', hleft', -, hcost, -⟩ := h.item _ left hleft
      exact ⟨_, by simp only [hleft', Option.map_some], hcost⟩
  | completed =>
      rw [hkind] at hstep
      obtain ⟨left, hleft, hstep⟩ := Option.bind_eq_some_iff.mp hstep
      obtain ⟨right, hright, rfl⟩ := Option.map_eq_some_iff.mp hstep
      obtain ⟨other, hother, hright⟩ := Option.bind_eq_some_iff.mp hright
      obtain ⟨left', hleft', -, hcost, -⟩ := h.item _ left hleft
      obtain ⟨right', hright', -, hcost', -⟩ := h.item _ right hright
      exact ⟨_, by simp only [hleft', hother, hright', Option.bind_some, Option.map_some],
        addCost_mono hcost hcost'⟩
  | deleted | substituted =>
      rw [hkind] at hstep
      obtain ⟨left, hleft, hstep⟩ := Option.bind_eq_some_iff.mp hstep
      obtain ⟨cost, hcost, rfl⟩ := Option.map_eq_some_iff.mp hstep
      obtain ⟨left', hleft', -, hle, -⟩ := h.item _ left hleft
      exact ⟨_, by simp only [hleft', hcost, Option.bind_some, Option.map_some],
        addCost_mono hle (Nat.le_refl _)⟩

/-- A step over a token costs what it did, because it leads from an older column. -/
theorem stepCost?_older (h : c.Progresses c') {link : Link} (hkind : link.step ≠ .completed)
    (hleft : link.left.column ≠ c.current) :
    c'.stepCost? price link = c.stepCost? price link := by
  rw [stepCost?, stepCost?, h.older _ hleft]
  cases hstep : link.step with
  | scanned | deleted | substituted => rfl
  | completed => contradiction

theorem LinkFits.left_column {key : ItemKey} {column : Nat} {link : Link}
    (h : c.LinkFits g key column link) (hkind : link.step ≠ .completed) :
    link.left.column ≠ column := by
  cases h with
  | scanned _ _ _ _ hcolumn | substituted _ _ _ _ _ hcolumn | deleted _ _ _ _ _ hcolumn =>
      simp only
      omega
  | completed => contradiction

theorem Priced.progresses {cost : Nat} {links : List Link}
    (h : c.Priced price ceiling cost links) (hprogress : c.Progresses c') {key : ItemKey}
    (hfits : ∀ link ∈ links, c.LinkFits g key c.current link) :
    c'.Priced price ceiling cost links where
  free := h.free
  reached hne := by
    obtain ⟨link, hlink, step, hstep, hle⟩ := h.reached hne
    obtain ⟨step', hstep', hle'⟩ := stepCost?_grows hprogress.grows hstep
    exact ⟨link, hlink, step', hstep', Nat.le_trans hle' hle⟩
  token link hlink hkind := by
    rw [stepCost?_older hprogress hkind ((hfits link hlink).left_column hkind)]
    exact h.token link hlink hkind
  completed link hlink hkind := by
    obtain ⟨step, hstep, hle⟩ := h.completed link hlink hkind
    obtain ⟨step', hstep', hle'⟩ := stepCost?_grows hprogress.grows hstep
    exact ⟨step', hstep', Nat.le_trans hle' hle⟩

/-- Packing adds the links, and the lower cost remains. -/
theorem Priced.merge {item : Item} {new : Candidate}
    (h : c.Priced price ceiling item.errorCost item.links)
    (hnew : c.Priced price ceiling new.errorCost new.link.toList)
    (hboth : item.links = [] ↔ new.link = none) :
    c.Priced price ceiling (mergeInto new item).errorCost (mergeInto new item).links := by
  have hmem : ∀ link, link ∈ (mergeInto new item).links ↔
      link ∈ item.links ∨ link ∈ new.link.toList := by
    intro link
    rw [mergeInto_links]
    by_cases hold : link ∈ item.links <;> simp [hold]
  rw [mergeInto_errorCost]
  have hleft := Nat.min_le_left new.errorCost item.errorCost
  have hright := Nat.min_le_right new.errorCost item.errorCost
  constructor
  case free =>
    intro hnil
    have hempty : item.links = [] := by
      rw [mergeInto_links] at hnil
      exact (List.append_eq_nil_iff.mp hnil).1
    rw [h.free hempty, Nat.min_zero]
  case reached =>
    intro hne
    have hsome : item.links ≠ [] := by
      intro hempty
      rw [mergeInto_links, hempty, hboth.mp hempty] at hne
      contradiction
    rcases Nat.le_total new.errorCost item.errorCost with hle | hle
    · have hlink : new.link.toList ≠ [] := by simpa using fun hnone => hsome (hboth.mpr hnone)
      obtain ⟨link, hlink, step, hstep, hcost⟩ := hnew.reached hlink
      exact ⟨link, (hmem link).mpr (.inr hlink), step, hstep, by rwa [Nat.min_eq_left hle]⟩
    · obtain ⟨link, hlink, step, hstep, hcost⟩ := h.reached hsome
      exact ⟨link, (hmem link).mpr (.inl hlink), step, hstep, by rwa [Nat.min_eq_right hle]⟩
  case token =>
    intro link hlink hkind
    rcases (hmem link).mp hlink with hlink | hlink
    · obtain ⟨step, hstep, hle⟩ := h.token link hlink hkind
      exact ⟨step, hstep, Nat.le_trans hright hle⟩
    · obtain ⟨step, hstep, hle⟩ := hnew.token link hlink hkind
      exact ⟨step, hstep, Nat.le_trans hleft hle⟩
  case completed =>
    intro link hlink hkind
    rcases (hmem link).mp hlink with hlink | hlink
    · exact h.completed link hlink hkind
    · exact hnew.completed link hlink hkind

/-- A candidate whose cost is that of its step. -/
def Candidate.Backed (price : ItemId → Option CorrectionCost) (ceiling : Nat) (c : Chart)
    (new : Candidate) : Prop :=
  c.Priced price ceiling new.errorCost new.link.toList

/-- A candidate is backed by the step that it costs. -/
theorem Candidate.Backed.of_step {new : Candidate} {link : Link} (hlink : new.link = some link)
    (hstep : c.stepCost? price link = some new.errorCost)
    (hceiling : link.step = .completed → new.errorCost ≤ ceiling) :
    Candidate.Backed price ceiling c new := by
  have honly : ∀ other ∈ new.link.toList, other = link := by simp [hlink]
  constructor
  case free => simp [hlink]
  case reached => exact fun _ => ⟨link, by simp [hlink], _, hstep, Nat.le_refl _⟩
  case token =>
    intro other hother _
    exact ⟨_, honly other hother ▸ hstep, Nat.le_refl _⟩
  case completed =>
    intro other hother hkind
    obtain rfl := honly other hother
    exact ⟨_, hstep, hceiling hkind⟩

theorem Fits.links {new : Candidate} (h : c.Fits g new) :
    ∀ link ∈ new.link.toList, c.LinkFits g new.key c.current link := by
  intro link hlink
  exact h.link link (Option.mem_toList.mp hlink)

theorem newestPriced_admits :
    Admits g (NewestPriced price ceiling) (Candidate.Backed price ceiling) where
  later _ hfits hprogress hnew := Priced.progresses hnew hprogress hfits.links
  enter {c c' new} hc hfits hentered hprogress hpriced hnew := by
    intro id item' hitem' hid
    rw [hprogress.current] at hid
    have hnew' := Priced.progresses hnew hprogress hfits.links
    have hold : ∀ item, c.item? id = some item →
        c'.Priced price ceiling item.errorCost item.links := by
      intro item hitem
      apply (hpriced id item hitem hid).progresses hprogress
      exact hid ▸ (hc.item id item hitem).shape
    rcases hentered.item_cases id item' hitem' with hitem | ⟨-, rfl⟩ | ⟨-, item, hitem, hkey, rfl⟩
    · exact hold item' hitem
    · exact hnew'
    · apply (hold item hitem).merge hnew'
      -- seeds have no links, and one identity is a seed or is none
      obtain ⟨-, hdot, horigin⟩ := Item.key_eq_iff.mp hkey
      rw [(hc.item id item hitem).links, hfits.link_iff hc, hid]
      simp only [hdot, horigin]

/-- The costs of a column stay backed by its links while it is closed. -/
theorem newestPriced_preserved :
    Preserved g ceiling (NewestPriced price ceiling) (Candidate.Backed price ceiling) where
  toAdmits := newestPriced_admits
  same {c c'} hprogress hsame hpriced := by
    intro id item hitem hid
    rw [hsame] at hitem
    rw [hprogress.current] at hid
    have h := hpriced id item hitem hid
    constructor
    case free => exact h.free
    all_goals simp only [stepCost?_congr hsame]
    case reached => exact h.reached
    case token => exact h.token
    case completed => exact h.completed
  predict _ _ _ _ _ _ := ⟨fun _ => rfl, by simp, by simp, by simp⟩
  complete {c id other last item} hc _ hlast _ _ hitem _ _ hcost := by
    refine Candidate.Backed.of_step rfl ?_ fun _ => hcost
    rw [item_id g c hc.filed id last hlast, item_id g c hc.filed other item hitem]
    simp [stepCost?, hlast, hitem, advanceOver]

/-- A column that is closed: the rules of what it waits for are there, completions
are packed exactly within the ceiling, and the cost of an item is the least of its
links. -/
structure Closed (g : Grammar) (price : ItemId → Option CorrectionCost) (ceiling : Nat)
    (c : Chart) : Prop where
  predicted : ∀ id item symbol, c.item? id = some item → id.column = c.current →
    g.next? item.rule item.dot = some symbol → g.isNonterminal symbol = true →
    ∀ rule ∈ g.rulesFor symbol, ∃ other seed, c.item? other = some seed ∧
      other.column = c.current ∧ seed.key = ⟨rule, 0, c.current⟩
  completed : ∀ id last other item, c.item? id = some last → id.column = c.current →
    g.next? last.rule last.dot = none → c.item? other = some item →
    other.column = last.origin → g.next? item.rule item.dot = some (g.lhs last.rule) →
    ((∃ target next, c.item? target = some next ∧ target.column = c.current ∧
        next.key = ⟨item.rule, item.dot + 1, item.origin⟩ ∧
        ⟨.completed, other, some id⟩ ∈ next.links) ↔
      addCost item.errorCost last.errorCost ≤ ceiling)
  cost : ∀ id item, c.item? id = some item → id.column = c.current →
    (item.links = [] → item.errorCost = 0) ∧
    (item.links ≠ [] → ∃ costs : List Nat, item.links.map (c.stepCost? price) = costs.map some ∧
      costs.min? = some item.errorCost)

section Closed

variable (hc : c.Valid g) (hpriced : c.NewestPriced price ceiling)
  (hsaturated : c.Saturated g ceiling c.current)

include hc hpriced hsaturated in
/-- In a saturated column no step of an item costs less than the item. -/
theorem le_stepCost? {id : ItemId} {item : Item} (hitem : c.item? id = some item)
    (hid : id.column = c.current) {link : Link} (hlink : link ∈ item.links) :
    ∃ step, c.stepCost? price link = some step ∧ item.errorCost ≤ step := by
  have h := hpriced id item hitem hid
  by_cases hkind : link.step = .completed
  · obtain ⟨step, hstep, hle⟩ := h.completed link hlink hkind
    refine ⟨step, hstep, ?_⟩
    have hfits := (hc.item id item hitem).shape link hlink
    cases hfits with
    | scanned | substituted | deleted => contradiction
    | completed first other left right hleft hright hcolumn hother hkey hnext hend =>
        obtain rfl : addCost left.errorCost right.errorCost = step := by
          simpa [stepCost?, hleft, hright] using hstep
        obtain ⟨id', item', hitem', hid', hkey', hcost, -⟩ :=
          hsaturated.completed other right first left hright (hother.trans hid) hend hleft
            hcolumn hnext hle
        obtain ⟨-, rfl⟩ := item_unique g c hc.filed id id' item item' hitem hitem'
          (hid.trans hid'.symm) (hkey.trans hkey'.symm)
        exact hcost
  · exact h.token link hlink hkind

include hc hpriced hsaturated in
theorem Saturated.closed : c.Closed g price ceiling where
  predicted id item symbol hitem hid hnext hsymbol rule hrule := by
    obtain ⟨other, seed, hseed, hother, hkey, -⟩ :=
      hsaturated.predicted id item symbol hitem hid hnext hsymbol rule hrule
    exact ⟨other, seed, hseed, hother, hkey⟩
  completed id last other item hlast hid hend hitem hcolumn hnext := by
    constructor
    · rintro ⟨target, next, htarget, hnewest, -, hlink⟩
      obtain ⟨step, hstep, hle⟩ := (hpriced target next htarget hnewest).completed _ hlink rfl
      obtain rfl : addCost item.errorCost last.errorCost = step := by
        simpa [stepCost?, hitem, hlast] using hstep
      exact hle
    · intro hcost
      obtain ⟨target, next, htarget, hnewest, hkey, -, hlinks⟩ :=
        hsaturated.completed id last other item hlast hid hend hitem hcolumn hnext hcost
      refine ⟨target, next, htarget, hnewest, hkey, hlinks _ ?_⟩
      rw [advanceOver, item_id g c hc.filed id last hlast, item_id g c hc.filed other item hitem]
  cost id item hitem hid := by
    have h := hpriced id item hitem hid
    refine ⟨h.free, fun hne => ?_⟩
    have hsteps : ∀ link ∈ item.links, ∃ step, c.stepCost? price link = some step ∧
        item.errorCost ≤ step :=
      fun link hlink => le_stepCost? hc hpriced hsaturated hitem hid hlink
    have hcosts : item.links.map (c.stepCost? price) =
        (item.links.filterMap (c.stepCost? price)).map some := by
      rw [List.map_filterMap, ← List.filterMap_eq_map]
      refine List.filterMap_congr fun link hlink => ?_
      obtain ⟨step, hstep, -⟩ := hsteps link hlink
      simp [hstep]
    refine ⟨_, hcosts, List.min?_eq_some_iff.mpr ⟨?_, ?_⟩⟩
    · obtain ⟨link, hlink, step, hstep, hle⟩ := h.reached hne
      obtain ⟨step', hstep', hle'⟩ := hsteps link hlink
      obtain rfl := Option.some.inj (hstep.symm.trans hstep')
      rw [List.mem_filterMap]
      exact ⟨link, hlink, by rw [hstep, Nat.le_antisymm hle hle']⟩
    · intro step hstep
      obtain ⟨link, hlink, hstep⟩ := List.mem_filterMap.mp hstep
      obtain ⟨step', hstep', hle'⟩ := hsteps link hlink
      obtain rfl := Option.some.inj (hstep.symm.trans hstep')
      exact hle'

end Closed

end Chart
end EarleyChart
