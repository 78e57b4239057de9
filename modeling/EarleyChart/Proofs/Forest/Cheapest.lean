import EarleyChart.Proofs.Forest.Truncation
import EarleyChart.Proofs.Parser.Ceiling
import EarleyChart.Proofs.Parser.Settings
import EarleyChart.Proofs.Parser.Uniform

/-!
The cheapest tree. With one price for all corrections a tree costs what its
substituted and its skipped tokens do. In a chart with least costs the cost of an
item is the least over its rows of children, so that without cycles the cheapest
tree of an accepted run costs what the run is reported to cost.
-/

namespace EarleyChart

theorem min?_append (xs ys : List Nat) : (xs ++ ys).min? = xs.min?.merge min ys.min? := by
  cases hxs : xs.min? with
  | none => simp [List.min?_eq_none_iff.mp hxs]
  | some a =>
      obtain ⟨ha, hleast⟩ := List.min?_eq_some_iff.mp hxs
      cases hys : ys.min? with
      | none => simp [List.min?_eq_none_iff.mp hys, hxs]
      | some b =>
          obtain ⟨hb, hleast'⟩ := List.min?_eq_some_iff.mp hys
          refine List.min?_eq_some_iff.mpr ⟨?_, fun c hc => ?_⟩
          · rcases Nat.le_total a b with hle | hle
            · rw [Nat.min_eq_left hle]
              exact List.mem_append_left ys ha
            · rw [Nat.min_eq_right hle]
              exact List.mem_append_right xs hb
          · rcases List.mem_append.mp hc with hc | hc
            · exact Nat.le_trans (Nat.min_le_left a b) (hleast c hc)
            · exact Nat.le_trans (Nat.min_le_right a b) (hleast' c hc)

/-- The cheapest pair is made of the cheapest members. -/
theorem min?_product {α β : Type} {left : List α} {right : List β} (price : α → Nat)
    (price' : β → Nat) {a b : Nat} (ha : (left.map price).min? = some a)
    (hb : (right.map price').min? = some b) :
    ((left ×ˢ right).map fun pair => price pair.1 + price' pair.2).min? = some (a + b) := by
  obtain ⟨hmem, hleast⟩ := List.min?_eq_some_iff.mp ha
  obtain ⟨hmem', hleast'⟩ := List.min?_eq_some_iff.mp hb
  obtain ⟨x, hx, rfl⟩ := List.mem_map.mp hmem
  obtain ⟨y, hy, rfl⟩ := List.mem_map.mp hmem'
  refine List.min?_eq_some_iff.mpr
    ⟨List.mem_map.mpr ⟨(x, y), List.pair_mem_product.mpr ⟨hx, hy⟩, rfl⟩, fun c hc => ?_⟩
  obtain ⟨⟨u, v⟩, huv, rfl⟩ := List.mem_map.mp hc
  obtain ⟨hu, hv⟩ := List.pair_mem_product.mp huv
  exact Nat.add_le_add (hleast _ (List.mem_map_of_mem hu)) (hleast' _ (List.mem_map_of_mem hv))

/-- The least of some prices, as far as costs go. -/
def cheapest (prices : List Nat) : Option Nat := prices.min?.map (min · maxCost)

theorem cheapest_append (xs ys : List Nat) :
    cheapest (xs ++ ys) = (cheapest xs).merge min (cheapest ys) := by
  rw [cheapest, cheapest, cheapest, min?_append]
  cases xs.min? with
  | none => cases ys.min? <;> rfl
  | some a =>
      cases ys.min? with
      | none => rfl
      | some b =>
          refine congrArg some ?_
          change min (min a b) maxCost = min (min a maxCost) (min b maxCost)
          omega

namespace ParseTree

mutual

def leaves : ParseTree → List ParseTree
  | .node _ _ children => leavesOfAll children
  | .leaf terminal token => [.leaf terminal token]
  | .substituted expected found => [.substituted expected found]
  | .skipped token => [.skipped token]

def leavesOfAll : List ParseTree → List ParseTree
  | [] => []
  | child :: rest => leaves child ++ leavesOfAll rest

end

def isSubstituted : ParseTree → Bool
  | .substituted _ _ => true
  | _ => false

def isSkipped : ParseTree → Bool
  | .skipped _ => true
  | _ => false

/-- What the corrections among some leaves cost. -/
def priceOf (cost : CorrectionCost) (leaves : List ParseTree) : Nat :=
  cost.substitution * leaves.countP isSubstituted + cost.deletion * leaves.countP isSkipped

def price (cost : CorrectionCost) (tree : ParseTree) : Nat := priceOf cost tree.leaves

def rowPrice (cost : CorrectionCost) (row : List ParseTree) : Nat :=
  priceOf cost (leavesOfAll row)

theorem rowPrice_nil (cost : CorrectionCost) : rowPrice cost [] = 0 := by
  simp [rowPrice, leavesOfAll, priceOf]

theorem priceOf_append (cost : CorrectionCost) (first second : List ParseTree) :
    priceOf cost (first ++ second) = priceOf cost first + priceOf cost second := by
  simp only [priceOf, List.countP_append, Nat.mul_add]
  omega

theorem leavesOfAll_concat (row : List ParseTree) (child : ParseTree) :
    leavesOfAll (row ++ [child]) = leavesOfAll row ++ child.leaves := by
  induction row with
  | nil => simp [leavesOfAll]
  | cons first row ih => rw [List.cons_append, leavesOfAll, leavesOfAll, ih, List.append_assoc]

theorem rowPrice_concat (cost : CorrectionCost) (row : List ParseTree) (child : ParseTree) :
    rowPrice cost (row ++ [child]) = rowPrice cost row + child.price cost := by
  rw [rowPrice, leavesOfAll_concat, priceOf_append]
  rfl

end ParseTree

namespace Forest

open ParseTree

variable (f : Forest) (cost : CorrectionCost)

/-- What a link adds to the cost of its left end. -/
def surcharge? (link : Link) : Option Nat :=
  match link.step with
  | .scanned => some 0
  | .substituted => some cost.substitution
  | .deleted => some cost.deletion
  | .completed => (link.right.bind f.item?).map (·.errorCost)

/-- No sum of costs over a link goes beyond the greatest cost. -/
def SumsFit : Prop :=
  ∀ id item link left added, f.item? id = some item → link ∈ item.links →
    f.item? link.left = some left → f.surcharge? cost link = some added →
    left.errorCost + added ≤ maxCost

/-- The rows of an item have the cost of the item for their least price. -/
def PricedRows (id : ItemId) (rows : List (List ParseTree)) : Prop :=
  ∀ item, f.item? id = some item →
    cheapest (rows.map (rowPrice cost)) = some item.errorCost ∧
      (f.SumsFit cost → ∃ row ∈ rows, rowPrice cost row ≤ maxCost)

variable {f cost}

/-- Under a low ceiling all sums fit. -/
theorem sumsFit_of_cost_le {ceiling : Nat}
    (hitems : ∀ id item, f.item? id = some item → item.errorCost ≤ ceiling)
    (hceiling : ceiling + ceiling ≤ maxCost) (hsubstitution : ceiling + cost.substitution ≤ maxCost)
    (hdeletion : ceiling + cost.deletion ≤ maxCost) : f.SumsFit cost := by
  intro id item link left added _ _ hleft hadded
  have hcost := hitems _ left hleft
  rw [surcharge?] at hadded
  split at hadded
  · obtain rfl := Option.some.inj hadded
    omega
  · obtain rfl := Option.some.inj hadded
    omega
  · obtain rfl := Option.some.inj hadded
    omega
  · obtain ⟨right, hright, rfl⟩ := Option.map_eq_some_iff.mp hadded
    obtain ⟨other, -, hother⟩ := Option.bind_eq_some_iff.mp hright
    have := hitems other right hother
    omega

/-- The least price of rows, where no sum is cut off. -/
theorem PricedRows.least {id : ItemId} {rows : List (List ParseTree)}
    (h : f.PricedRows cost id rows) {item : Item} (hitem : f.item? id = some item) :
    ∃ least, (rows.map (rowPrice cost)).min? = some least ∧
      item.errorCost = min least maxCost ∧ (f.SumsFit cost → least ≤ maxCost) := by
  obtain ⟨hcheapest, hfits⟩ := h item hitem
  obtain ⟨least, hleast, heq⟩ := Option.map_eq_some_iff.mp hcheapest
  refine ⟨least, hleast, heq.symm, fun hsums => ?_⟩
  obtain ⟨row, hrow, hle⟩ := hfits hsums
  exact Nat.le_trans ((List.min?_eq_some_iff.mp hleast).2 _ (List.mem_map_of_mem hrow)) hle

theorem map_price_nodesWith {id : ItemId} {item : Item} (hitem : f.item? id = some item)
    (rows : List (List ParseTree)) :
    (f.nodesWith id rows).map (price cost) = rows.map (rowPrice cost) := by
  rw [nodesWith, hitem, List.map_map]
  rfl

section

variable (hc : f.chart.Valid f.grammar)

include hc in
/-- The cheapest child over a link costs what the link adds. -/
theorem childrenOver_least {id : ItemId} {item : Item} (hitem : f.item? id = some item)
    {link : Link} (hlink : link ∈ item.links) (right : List (List ParseTree))
    (hright : ∀ other, link.step = .completed → link.right = some other →
      f.PricedRows cost other right) :
    ∃ least added, ((f.childrenOver item link right).map (price cost)).min? = some least ∧
      f.surcharge? cost link = some added ∧ min added maxCost = min least maxCost ∧
      (f.SumsFit cost → least = added) := by
  by_cases hstep : link.step = .completed
  · cases (hc.item id item hitem).shape link hlink with
    | scanned | substituted | deleted => contradiction
    | completed other last left next _ hnext =>
        have hnode : f.item? last = some next := hnext
        obtain ⟨least, hleast, hcost, hfits⟩ := (hright last rfl rfl).least hnode
        refine ⟨least, next.errorCost, ?_, ?_, by omega, fun hsums => ?_⟩
        · rwa [childrenOver, if_pos rfl, Option.elim_some, map_price_nodesWith hnode]
        · simp [surcharge?, hnode]
        · have := hfits hsums
          omega
  · obtain ⟨left, child, hchild, -⟩ := tokenChild_ledBy hc hitem hlink hstep
    have hprice : f.surcharge? cost link = some (child.price cost) := by
      have hmem : child ∈ f.tokenChild item link := by simp [hchild]
      rw [tokenChild] at hmem
      rw [surcharge?]
      split at hmem
      · next hkind _ =>
          obtain ⟨terminal, -, rfl⟩ := List.mem_map.mp hmem
          simp [hkind, price, leaves, priceOf, isSubstituted, isSkipped]
      · next hkind _ =>
          obtain ⟨expected, -, rfl⟩ := List.mem_map.mp hmem
          simp [hkind, price, leaves, priceOf, isSubstituted, isSkipped]
      · next hkind _ =>
          obtain rfl := List.mem_singleton.mp hmem
          simp [hkind, price, leaves, priceOf, isSubstituted, isSkipped]
      · contradiction
    refine ⟨child.price cost, child.price cost, ?_, hprice, rfl, fun _ => rfl⟩
    rw [childrenOver, if_neg hstep, hchild]
    rfl

include hc in
/-- The cost of a step is the cost of its left end with what the link adds. -/
theorem stepCost?_eq {link : Link} {left : Item} {added : Nat}
    (hleft : f.item? link.left = some left) (hadded : f.surcharge? cost link = some added) :
    f.chart.stepCost? (fun _ => some cost) link = some (min (left.errorCost + added) maxCost) := by
  have hfits := (hc.item link.left left hleft).cost
  have hleft' : f.chart.item? link.left = some left := hleft
  rw [surcharge?] at hadded
  rw [Chart.stepCost?, hleft']
  cases hkind : link.step with
  | scanned =>
      simp only [hkind, Option.some.injEq] at hadded ⊢
      rw [← hadded, Option.map_some, Nat.add_zero, Nat.min_eq_left hfits]
  | substituted | deleted =>
      simp only [hkind, Option.some.injEq] at hadded ⊢
      rw [← hadded]
      rfl
  | completed =>
      simp only [hkind] at hadded ⊢
      obtain ⟨right, hright, rfl⟩ := Option.map_eq_some_iff.mp hadded
      have hright' : link.right.bind f.chart.item? = some right := hright
      rw [hright']
      rfl

variable (hleast : f.chart.LeastCosts cost)

include hc hleast in
/-- Rows are priced link by link. -/
theorem enumerating_models : (Pass.enumerating f).Models f (f.PricedRows cost)
    fun id links rows => ∀ item, f.item? id = some item → ∃ costs : List Nat,
      links.map (f.chart.stepCost? fun _ => some cost) = costs.map some ∧
      costs.min? = cheapest (rows.map (rowPrice cost)) ∧
      (links ≠ [] → f.SumsFit cost → ∃ row ∈ rows, rowPrice cost row ≤ maxCost) where
  right := (Pass.enumerating_heeds f).right
  unit id item hitem hlinks item' hitem' := by
    obtain rfl := Option.some.inj (hitem.symm.trans hitem')
    rw [(hleast id item hitem).1 hlinks]
    simp [Pass.enumerating, rowPrice_nil, cheapest]
  start id item _ item' _ := ⟨[], rfl, rfl, fun hne => absurd rfl hne⟩
  full _ _ _ _ _ _ _ _ _ hfull := by simp [Pass.enumerating] at hfull
  add id item before link after left right rows hitem hlinks hpart _ hleft hright := by
    intro item' hitem'
    obtain rfl := Option.some.inj (hitem.symm.trans hitem')
    have hlink : link ∈ item.links := by simp [hlinks]
    obtain ⟨costs, hcosts, hmin, -⟩ := hpart item hitem
    obtain ⟨⟨first, hfirst⟩, -⟩ := ((hc.item id item hitem).shape link hlink).ends
    obtain ⟨least, hrows, hcost, hfits⟩ := hleft.least hfirst
    -- the left end has rows, so that the right end was visited
    have hcalls : (Pass.enumerating f).calls left = true := by
      cases left with
      | nil => simp at hrows
      | cons => rfl
    obtain ⟨least', added, hchildren, hadded, hcap, hexact⟩ := childrenOver_least hc hitem hlink
      right fun other hstep hother =>
        hright other hcalls (by simp [Pass.enumerating, hstep, hother])
    have hnew : (((left ×ˢ f.childrenOver item link right).map fun pair => pair.1 ++ [pair.2]).map
        (rowPrice cost)).min? = some (least + least') := by
      have hsum := min?_product (rowPrice cost) (price cost) hrows hchildren
      rw [List.map_map]
      simpa only [Function.comp_def, rowPrice_concat] using hsum
    have hstep := stepCost?_eq hc hfirst hadded
    have hsum : min (first.errorCost + added) maxCost = min (least + least') maxCost := by
      omega
    refine ⟨costs ++ [min (first.errorCost + added) maxCost], ?_, ?_, fun _ hsums => ?_⟩
    · rw [List.map_append, hcosts, List.map_append, List.map_singleton, hstep]
      rfl
    · have hcheapest := congrArg (Option.map (min · maxCost)) hnew
      rw [Option.map_some, ← hsum] at hcheapest
      simp only [Pass.enumerating]
      rw [List.map_append, cheapest_append, min?_append, hmin, List.min?_singleton,
        ← hcheapest, cheapest, cheapest]
    · obtain ⟨row, hrow, hprice⟩ :=
        List.mem_map.mp (List.min?_eq_some_iff.mp hnew).1
      refine ⟨row, List.mem_append_right rows hrow, ?_⟩
      have := hsums id item link first added hitem hlink hfirst hadded
      have := hfits hsums
      have := hexact hsums
      omega
  finish id item rows hitem hlinks hpart := by
    intro item' hitem'
    obtain rfl := Option.some.inj (hitem.symm.trans hitem')
    obtain ⟨costs, hcosts, hmin, hfits⟩ := hpart item hitem
    obtain ⟨costs', hcosts', hmin'⟩ := (hleast id item hitem).2 hlinks
    obtain rfl := List.map_injective_iff.mpr (Option.some_injective _) (hcosts.symm.trans hcosts')
    exact ⟨hmin.symm.trans hmin', hfits hlinks⟩

variable (hwell : WellFounded f.chart.Under)

include hc hleast hwell in
theorem pricedRows_rows {id : ItemId} {item : Item} (hitem : f.item? id = some item) :
    f.PricedRows cost id (f.rows id) :=
  (Pass.run_exact (enumerating_models hc hleast) hc hwell _ [] id item {} hitem (f.room_root id)
    (Pass.remembers_empty _)).1

include hc hleast hwell in
/-- The trees of some items cost at least what the items do, and no more where no sum
is cut off. -/
theorem cheapest_nodes (ids : List ItemId) (hids : ∀ id ∈ ids, ∃ item, f.item? id = some item) :
    cheapest ((ids.flatMap fun id => f.nodesWith id (f.rows id)).map (price cost)) =
      ((ids.filterMap f.item?).map (·.errorCost)).min? := by
  induction ids with
  | nil => rfl
  | cons id ids ih =>
      obtain ⟨item, hitem⟩ := hids id (by simp)
      obtain ⟨hcheapest, -⟩ := pricedRows_rows hc hleast hwell hitem item hitem
      rw [List.flatMap_cons, List.map_append, cheapest_append, map_price_nodesWith hitem,
        hcheapest, ih fun other hother => hids other (by simp [hother]),
        List.filterMap_cons_some hitem, List.map_cons, List.min?_cons]
      cases ((ids.filterMap f.item?).map (·.errorCost)).min? <;> rfl

variable (hitems : ∀ root ∈ f.roots, ∃ item, f.item? root = some item)

include hc hleast hwell hitems in
/-- The cheapest of all trees costs what the cheapest root does. -/
theorem cheapest_everyTree : cheapest (f.everyTree.map (price cost)) = f.minCost :=
  cheapest_nodes hc hleast hwell f.roots hitems

include hc hleast hwell hitems in
theorem min?_everyTree (hroots : f.roots ≠ []) (hsums : f.SumsFit cost) :
    (f.everyTree.map (price cost)).min? = f.minCost := by
  obtain ⟨root, rest, heq⟩ := List.exists_cons_of_ne_nil hroots
  have hroot : root ∈ f.roots := by simp [heq]
  obtain ⟨item, hitem⟩ := hitems root hroot
  obtain ⟨-, hfits⟩ := pricedRows_rows hc hleast hwell hitem item hitem
  obtain ⟨row, hrow, hle⟩ := hfits hsums
  -- one tree is within the greatest cost, and so the cheapest one is
  have htree : rowPrice cost row ∈ f.everyTree.map (price cost) := by
    rw [everyTree, List.map_flatMap]
    refine List.mem_flatMap.mpr ⟨root, hroot, ?_⟩
    rw [map_price_nodesWith hitem]
    exact List.mem_map_of_mem hrow
  have hall := cheapest_everyTree hc hleast hwell hitems
  cases hmin : (f.everyTree.map (price cost)).min? with
  | none =>
      rw [List.min?_eq_none_iff.mp hmin] at htree
      contradiction
  | some least =>
      have hcap := Nat.le_trans ((List.min?_eq_some_iff.mp hmin).2 _ htree) hle
      rw [← hall, cheapest, hmin, Option.map_some, Nat.min_eq_left hcap]

end

end Forest

namespace Parser

/-- Where no grammar symbol derives itself and all corrections have one price, the
cheapest tree of an accepted run costs what is reported, as far as costs go; and just
that where no sum of costs is cut off. -/
theorem accepted_cheapest_tree (d : GrammarDef) (g : Grammar) (hd : d.toGrammar = .ok g)
    (hacyclic : ∀ w ∈ g.warnings, w.kind ≠ .cyclic) (cost : CorrectionCost) (p : Parser)
    (hp : Steady g p) (hcosts : p.costs = .uniform cost) (f : Forest) (hf : p.forest? = some f)
    (limit : Nat) (hlimit : ∀ more, (f.trees more).length ≤ limit) :
    ((f.trees limit).map (ParseTree.price cost)).min?.map (min · maxCost) = p.acceptedCost ∧
      (f.SumsFit cost →
        ((f.trees limit).map (ParseTree.price cost)).min? = p.acceptedCost) := by
  have hg := d.toGrammar_numbered g hd
  have hhealthy := hp.reached.healthy hg
  have htariffed : p.Tariffed cost := hp.tariffed hg
  have hcost : p.acceptedCost = f.minCost := by rw [acceptedCost, hf, Option.bind_some]
  rw [hcost]
  rw [forest?] at hf
  split at hf
  · next haccepted =>
    have hleast := htariffed hcosts (.inr haccepted)
    obtain rfl := Option.some.inj hf
    have hgrammar := hhealthy.grammar_eq
    subst hgrammar
    have hc := hhealthy.valid
    have hwell := Chart.wellFounded_of_warnings hg hacyclic hc
    have hmem := Forest.mem_roots ⟨p.grammar, p.chart⟩ hg hc.filed
    have hroots : Forest.roots ⟨p.grammar, p.chart⟩ ≠ [] := by
      obtain ⟨root, hroot⟩ := (Forest.completed_iff ⟨p.grammar, p.chart⟩ hc.filed).mp
        (hhealthy.complete haccepted)
      exact List.ne_nil_of_mem ((hmem root).mpr hroot)
    have hitems : ∀ root ∈ Forest.roots ⟨p.grammar, p.chart⟩, ∃ item,
        Forest.item? ⟨p.grammar, p.chart⟩ root = some item := by
      intro root hroot
      obtain ⟨item, hitem, -⟩ := (hmem root).mp hroot
      exact ⟨item, hitem⟩
    rw [Forest.trees_eq_everyTree hwell hlimit]
    exact ⟨Forest.cheapest_everyTree hc hleast hwell hitems,
      Forest.min?_everyTree hc hleast hwell hitems hroots⟩
  · contradiction

def tailDef : GrammarDef :=
  (((((GrammarDef.empty.terminal "a").terminal "b").rule "S" ["a", "R"]).rule "R"
    ["b", "R"]).epsilon "R")

def tail : Grammar where
  terminals := [⟨"a", 0⟩, ⟨"b", 1⟩]
  nonterminals := ["S", "R"]
  rules := #[⟨3, [1, 4]⟩, ⟨4, [2, 4]⟩, ⟨4, []⟩]
  start := 3

/-- A run over `a a b`, where the second token may be dropped or read as `b`. -/
def mended : Parser :=
  ((fresh tail ⟨.onFailure, 5, 0, 0, 0, 0⟩ (.uniform ⟨1, 2⟩)).parse
    (TokenStream.ofList [⟨0, "a", .start⟩, ⟨0, "a", .start⟩, ⟨1, "b", .start⟩])).parser

/-- There are two trees, and the run is reported to cost what the cheaper one does. -/
theorem accepted_cheapest_tree_mended : tailDef.toGrammar = .ok tail ∧
    (∀ w ∈ tail.warnings, w.kind ≠ .cyclic) ∧ mended.acceptedCost = some 1 ∧
    ∃ f, mended.forest? = some f ∧ (f.trees 2).map (ParseTree.price ⟨1, 2⟩) = [2, 1] ∧
      ((f.trees 2).map (ParseTree.price ⟨1, 2⟩)).min? = mended.acceptedCost := by
  have hacyclic : ∀ w ∈ tail.warnings, w.kind ≠ .cyclic := by decide +kernel
  have hg := tailDef.toGrammar_numbered tail rfl
  have hsteady : Steady tail mended := .parse (.setCosts (.created _) rfl _) _
  have hbudgeted : Budgeted tail mended := .parse (.setCosts (.created _) _) _
  obtain ⟨hconfig, hcosts⟩ : mended.HasSettings ⟨.onFailure, 5, 0, 0, 0, 0⟩ (.uniform ⟨1, 2⟩) :=
    parse_fresh_hasSettings hg _ _ _
  have hhealthy := hsteady.reached.healthy hg
  obtain ⟨f, hforest, hchart, hlength, hprices⟩ : ∃ f, mended.forest? = some f ∧
      f.chart = mended.chart ∧ f.everyTree.length = 2 ∧
      (f.trees 2).map (ParseTree.price ⟨1, 2⟩) = [2, 1] := by
    refine ⟨_, forest?_of_accepted (by decide +kernel), rfl, ?_, ?_⟩ <;> decide +kernel
  have hwell : WellFounded f.chart.Under := by
    rw [hchart]
    exact Chart.wellFounded_of_warnings hg hacyclic (hhealthy.grammar_eq ▸ hhealthy.valid)
  have hsums : f.SumsFit ⟨1, 2⟩ := by
    have hitems : ∀ id item, f.item? id = some item → item.errorCost ≤ 5 := by
      intro id item hitem
      rw [Forest.item?, hchart] at hitem
      obtain ⟨⟨hcost, -⟩, -⟩ := hbudgeted.allCapped hg id item hitem
      rwa [hconfig] at hcost
    exact Forest.sumsFit_of_cost_le hitems (by decide) (by decide) (by decide)
  have hlimit : ∀ more, (f.trees more).length ≤ 2 := by
    intro more
    rw [Forest.trees_eq_take hwell, ← hlength]
    exact List.length_take_le' more f.everyTree
  obtain ⟨-, hexact⟩ :=
    accepted_cheapest_tree tailDef tail rfl hacyclic ⟨1, 2⟩ mended hsteady hcosts f hforest 2
      hlimit
  have hmin := hexact hsums
  refine ⟨rfl, hacyclic, ?_, f, hforest, hprices, hmin⟩
  rw [← hmin, hprices]
  rfl

end Parser
end EarleyChart
