import EarleyChart.Proofs.Forest.Conformance
import EarleyChart.Proofs.Forest.Presence
import EarleyChart.Proofs.Forest.Roots

/-!
Where no nullable symbol derives itself, every item of a forest is counted and
every completed item has a tree.
-/

namespace EarleyChart

theorem maxCount_pos : 0 < maxCount := by decide

theorem Pass.counting_lives (f : Forest) : Pass.counting.Lives f (0 < ·) where
  right _ _ _ _ _ := rfl
  unit := rfl
  open_start := rfl
  first := by
    intro id item link left right _ _ hleft hright
    simp only [counting, gt_iff_lt, decide_eq_true_eq] at hleft hright
    simp only [counting, Nat.zero_add]
    have := maxCount_pos
    split
    · next hsome =>
        have := Nat.mul_pos hleft (hright hsome)
        omega
    · omega
  add := by
    intro item link left right total hlive
    simp only [counting]
    have := maxCount_pos
    split <;> omega
  finish total hlive := decide_eq_true hlive

theorem length_extendSequences_pos {children : List ParseTree} {room : Nat}
    {sequences : List (List ParseTree)} (hchildren : children ≠ []) (hroom : 0 < room)
    (hsequences : sequences ≠ []) : extendSequences children room sequences ≠ [] := by
  obtain ⟨sequence, rest, rfl⟩ := List.exists_cons_of_ne_nil hsequences
  obtain ⟨child, others, rfl⟩ := List.exists_cons_of_ne_nil hchildren
  obtain ⟨room, rfl⟩ := Nat.exists_eq_succ_of_ne_zero (Nat.ne_of_gt hroom)
  rw [extendSequences]
  split <;> simp

namespace Forest

variable {f : Forest} (hc : f.chart.Valid f.grammar)

include hc in
/-- A step over a token has a child. -/
theorem tokenChild_ne_nil {id : ItemId} {item : Item} (hitem : f.item? id = some item)
    {link : Link} (hlink : link ∈ item.links) (hstep : link.step ≠ .completed) :
    f.tokenChild item link ≠ [] := by
  obtain ⟨left, child, heq, -⟩ := tokenChild_ledBy hc hitem hlink hstep
  rw [heq]
  exact List.cons_ne_nil child []

include hc in
/-- Only a completed item is a right end. -/
theorem right_eq_none {id : ItemId} {item : Item} (hitem : f.item? id = some item) {link : Link}
    (hlink : link ∈ item.links) (hstep : link.step ≠ .completed) : link.right = none := by
  cases (hc.item id item hitem).shape link hlink with
  | completed => exact absurd rfl hstep
  | scanned | substituted | deleted => rfl

include hc in
theorem building_right_eq (limit : Nat) {id : ItemId} {item : Item}
    (hitem : f.item? id = some item) {link : Link} (hlink : link ∈ item.links) :
    (Pass.building f limit).right? link = link.right := by
  simp only [Pass.building]
  split
  · rfl
  · next hstep => rw [right_eq_none hc hitem hlink hstep]

include hc in
theorem building_lives {limit : Nat} (hlimit : 0 < limit) :
    (Pass.building f limit).Lives f fun gathered => gathered.1 ≠ [] where
  right _ _ _ hitem hlink := building_right_eq hc limit hitem hlink
  unit := rfl
  open_start := rfl
  first := by
    intro id item link left right hitem hlink hleft hright
    simp only [Pass.building, Bool.not_eq_true', List.isEmpty_eq_false_iff] at hleft hright
    simp only [Pass.building, List.nil_append, List.length_nil, Nat.sub_zero]
    refine length_extendSequences_pos ?_ hlimit hleft
    split
    · next hstep =>
        cases (hc.item id item hitem).shape link hlink with
        | scanned | substituted | deleted => contradiction
        | completed other last _ next _ hnext =>
            have hnode : f.item? last = some next := hnext
            simpa [nodesWith, hnode] using hright rfl
    · next hstep => exact tokenChild_ne_nil hc hitem hlink hstep
  add item link left right gathered hlive := List.append_ne_nil_of_left_ne_nil hlive _
  finish gathered hlive := by simpa [Pass.building] using hlive

variable (hacyclic : ∀ id, f.chart.Flat id → ¬ Relation.TransGen f.chart.Under id id)

include hc hacyclic in
theorem countDerivations_pos {id : ItemId} {item : Item} (hitem : f.item? id = some item) :
    0 < f.countDerivations id := by
  have hvisited := Pass.run_visited (Pass.counting_lives f) hc hacyclic _ [] id item {} hitem
    (f.room_root id) (by simp)
  rw [countDerivations, DerivationCounter.new, DerivationCounter.count, f.countFrom_eq]
  exact of_decide_eq_true (hvisited.present (by simp))

include hc hacyclic in
theorem nodes_ne_nil {limit : Nat} (hlimit : 0 < limit) {id : ItemId} {item : Item}
    (hitem : f.item? id = some item) : ((TreeBuilder.new f limit).nodes id).1 ≠ [] := by
  have hvisited := Pass.run_visited (building_lives hc hlimit) hc hacyclic _ [] id item {} hitem
    (f.room_root id) (by simp)
  have hpresent := hvisited.present (by simp)
  rw [TreeBuilder.new, f.nodes_eq]
  simpa [nodesWith, hitem, Pass.building] using hpresent

include hc hacyclic in
theorem treesOf_ne_nil {limit : Nat} (hlimit : 0 < limit) {id : ItemId} {item : Item}
    (hitem : f.item? id = some item) : f.treesOf id limit ≠ [] := by
  have := nodes_ne_nil hc hacyclic hlimit hitem
  simp only [treesOf, ne_eq, List.take_eq_nil_iff, not_or]
  exact ⟨Nat.ne_of_gt hlimit, this⟩

include hc hacyclic in
theorem trees_ne_nil {limit : Nat} (hlimit : 0 < limit)
    (hroots : f.roots ≠ []) (hitems : ∀ root ∈ f.roots, ∃ item, f.item? root = some item) :
    f.trees limit ≠ [] := by
  obtain ⟨root, rest, heq⟩ := List.exists_cons_of_ne_nil hroots
  obtain ⟨item, hitem⟩ := hitems root (by simp [heq])
  obtain ⟨limit, rfl⟩ := Nat.exists_eq_succ_of_ne_zero (Nat.ne_of_gt hlimit)
  have hnodes := nodes_ne_nil hc hacyclic hlimit hitem
  rw [trees, heq, TreeBuilder.collect]
  refine List.append_ne_nil_of_left_ne_nil (fun h => ?_) _
  exact (List.take_eq_nil_iff.mp h).elim (Nat.succ_ne_zero limit) hnodes

end Forest
end EarleyChart
