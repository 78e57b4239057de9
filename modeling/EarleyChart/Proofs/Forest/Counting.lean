import EarleyChart.Proofs.Forest.Exactness
import EarleyChart.Proofs.Forest.Selection
import EarleyChart.Proofs.Forest.Tally

/-!
Counting and building are exact in a forest without cycles. The count of an item
is the number of its alternatives, as far as counts go, and the sequences that
are built for it are as many of its alternatives as the limit allows.
-/

namespace EarleyChart
namespace Forest

variable {f : Forest} {tokens : List Token} (hg : f.grammar.Numbered) {ceiling : Nat}
  (h : f.chart.Reading f.grammar .none ceiling tokens tokens.length)
  (hwell : WellFounded f.chart.Under)

include hg h hwell in
theorem counting_models : Pass.counting.Models f
    (fun id n => n = min maxCount (f.alternatives tokens id).ncard)
    (fun id links total => ∀ item, f.item? id = some item →
      total = min maxCount (f.gained tokens item links).ncard) where
  right _ _ hright := hright
  unit id item hitem hlinks := by
    rw [alternatives_of_seed h.valid hitem hlinks, Set.ncard_singleton]
    rfl
  start id item hitem item' hitem' := by
    rw [gained_nil, Set.ncard_empty]
    rfl
  full _ _ _ _ _ _ _ _ _ hfull := by simp [Pass.counting] at hfull
  add id item before link after left right total hitem hlinks hpart _ hleft hright := by
    intro item' hitem'
    obtain rfl := Option.some.inj (hitem.symm.trans hitem')
    rw [ncard_gained_concat hg h hwell hitem hlinks]
    have hsum : ∀ product gain, product = min maxCount gain →
        min (total + product) maxCount =
          min maxCount ((f.gained tokens item before).ncard + gain) := by
      have := hpart item hitem
      omega
    simp only [Pass.counting]
    have hlink : link ∈ item.links := by simp [hlinks]
    cases takes h hitem hlink with
    | scanned other last terminal token _ _ _ _ _ _ hone =>
        rw [children_scanned rfl hone, Set.ncard_singleton, Nat.mul_one]
        exact hsum left _ hleft
    | completed other last _ next _ hnext =>
        rw [children_completed rfl hnext, Set.ncard_image_of_injective _ (node_injective _ _)]
        refine hsum _ _ ?_
        change left = min maxCount (f.alternatives tokens other).ncard at hleft
        rw [Nat.min_comm, ← min_mul_min (Nat.le_refl maxCount) (f.alternatives tokens other).ncard,
          ← hleft]
        -- the right end is visited only where the left end has alternatives
        rcases Nat.eq_zero_or_pos left with hzero | hpos
        · rw [hzero, Nat.zero_mul, Nat.zero_mul]
        · rw [hright last (decide_eq_true hpos) rfl]
  finish id item total hitem hlinks hpart := by
    rw [← gained_links hg h hitem hlinks]
    exact hpart item hitem

include hg h hwell in
/-- The count of an item is the number of its alternatives, as far as counts go. -/
theorem countDerivations_eq {id : ItemId} {item : Item} (hitem : f.item? id = some item) :
    f.countDerivations id = min maxCount (f.alternatives tokens id).ncard := by
  rw [countDerivations, DerivationCounter.new, DerivationCounter.count, f.countFrom_eq]
  exact (Pass.run_exact (counting_models hg h hwell) h.valid hwell _ [] id item {} hitem
    (f.room_root id) (Pass.remembers_empty _)).1

theorem length_extendSequences (children : List ParseTree) (room : Nat)
    (sequences : List (List ParseTree)) : (extendSequences children room sequences).length =
      min room (sequences.length * children.length) := by
  rw [extendSequences_eq, List.length_map, List.length_take, List.length_product]

/-- Sequences of a left end, extended by children, are what comes through a link. -/
theorem selection_through {limit room : Nat} (hlimit : 0 < limit) (hroom : room ≤ limit)
    {item : Item} {link : Link} {left : List (List ParseTree)} {children : List ParseTree}
    (hleft : Selection limit left (f.alternatives tokens link.left))
    (hchildren : left ≠ [] → Selection limit children (f.children tokens item link)) :
    Selection room (extendSequences children room left) (f.through tokens item link) := by
  rw [extendSequences_eq, through_eq_image]
  refine Selection.map concat_injective ?_
  by_cases hempty : left = []
  · subst hempty
    have hzero : (f.alternatives tokens link.left).ncard = 0 := by
      have := hleft.length
      rw [List.length_nil] at this
      omega
    rw [List.nil_product, List.take_nil]
    exact ⟨.nil, by simp, by simp [Set.ncard_prod, hzero]⟩
  · exact hleft.product hroom (hchildren hempty)

include hg h hwell in
theorem building_models {limit : Nat} (hlimit : 0 < limit) : (Pass.building f limit).Models f
    (fun id sequences => Selection limit sequences (f.alternatives tokens id))
    (fun id links gathered => ∀ item, f.item? id = some item →
      Selection limit gathered.1 (f.gained tokens item links) ∧
        (gathered.2 = true → limit ≤ gathered.1.length)) where
  right _ _ hright := Pass.building_right hright
  unit id item hitem hlinks := by
    rw [alternatives_of_seed h.valid hitem hlinks]
    exact .singleton hlimit []
  start id item hitem item' hitem' := by
    rw [gained_nil]
    exact ⟨.empty limit, by simp [Pass.building]⟩
  full id item before link after gathered hitem hlinks hpart hfull item' hitem' := by
    obtain rfl := Option.some.inj (hitem.symm.trans hitem')
    obtain ⟨hselection, hlength⟩ := hpart item hitem
    refine ⟨hselection.grow (finite_gained hg h hwell hitem (by simp [hlinks])) ?_
      (hlength hfull), hlength⟩
    rw [gained_concat]
    exact Set.subset_union_left
  add id item before link after left right gathered hitem hlinks hpart _ hleft hright := by
    intro item' hitem'
    obtain rfl := Option.some.inj (hitem.symm.trans hitem')
    obtain ⟨hselection, -⟩ := hpart item hitem
    have hlink : link ∈ item.links := by simp [hlinks]
    have hsubset : before ++ [link] ⊆ item.links := by simp [hlinks]
    have hfinite := finite_gained hg h hwell hitem hsubset
    rw [gained_concat] at hfinite ⊢
    simp only [Pass.building]
    constructor
    · refine hselection.append (hfinite.subset Set.subset_union_left)
        (hfinite.subset Set.subset_union_right) (not_mem_through h hitem hlinks)
        (selection_through hlimit (Nat.sub_le _ _) hleft fun hnonempty => ?_)
      cases takes h hitem hlink with
      | scanned other last terminal token _ _ _ _ _ _ hone =>
          rw [children_scanned rfl hone, if_neg (by simp), hone]
          exact .singleton hlimit _
      | completed other last _ next _ hnext =>
          have hvalue := hright last (by simpa [Pass.building] using hnonempty) rfl
          rw [children_completed rfl hnext, if_pos rfl, Option.elim_some, nodesWith, hnext]
          exact hvalue.map (node_injective _ _)
    · intro hfull
      have hmore := of_decide_eq_true hfull
      rw [List.length_append, length_extendSequences]
      omega
  finish id item gathered hitem hlinks hpart := by
    rw [← gained_links hg h hitem hlinks]
    exact (hpart item hitem).1

end Forest
end EarleyChart
