import EarleyChart.Proofs.Forest.Counting
import EarleyChart.Proofs.Forest.Roots

/-!
The trees of the roots. The alternatives of a root are the derivation trees of
the input whose topmost rule is that of the root, no two roots share a rule, and
the builder goes through the roots with what it has built before.
-/

namespace EarleyChart
namespace Forest

def derivations (f : Forest) (tokens : List Token) (root : ItemId) : Set ParseTree :=
  {tree | ∃ item, f.item? root = some item ∧ tree ∈ f.grammar.derivations tokens item.rule}

def derivationsOver (f : Forest) (tokens : List Token) (roots : List ItemId) : Set ParseTree :=
  {tree | ∃ root ∈ roots, tree ∈ f.derivations tokens root}

variable {f : Forest} {tokens : List Token}

theorem derivationsOver_nil : f.derivationsOver tokens [] = ∅ := by
  simp [derivationsOver]

theorem derivationsOver_cons (root : ItemId) (roots : List ItemId) :
    f.derivationsOver tokens (root :: roots) =
      f.derivations tokens root ∪ f.derivationsOver tokens roots := by
  ext tree
  simp [derivationsOver]

section Reading

variable (hg : f.grammar.Numbered) {ceiling : Nat}
  (h : f.chart.Reading f.grammar .none ceiling tokens tokens.length)

include h in
/-- A root's derivation trees apply its rule to its alternatives. -/
theorem derivations_eq {root : ItemId} {item : Item} (hroot : f.IsRoot root item) :
    f.derivations tokens root =
      ParseTree.node item.rule (f.grammar.lhs item.rule) '' f.alternatives tokens root := by
  obtain ⟨hitem, hcolumn, horigin, hstart, hend⟩ := hroot
  obtain ⟨r, hr, hdot⟩ := Grammar.dot_of_end (h.valid.item root item hitem).dot hend
  have hlhs : f.grammar.lhs item.rule = r.lhs := by rw [Grammar.lhs, hr, Option.elim_some]
  have hlast : root.column = tokens.length := hcolumn.trans h.current
  ext tree
  constructor
  · rintro ⟨item', hitem', hderives, htokens, children, rfl⟩
    obtain rfl := Option.some.inj (hitem.symm.trans hitem')
    obtain ⟨-, r', hr', -, hchildren⟩ := hderives
    obtain rfl := Option.some.inj (hr.symm.trans hr')
    refine ⟨children, ⟨item, r, hitem, hr, by rwa [hdot, List.take_length], ?_⟩, rfl⟩
    rw [horigin, hlast, List.drop_zero, List.drop_length, List.append_nil]
    exact htokens.symm
  · rintro ⟨children, ⟨item', r', hitem', hr', hchildren, htokens⟩, rfl⟩
    obtain rfl := Option.some.inj (hitem.symm.trans hitem')
    obtain rfl := Option.some.inj (hr.symm.trans hr')
    rw [hdot, List.take_length] at hchildren
    rw [horigin, hlast, List.drop_zero, List.drop_length, List.append_nil] at htokens
    exact ⟨item, hitem, ⟨hstart, r, hr, hlhs.symm, hchildren⟩, htokens.symm, children, rfl⟩

include h in
/-- No two roots have a derivation tree in common. -/
theorem not_mem_derivations {root other : ItemId} {item item' : Item}
    (hroot : f.IsRoot root item) (hother : f.IsRoot other item') (hne : root ≠ other) :
    ∀ tree ∈ f.derivations tokens root, tree ∉ f.derivations tokens other := by
  rw [derivations_eq h hroot, derivations_eq h hother]
  rintro _ ⟨row, -, rfl⟩ ⟨row', -, heq⟩
  obtain ⟨hrule, -, -⟩ := ParseTree.node.inj heq
  obtain ⟨hitem, hcolumn, horigin, -, hend⟩ := hroot
  obtain ⟨hitem', hcolumn', horigin', -, hend'⟩ := hother
  exact hne (h.valid.completed_unique hitem hitem' hend hend' hrule.symm
    (horigin.trans horigin'.symm) (hcolumn.trans hcolumn'.symm))

include h in
theorem not_mem_derivationsOver {root : ItemId} {item : Item} (hroot : f.IsRoot root item)
    {roots : List ItemId} (hroots : ∀ other ∈ roots, ∃ item, f.IsRoot other item)
    (hnew : root ∉ roots) :
    ∀ tree ∈ f.derivations tokens root, tree ∉ f.derivationsOver tokens roots := by
  rintro tree htree ⟨other, hother, htree'⟩
  obtain ⟨item', hother'⟩ := hroots other hother
  have hne : root ≠ other := fun heq => hnew (heq ▸ hother)
  exact not_mem_derivations h hroot hother' hne tree htree htree'

variable (hwell : WellFounded f.chart.Under)

include hg h hwell in
theorem finite_derivations {root : ItemId} {item : Item} (hroot : f.IsRoot root item) :
    (f.derivations tokens root).Finite := by
  rw [derivations_eq h hroot]
  exact (finite_alternatives hg h hwell root).image _

include hg h hwell in
theorem finite_derivationsOver {roots : List ItemId}
    (hroots : ∀ root ∈ roots, ∃ item, f.IsRoot root item) :
    (f.derivationsOver tokens roots).Finite := by
  induction roots with
  | nil =>
      rw [derivationsOver_nil]
      exact Set.finite_empty
  | cons root roots ih =>
      obtain ⟨item, hroot⟩ := hroots root (by simp)
      rw [derivationsOver_cons]
      exact (finite_derivations hg h hwell hroot).union
        (ih fun other hother => hroots other (by simp [hother]))

include hg h hwell in
theorem ncard_derivationsOver {roots : List ItemId} (hnodup : roots.Nodup)
    (hroots : ∀ root ∈ roots, ∃ item, f.IsRoot root item) :
    (f.derivationsOver tokens roots).ncard =
      (roots.map fun root => (f.derivations tokens root).ncard).sum := by
  induction roots with
  | nil => rw [derivationsOver_nil, Set.ncard_empty, List.map_nil, List.sum_nil]
  | cons root roots ih =>
      obtain ⟨hnew, hrest⟩ := List.nodup_cons.mp hnodup
      obtain ⟨item, hroot⟩ := hroots root (by simp)
      have hothers : ∀ other ∈ roots, ∃ item, f.IsRoot other item :=
        fun other hother => hroots other (by simp [hother])
      rw [derivationsOver_cons, Set.ncard_union_eq
        (Set.disjoint_left.mpr (not_mem_derivationsOver h hroot hothers hnew))
        (finite_derivations hg h hwell hroot) (finite_derivationsOver hg h hwell hothers),
        ih hrest hothers, List.map_cons, List.sum_cons]

include hg h hwell in
theorem countDerivations_root {root : ItemId} {item : Item} (hroot : f.IsRoot root item) :
    f.countDerivations root = min (f.derivations tokens root).ncard maxCount := by
  rw [derivations_eq h hroot, Set.ncard_image_of_injective _ (node_injective _ _),
    countDerivations_eq hg h hwell hroot.1, Nat.min_comm]

include hg h hwell in
/-- What is built for a root, with remembered sequences that are exact. -/
theorem nodes_root {limit : Nat} (hlimit : 0 < limit) {root : ItemId} {item : Item}
    (hroot : f.IsRoot root item) {known : KnownSequences}
    (hknown : Pass.Remembers (fun id sequences =>
      Selection limit sequences (f.alternatives tokens id)) known) :
    ∃ trees known', TreeBuilder.nodes ⟨f, limit, known⟩ root = (trees, ⟨f, limit, known'⟩) ∧
      Selection limit trees (f.derivations tokens root) ∧
      Pass.Remembers (fun id sequences =>
        Selection limit sequences (f.alternatives tokens id)) known' := by
  have hvisit := Pass.run_exact (building_models hg h hwell hlimit) h.valid hwell _
    [] root item known hroot.1 (f.room_root root) hknown
  refine ⟨_, _, f.nodes_eq limit known root, ?_, hvisit.2⟩
  rw [derivations_eq h hroot, nodesWith, hroot.1]
  exact hvisit.1.map (node_injective _ _)

include hg h hwell in
theorem treesOf_root (limit : Nat) {root : ItemId} {item : Item} (hroot : f.IsRoot root item) :
    Selection limit (f.treesOf root limit) (f.derivations tokens root) := by
  rw [treesOf]
  rcases Nat.eq_zero_or_pos limit with rfl | hlimit
  · rw [List.take_zero]
    exact .zero _
  · obtain ⟨trees, known, hnodes, hselection, -⟩ :=
      nodes_root hg h hwell hlimit hroot (Pass.remembers_empty _)
    rw [TreeBuilder.new, hnodes]
    exact hselection.take (Nat.le_refl _)

include hg h hwell in
/-- What is collected over several roots. -/
theorem collect_roots {limit : Nat} {roots : List ItemId} (hnodup : roots.Nodup)
    (hroots : ∀ root ∈ roots, ∃ item, f.IsRoot root item) {room : Nat} (hroom : room ≤ limit)
    {known : KnownSequences} (hknown : Pass.Remembers (fun id sequences =>
      Selection limit sequences (f.alternatives tokens id)) known) :
    Selection room (TreeBuilder.collect ⟨f, limit, known⟩ room roots)
      (f.derivationsOver tokens roots) := by
  induction roots generalizing room known with
  | nil =>
      rw [TreeBuilder.collect, derivationsOver_nil]
      exact .empty room
  | cons root roots ih =>
      cases room with
      | zero =>
          rw [TreeBuilder.collect]
          · exact .zero _
          · simp
      | succ room =>
          obtain ⟨hnew, hrest⟩ := List.nodup_cons.mp hnodup
          obtain ⟨item, hroot⟩ := hroots root (by simp)
          have hothers : ∀ other ∈ roots, ∃ item, f.IsRoot other item :=
            fun other hother => hroots other (by simp [hother])
          obtain ⟨trees, known', hnodes, hselection, hknown'⟩ :=
            nodes_root hg h hwell (Nat.lt_of_lt_of_le (Nat.succ_pos room) hroom) hroot hknown
          rw [TreeBuilder.collect, hnodes, derivationsOver_cons]
          exact (hselection.take hroom).append (finite_derivations hg h hwell hroot)
            (finite_derivationsOver hg h hwell hothers)
            (not_mem_derivationsOver h hroot hothers hnew)
            (ih hrest hothers (by omega) hknown')

end Reading

end Forest
end EarleyChart
