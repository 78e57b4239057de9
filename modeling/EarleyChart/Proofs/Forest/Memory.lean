import EarleyChart.Proofs.Forest.Pass

/-!
What a pass remembers. A visit only adds to the table: what was known stays, the
items above are left as they were, and all that is new belongs to items below.
Visits one after another share the table.
-/

namespace EarleyChart
namespace Pass

variable {V A : Type}

/-- What a visit to an item below others may do to the table. -/
structure Adds (f : Forest) (above : List ItemId) (id : ItemId)
    (known after : Std.TreeMap ItemId V) : Prop where
  kept : ∀ (x : ItemId) v, known[x]? = some v → after[x]? = some v
  above : ∀ x ∈ above, after[x]? = known[x]?
  new : ∀ (x : ItemId) v, after[x]? = some v → known[x]? = some v ∨
    (f.item? x).isSome = true ∧ Relation.ReflTransGen f.chart.Under x id

namespace Adds

variable {f : Forest} {above : List ItemId} {id : ItemId} {known mid after : Std.TreeMap ItemId V}

theorem refl (f : Forest) (above : List ItemId) (id : ItemId) (known : Std.TreeMap ItemId V) :
    Adds f above id known known :=
  ⟨fun _ _ h => h, fun _ _ => rfl, fun _ _ h => .inl h⟩

theorem trans (h : Adds f above id known mid) (k : Adds f above id mid after) :
    Adds f above id known after where
  kept x v hx := k.kept x v (h.kept x v hx)
  above x hx := (k.above x hx).trans (h.above x hx)
  new x v hx := by
    rcases k.new x v hx with hmid | hnew
    · exact h.new x v hmid
    · exact .inr hnew

/-- What is below a child is below the item. -/
theorem of_child {child : ItemId} (hunder : f.chart.Under child id)
    (h : Adds f above child known after) : Adds f above id known after where
  kept := h.kept
  above := h.above
  new x v hx := (h.new x v hx).imp_right fun hnew => ⟨hnew.1, hnew.2.tail hunder⟩

/-- What is not below the item is left as it was. -/
theorem unchanged (h : Adds f above id known after) {x : ItemId}
    (hx : ¬ Relation.ReflTransGen f.chart.Under x id) : after[x]? = known[x]? := by
  cases hafter : after[x]? with
  | some v =>
      rcases h.new x v hafter with hold | ⟨-, hbelow⟩
      · exact hold.symm
      · exact absurd hbelow hx
  | none =>
      cases hknown : known[x]? with
      | none => rfl
      | some v =>
          rw [h.kept x v hknown] at hafter
          contradiction

/-- The visits below an item leave its own value alone, so that nothing is lost
when it is added. -/
theorem kept_insert (h : Adds f (id :: above) id known after) (hknown : known[id]? = none)
    (value : V) (x : ItemId) (v : V) (hx : after[x]? = some v) :
    (after.insert id value)[x]? = some v := by
  have hne : id ≠ x := by
    rintro rfl
    rw [h.above id (by simp), hknown] at hx
    contradiction
  rw [Std.TreeMap.getElem?_insert, if_neg (by simpa using hne)]
  exact hx

theorem insert (h : Adds f (id :: above) id known after) (hitem : (f.item? id).isSome = true)
    (hid : id ∉ above) (hknown : known[id]? = none) (value : V) :
    Adds f above id known (after.insert id value) := by
  have hother : ∀ x, x ≠ id → (after.insert id value)[x]? = after[x]? := by
    intro x hx
    rw [Std.TreeMap.getElem?_insert, if_neg]
    exact fun hsame => hx (Std.compare_eq_iff_eq.mp hsame).symm
  refine ⟨fun x v hx => h.kept_insert hknown value x v (h.kept x v hx), fun x hx => ?_,
    fun x v hx => ?_⟩
  · rw [hother x fun heq => hid (heq ▸ hx)]
    exact h.above x (List.mem_cons_of_mem id hx)
  · by_cases hne : x = id
    · exact .inr ⟨hne ▸ hitem, hne ▸ .refl⟩
    · rw [hother x hne] at hx
      exact h.new x v hx

end Adds

section run

variable (pass : Pass V A) (f : Forest)
  (hright : ∀ link other, pass.right? link = some other → link.right = some other)

section fold

variable {pass f} {above : List ItemId} {id : ItemId} {item : Item}
  (hitem : f.item? id = some item)
  {visit : ItemId → Std.TreeMap ItemId V → V × Std.TreeMap ItemId V}
  (hvisit : ∀ child known, Adds f above child known (visit child known).2)

include hright hitem hvisit in
theorem step_adds {link : Link} (hlink : link ∈ item.links) (s : A × Std.TreeMap ItemId V) :
    Adds f above id s.2 (pass.step visit item s link).2 := by
  have hunder : f.chart.Under link.left id := ⟨item, link, hitem, hlink, .inl rfl⟩
  have hleft := (hvisit link.left s.2).of_child hunder
  rcases pass.step_cases visit item s link with
    ⟨-, hstep⟩ | ⟨-, ⟨-, hstep⟩ | ⟨right, -, hother, hstep⟩⟩
  · rw [hstep]
    exact .refl f above id s.2
  · rw [hstep]
    exact hleft
  · rw [hstep]
    exact hleft.trans ((hvisit right _).of_child
      ⟨item, link, hitem, hlink, .inr (hright link right hother)⟩)

include hright hitem hvisit in
theorem foldl_adds (links : List Link) (hlinks : ∀ link ∈ links, link ∈ item.links)
    (s : A × Std.TreeMap ItemId V) :
    Adds f above id s.2 (links.foldl (pass.step visit item) s).2 := by
  induction links generalizing s with
  | nil => exact .refl f above id s.2
  | cons link links ih =>
      rw [List.foldl_cons]
      exact (step_adds hright hitem hvisit (hlinks link (by simp)) s).trans
        (ih (fun other hother => hlinks other (by simp [hother])) _)

end fold

include hright in
theorem run_adds (depth : Nat) (above : List ItemId) (id : ItemId)
    (known : Std.TreeMap ItemId V) :
    Adds f above id known (pass.run f depth above id known).2 := by
  induction depth generalizing above id known with
  | zero => exact .refl f above id known
  | succ depth ih =>
      rw [run]
      cases hknown : known[id]? with
      | some value => exact .refl f above id known
      | none =>
          cases hitem : f.item? id with
          | none => exact .refl f above id known
          | some item =>
              dsimp only
              split
              · exact .refl f above id known
              split
              · exact .refl f above id known
              next hid =>
              refine Adds.insert ?_ (by rw [hitem, Option.isSome_some])
                (by rwa [List.contains_iff_mem] at hid) hknown _
              exact foldl_adds hright hitem (fun child known => ih (id :: above) child known)
                item.links (fun _ hlink => hlink) (pass.start, known)

def runAll : List ItemId → Std.TreeMap ItemId V → List V × Std.TreeMap ItemId V
  | [], known => ([], known)
  | id :: ids, known =>
      let first := pass.run f (f.itemCount + 1) [] id known
      let others := runAll ids first.2
      (first.1 :: others.1, others.2)

include hright in
/-- What is known stays known over the visits that follow. -/
theorem runAll_kept (ids : List ItemId) (known : Std.TreeMap ItemId V) (x : ItemId) (v : V)
    (hx : known[x]? = some v) : (pass.runAll f ids known).2[x]? = some v := by
  induction ids generalizing known with
  | nil => exact hx
  | cons id ids ih => exact ih _ ((pass.run_adds f hright _ [] id known).kept x v hx)

end run

end Pass

namespace Forest

variable (f : Forest)

theorem countAll_eq (ids : List ItemId) (known : Std.TreeMap ItemId Nat) :
    DerivationCounter.countAll ⟨f, known⟩ ids = (Pass.counting.runAll f ids known).1 := by
  induction ids generalizing known with
  | nil => rfl
  | cons id ids ih =>
      rw [DerivationCounter.countAll, DerivationCounter.count, f.countFrom_eq]
      exact congrArg (List.cons _) (ih _)

/-- The nodes of several items, by the pass that builds them. -/
theorem nodesOfAll_eq (limit : Nat) (ids : List ItemId) (known : KnownSequences) :
    TreeBuilder.nodesOfAll ⟨f, limit, known⟩ ids =
      List.zipWith f.nodesWith ids ((Pass.building f limit).runAll f ids known).1 := by
  induction ids generalizing known with
  | nil => rfl
  | cons id ids ih =>
      rw [TreeBuilder.nodesOfAll, f.nodes_eq]
      exact congrArg (List.cons _) (ih _)

end Forest
end EarleyChart
