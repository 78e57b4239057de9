import EarleyChart.Proofs.Forest.Sharing

/-!
What a limit cuts off. A builder takes the first of all alternatives at every item,
and in a forest without cycles these come from a builder that has no limit. Its
trees are the first ones of a list that does not depend on the limit.
-/

namespace EarleyChart

/-- The first pairs of a product need only the first members of either list. -/
theorem take_product {α β : Type} (left : List α) (right : List β) {room limit : Nat}
    (hroom : room ≤ limit) :
    (left.take limit ×ˢ right.take limit).take room = (left ×ˢ right).take room := by
  have hright : (left.take limit ×ˢ right.take limit).take room =
      (left.take limit ×ˢ right).take room := by
    have hpart : (fun a => (right.take limit).map (Prod.mk a)) =
        fun a : α => (right.map (Prod.mk a)).take limit :=
      funext fun a => List.map_take
    change (List.flatMap (fun a => (right.take limit).map (Prod.mk a)) _).take room = _
    rw [hpart, take_flatMap_take _ _ hroom]
    rfl
  rw [hright]
  clear hright
  induction left generalizing room limit with
  | nil => rw [List.take_nil]
  | cons a left ih =>
      cases limit with
      | zero =>
          obtain rfl := Nat.le_zero.mp hroom
          rw [List.take_zero, List.take_zero]
      | succ limit =>
          cases right with
          | nil => simp only [List.product_nil]
          | cons b right =>
              rw [List.take_succ_cons, List.product_cons, List.product_cons, List.take_append,
                List.take_append, ih]
              rw [List.length_map, List.length_cons]
              omega

namespace Forest

variable (f : Forest)

def childrenOver (item : Item) (link : Link) (right : List (List ParseTree)) : List ParseTree :=
  if link.step = .completed then link.right.elim [] fun id => f.nodesWith id right
  else f.tokenChild item link

theorem nodesWith_take (id : ItemId) (rows : List (List ParseTree)) (limit : Nat) :
    f.nodesWith id (rows.take limit) = (f.nodesWith id rows).take limit := by
  rw [nodesWith, nodesWith]
  cases f.item? id with
  | none => rw [List.take_nil]
  | some item => exact List.map_take

theorem length_tokenChild (item : Item) (link : Link) : (f.tokenChild item link).length ≤ 1 := by
  rw [tokenChild]
  split
  · rw [List.length_map]
    exact Option.length_toList_le
  · rw [List.length_map]
    exact Option.length_toList_le
  · exact Nat.le_refl 1
  · exact Nat.zero_le 1

theorem childrenOver_take {limit : Nat} (hlimit : 0 < limit) (item : Item) (link : Link)
    (right : List (List ParseTree)) :
    f.childrenOver item link (right.take limit) = (f.childrenOver item link right).take limit := by
  rw [childrenOver, childrenOver]
  split
  · cases link.right with
    | none => rw [Option.elim_none, Option.elim_none, List.take_nil]
    | some id => exact f.nodesWith_take id right limit
  · have := f.length_tokenChild item link
    rw [List.take_of_length_le (by omega)]

end Forest

namespace Pass

def enumerating (f : Forest) : Pass (List (List ParseTree)) (List (List ParseTree)) where
  missing := []
  unit := [[]]
  start := []
  full _ := false
  calls rows := !rows.isEmpty
  right? link := if link.step = .completed then link.right else none
  add item link left right rows :=
    rows ++ (left ×ˢ f.childrenOver item link right).map fun pair => pair.1 ++ [pair.2]
  finish rows := rows

theorem enumerating_heeds (f : Forest) : (enumerating f).Heeds where
  right link other h := by
    simp only [enumerating] at h
    split at h
    · exact h
    · contradiction
  add item link left right rows hright := by
    simp only [enumerating] at hright ⊢
    cases left with
    | nil => rfl
    | cons first rest =>
        have hnone := hright rfl
        by_cases hstep : link.step = .completed
        · rw [if_pos hstep] at hnone
          simp [Forest.childrenOver, hnone]
        · simp [Forest.childrenOver, hstep]

variable (f : Forest) {limit : Nat}

/-- What was gathered under a limit against what is gathered without one. -/
def Cut (limit : Nat) (gathered : List (List ParseTree) × Bool) (rows : List (List ParseTree)) :
    Prop :=
  gathered.1 = rows.take limit ∧ (gathered.2 = true → limit ≤ rows.length)

/-- A link adds the first of what it adds without a limit. -/
theorem cut_add (hlimit : 0 < limit) (item : Item) (link : Link)
    (left right : List (List ParseTree)) {gathered : List (List ParseTree) × Bool}
    {rows : List (List ParseTree)} (h : Cut limit gathered rows) :
    Cut limit
      ((building f limit).add item link (left.take limit) (right.take limit) gathered)
      ((enumerating f).add item link left right rows) := by
  obtain ⟨hrows, -⟩ := h
  have hroom : limit - gathered.1.length = limit - rows.length := by
    rw [hrows, List.length_take]
    omega
  have hadd : (building f limit).add item link (left.take limit) (right.take limit) gathered =
      (gathered.1 ++ extendSequences ((f.childrenOver item link right).take limit)
          (limit - rows.length) (left.take limit),
        decide ((left.take limit).length * ((f.childrenOver item link right).take limit).length >
          limit - rows.length)) := by
    rw [← hroom, ← f.childrenOver_take hlimit]
    rfl
  rw [hadd]
  constructor
  · simp only [enumerating]
    rw [extendSequences_eq, take_product _ _ (Nat.sub_le _ _), hrows, List.take_append,
      List.map_take]
  · intro hfull
    have hmore := of_decide_eq_true hfull
    have hle := Nat.mul_le_mul (List.length_take_le limit left)
      (List.length_take_le limit (f.childrenOver item link right))
    have hle' := Nat.mul_le_mul (List.length_take_le' limit left)
      (List.length_take_le' limit (f.childrenOver item link right))
    simp only [enumerating, List.length_append, List.length_map, List.length_product]
    omega

variable {f}

theorem gather_cut (hlimit : 0 < limit) {value : ItemId → List (List ParseTree)} (item : Item)
    (link : Link) {gathered : List (List ParseTree) × Bool} {rows : List (List ParseTree)}
    (h : Cut limit gathered rows) :
    Cut limit ((building f limit).gather (fun id => (value id).take limit) item gathered link)
      ((enumerating f).gather value item rows link) := by
  have hgrows : ∃ more, (enumerating f).gather value item rows link = rows ++ more := by
    simp only [gather]
    split
    · contradiction
    · split <;> exact ⟨_, rfl⟩
  by_cases hfull : (building f limit).full gathered = true
  · -- the gathering is over, and what comes later is beyond the limit
    obtain ⟨more, hmore⟩ := hgrows
    have hlength := h.2 hfull
    rw [gather, if_pos hfull, hmore]
    refine ⟨?_, fun _ => ?_⟩
    · rw [List.take_append_of_le_length hlength]
      exact h.1
    · rw [List.length_append]
      exact Nat.le_trans hlength (Nat.le_add_right _ _)
  · have hcalls : (building f limit).calls ((value link.left).take limit) =
        (enumerating f).calls (value link.left) := by
      obtain ⟨limit, rfl⟩ := Nat.exists_eq_succ_of_ne_zero (Nat.ne_of_gt hlimit)
      cases value link.left <;> rfl
    have hright : (building f limit).right? link = (enumerating f).right? link := rfl
    have hopen : ¬ (enumerating f).full rows = true := Bool.false_ne_true
    rw [gather, gather, if_neg hfull, if_neg hopen, hcalls, hright]
    cases hvisit : if (enumerating f).calls (value link.left) then (enumerating f).right? link
      else none with
    | none =>
        have hadd := cut_add f hlimit item link (value link.left) [] h
        rwa [List.take_nil] at hadd
    | some right => exact cut_add f hlimit item link (value link.left) (value right) h

/-- Without a table, a limit takes the first rows of every item. -/
theorem plain_take (hlimit : 0 < limit) (depth : Nat) (id : ItemId) :
    (building f limit).plain f depth id = ((enumerating f).plain f depth id).take limit := by
  induction depth generalizing id with
  | zero => rw [plain, plain, building, enumerating, List.take_nil]
  | succ depth ih =>
      rw [plain, plain]
      cases f.item? id with
      | none => rw [building, enumerating, List.take_nil]
      | some item =>
          dsimp only
          split
          · rw [building, enumerating, List.take_of_length_le hlimit]
          · have hcut : ∀ links : List Link, Cut limit
                (links.foldl ((building f limit).gather ((building f limit).plain f depth) item)
                  (building f limit).start)
                (links.foldl ((enumerating f).gather ((enumerating f).plain f depth) item)
                  (enumerating f).start) := by
              intro links
              rw [funext ih]
              induction links using List.reverseRecOn with
              | nil => exact ⟨List.take_nil.symm, by simp [building]⟩
              | append_singleton links link ih =>
                  rw [List.foldl_concat, List.foldl_concat]
                  exact gather_cut hlimit item link ih
            exact (hcut item.links).1

end Pass

namespace Forest

variable {f : Forest}

def rows (f : Forest) (id : ItemId) : List (List ParseTree) :=
  ((Pass.enumerating f).run f (f.itemCount + 1) [] id {}).1

def everyTree (f : Forest) : List ParseTree :=
  f.roots.flatMap fun root => f.nodesWith root (f.rows root)

/-- A new builder gives to an item without cycles below it the first of its rows. -/
theorem nodes_founded {limit : Nat} (hlimit : 0 < limit) {id : ItemId}
    (h : f.chart.Founded id) :
    ((TreeBuilder.new f limit).nodes id).1 = (f.nodesWith id (f.rows id)).take limit := by
  obtain ⟨hbuilt, -⟩ := Pass.run_settled (Pass.building_heeds f limit) _ [] id {}
    (f.room_root id) (Pass.remembers_empty _)
  obtain ⟨hall, -⟩ := Pass.run_settled (Pass.enumerating_heeds f) _ [] id {}
    (f.room_root id) (Pass.remembers_empty _)
  obtain ⟨depth, hdepth⟩ := hbuilt h
  obtain ⟨depth', hdepth'⟩ := hall h
  have hrows : ((Pass.building f limit).run f (f.itemCount + 1) [] id {}).1 =
      (f.rows id).take limit := by
    rw [← hdepth (max depth depth') (Nat.le_max_left _ _), Pass.plain_take hlimit,
      hdepth' _ (Nat.le_max_right _ _), rows]
  simp only [TreeBuilder.new, f.nodes_eq]
  rw [hrows, f.nodesWith_take]

/-- In a forest without cycles the trees within a limit are the first of all trees. -/
theorem trees_eq_take (hwell : WellFounded f.chart.Under) (limit : Nat) :
    f.trees limit = f.everyTree.take limit := by
  have hcyclic : ∀ id, ¬ Relation.TransGen f.chart.Under id id :=
    hwell.transGen.irrefl.irrefl
  have hapart : f.roots.Pairwise f.Apart :=
    List.pairwise_iff_forall_sublist.mpr fun _ id _ _ => hcyclic id
  rw [trees_eq_of_apart hapart]
  rcases Nat.eq_zero_or_pos limit with rfl | hlimit
  · rw [List.take_zero, List.take_zero]
  · have hroots : (fun root => f.treesOf root limit) =
        fun root => (f.nodesWith root (f.rows root)).take limit := by
      funext root
      rw [treesOf, nodes_founded hlimit fun id _ => hcyclic id, List.take_take, Nat.min_self]
    rw [hroots, take_flatMap_take _ _ (Nat.le_refl limit), everyTree]

/-- A limit that is never exceeded leaves nothing out. -/
theorem trees_eq_everyTree (hwell : WellFounded f.chart.Under) {limit : Nat}
    (hlimit : ∀ more, (f.trees more).length ≤ limit) : f.trees limit = f.everyTree := by
  have hlength := hlimit f.everyTree.length
  rw [trees_eq_take hwell, List.take_length] at hlength
  rw [trees_eq_take hwell, List.take_of_length_le hlength]

end Forest
end EarleyChart
