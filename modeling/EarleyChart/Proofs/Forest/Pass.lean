import EarleyChart.Forest.Build
import EarleyChart.Forest.Count
import EarleyChart.Proofs.Chart.Below

/-!
Counting and building walk the links in the same way: the values of finished
items are remembered, an item that is met below itself has none, and the links
of an item are gathered in order. One pass over abstract values does both, and
what holds of such a pass is stated once.
-/

namespace EarleyChart

/-- The values that a pass gives to items and what it gathers from their links.
An item's value is looked up for the right end of a link only where the left
end calls for it. -/
structure Pass (V A : Type) where
  missing : V
  unit : V
  start : A
  full : A → Bool
  calls : V → Bool
  right? : Link → Option ItemId
  add : Item → Link → V → V → A → A
  finish : A → V

namespace Pass

variable {V A : Type} (pass : Pass V A)

def step (visit : ItemId → Std.TreeMap ItemId V → V × Std.TreeMap ItemId V) (item : Item)
    (s : A × Std.TreeMap ItemId V) (link : Link) : A × Std.TreeMap ItemId V :=
  if pass.full s.1 then s
  else
    let left := visit link.left s.2
    match if pass.calls left.1 then pass.right? link else none with
    | some right =>
        let value := visit right left.2
        (pass.add item link left.1 value.1 s.1, value.2)
    | none => (pass.add item link left.1 pass.missing s.1, left.2)

def run (f : Forest) :
    Nat → List ItemId → ItemId → Std.TreeMap ItemId V → V × Std.TreeMap ItemId V
  | 0, _, _, known => (pass.missing, known)
  | depth + 1, above, id, known =>
      match known[id]? with
      | some value => (value, known)
      | none =>
          match f.item? id with
          | none => (pass.missing, known)
          | some item =>
              if item.isPredicted then (pass.unit, known)
              else if above.contains id then (pass.missing, known)
              else
                let gathered := item.links.foldl (pass.step (run f depth (id :: above)) item)
                  (pass.start, known)
                (pass.finish gathered.1, gathered.2.insert id (pass.finish gathered.1))

/-- A step does nothing once the gathering is over. It visits the left end, and
the right end where there is one that the left end calls for. -/
theorem step_cases (visit : ItemId → Std.TreeMap ItemId V → V × Std.TreeMap ItemId V)
    (item : Item) (s : A × Std.TreeMap ItemId V) (link : Link) :
    (pass.full s.1 = true ∧ pass.step visit item s link = s) ∨
      pass.full s.1 = false ∧
        (((pass.calls (visit link.left s.2).1 = true → pass.right? link = none) ∧
          pass.step visit item s link =
            (pass.add item link (visit link.left s.2).1 pass.missing s.1,
              (visit link.left s.2).2)) ∨
        ∃ right, pass.calls (visit link.left s.2).1 = true ∧ pass.right? link = some right ∧
          pass.step visit item s link =
            (pass.add item link (visit link.left s.2).1
              (visit right (visit link.left s.2).2).1 s.1,
              (visit right (visit link.left s.2).2).2)) := by
  simp only [step]
  cases hfull : pass.full s.1 with
  | true => exact .inl ⟨rfl, if_pos rfl⟩
  | false =>
      refine .inr ⟨rfl, ?_⟩
      cases hcalls : pass.calls (visit link.left s.2).1 with
      | false => exact .inl ⟨by simp, rfl⟩
      | true =>
          cases hright : pass.right? link with
          | none => exact .inl ⟨fun _ => rfl, rfl⟩
          | some right => exact .inr ⟨right, rfl, rfl, rfl⟩

def counting : Pass Nat Nat where
  missing := 0
  unit := 1
  start := 0
  full _ := false
  calls n := decide (n > 0)
  right? link := link.right
  add _ link left right total :=
    if link.right.isSome then min (total + min (left * right) maxCount) maxCount
    else min (total + left) maxCount
  finish total := total

def building (f : Forest) (limit : Nat) :
    Pass (List (List ParseTree)) (List (List ParseTree) × Bool) where
  missing := []
  unit := [[]]
  start := ([], false)
  full := Prod.snd
  calls sequences := !sequences.isEmpty
  right? link := if link.step = .completed then link.right else none
  add item link left right gathered :=
    let children :=
      if link.step = .completed then link.right.elim [] fun id => f.nodesWith id right
      else f.tokenChild item link
    (gathered.1 ++ extendSequences children (limit - gathered.1.length) left,
      decide (left.length * children.length > limit - gathered.1.length))
  finish := Prod.fst

/-- The right end of a link that a building pass visits. -/
theorem building_right {f : Forest} {limit : Nat} {link : Link} {other : ItemId}
    (h : (building f limit).right? link = some other) : link.right = some other := by
  simp only [building] at h
  split at h
  · exact h
  · contradiction

end Pass

namespace Forest

variable (f : Forest)

theorem countFrom_eq (depth : Nat) (above : List ItemId) (id : ItemId)
    (known : Std.TreeMap ItemId Nat) :
    f.countFrom depth above id known = Pass.counting.run f depth above id known := by
  induction depth generalizing above id known with
  | zero => rfl
  | succ depth ih =>
      rw [countFrom, Pass.run]
      cases known[id]? with
      | some n => rfl
      | none =>
          cases f.item? id with
          | none => rfl
          | some item =>
              dsimp only
              split
              · rfl
              split
              · rfl
              refine congrArg (fun s : Nat × Std.TreeMap ItemId Nat => (s.1, s.2.insert id s.1)) ?_
              refine congrArg (List.foldl · (0, known) item.links) ?_
              funext ⟨total, known⟩ link
              simp only [ih, Pass.step]
              generalize Pass.counting.run f depth (id :: above) = visit
              simp only [Pass.counting, Bool.false_eq_true, if_false, decide_eq_true_eq]
              cases link.right with
              | none => simp
              | some right =>
                  by_cases hleft : (visit link.left known).1 > 0
                  · simp [hleft]
                  · have hzero : (visit link.left known).1 = 0 := by omega
                    simp [hzero]

theorem sequencesFrom_eq (limit depth : Nat) (above : List ItemId) (id : ItemId)
    (known : KnownSequences) : f.sequencesFrom limit depth above id known =
      (Pass.building f limit).run f depth above id known := by
  induction depth generalizing above id known with
  | zero => rfl
  | succ depth ih =>
      rw [sequencesFrom, Pass.run]
      cases known[id]? with
      | some n => rfl
      | none =>
          cases f.item? id with
          | none => rfl
          | some item =>
              dsimp only
              split
              · rfl
              split
              · rfl
              let join (s : (List (List ParseTree) × Bool) × KnownSequences) : Gathered :=
                ⟨s.1.1, s.1.2, s.2⟩
              refine congrArg (fun g : Gathered => (g.found, g.known.insert id g.found))
                (@List.foldl_hom _ _ _ join
                  ((Pass.building f limit).step
                    ((Pass.building f limit).run f depth (id :: above)) item)
                  _ item.links (([], false), known) ?_)
              rintro ⟨⟨found, full⟩, known⟩ link
              simp only [ih, Pass.step]
              generalize (Pass.building f limit).run f depth (id :: above) = visit
              cases full with
              | true => simp [join, Pass.building]
              | false =>
                  cases hleft : (visit link.left known).1 with
                  | nil => simp [join, Pass.building, extendSequences]
                  | cons first rest =>
                      cases hstep : link.step <;> cases hright : link.right <;>
                        simp [join, Pass.building, hstep, hright, Gathered.add]

/-- The nodes of an item, by the pass that builds them. -/
theorem nodes_eq (limit : Nat) (known : KnownSequences) (id : ItemId) :
    TreeBuilder.nodes ⟨f, limit, known⟩ id =
      let visit := (Pass.building f limit).run f (f.itemCount + 1) [] id known
      (f.nodesWith id visit.1, ⟨f, limit, visit.2⟩) := by
  rw [TreeBuilder.nodes, f.sequencesFrom_eq]

/-- Positions of items, as many as the forest has. -/
theorem length_le_itemCount (ids : List ItemId) (hnodup : ids.Nodup)
    (hids : ∀ id ∈ ids, (f.item? id).isSome = true) : ids.length ≤ f.itemCount := by
  let all := f.chart.columns.toList.zipIdx.flatMap fun pair =>
    (List.range pair.1.size).map (ItemId.mk pair.2)
  have hlength : all.length = f.itemCount := by
    have hsum : f.itemCount =
        ((f.chart.columns.toList.zipIdx.map Prod.fst).map Column.size).sum := by
      rw [List.zipIdx_map_fst, List.sum, List.foldr_map, itemCount]
    rw [hsum, List.map_map]
    simp only [all, List.length_flatMap, List.length_map, List.length_range]
    rfl
  rw [← hlength]
  refine (hnodup.subperm fun id hid => ?_).length_le
  obtain ⟨item, hitem⟩ := Option.isSome_iff_exists.mp (hids id hid)
  obtain ⟨column, hcolumn, hget⟩ := Option.bind_eq_some_iff.mp hitem
  obtain ⟨slot, hslot, -⟩ := Option.bind_eq_some_iff.mp hget
  refine List.mem_flatMap.mpr ⟨(column, id.column), ?_, List.mem_map.mpr ⟨id.seq, ?_, rfl⟩⟩
  · simpa [List.mk_mem_zipIdx_iff_getElem?] using hcolumn
  · exact List.mem_range.mpr (Array.getElem?_eq_some_iff.mp hslot).1

/-- A visit to an item below others, with a depth that is enough for it. -/
structure Room (depth : Nat) (above : List ItemId) (id : ItemId) : Prop where
  nodup : above.Nodup
  present : ∀ a ∈ above, (f.item? a).isSome = true
  length : f.itemCount < depth + above.length
  under : ∀ a ∈ above, Relation.TransGen f.chart.Under id a

theorem room_root (id : ItemId) : f.Room (f.itemCount + 1) [] id :=
  ⟨.nil, by simp, Nat.lt_succ_self _, by simp⟩

variable {f} {depth : Nat} {above : List ItemId} {id : ItemId}

theorem Room.pos (h : f.Room depth above id) : 0 < depth := by
  have := f.length_le_itemCount above h.nodup h.present
  have := h.length
  omega

theorem Room.below (h : f.Room (depth + 1) above id) {item : Item}
    (hitem : f.item? id = some item) (hid : id ∉ above) {child : ItemId}
    (hchild : f.chart.Under child id) : f.Room depth (id :: above) child where
  nodup := List.nodup_cons.mpr ⟨hid, h.nodup⟩
  present := by
    rintro a (_ | ⟨_, ha⟩)
    · rw [hitem, Option.isSome_some]
    · exact h.present a ha
  length := by
    have := h.length
    rw [List.length_cons]
    omega
  under := by
    rintro a (_ | ⟨_, ha⟩)
    · exact .single hchild
    · exact .head hchild (h.under a ha)

end Forest
end EarleyChart
