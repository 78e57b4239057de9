import EarleyChart.Proofs.Forest.Exact
import EarleyChart.Proofs.Forest.Lockstep
import EarleyChart.Proofs.Forest.Plain

/-!
One builder for all roots. What it has built for the first roots is as good for
the next as if that were built anew, except for items below both that are below
themselves: their alternatives depend on where they were cut short. Where no two
roots share such an item the trees of a forest are those of its roots in order.
-/

namespace EarleyChart

theorem Pass.building_heeds (f : Forest) (limit : Nat) : (building f limit).Heeds where
  right _ _ := building_right
  add item link left right gathered hright := by
    simp only [building] at hright ⊢
    cases left with
    | nil => simp [extendSequences]
    | cons first rest =>
        have hnone := hright rfl
        by_cases hstep : link.step = .completed
        · rw [if_pos hstep] at hnone
          simp [hnone]
        · simp [hstep]

/-- Taking a number of each part does not change what is taken of all. -/
theorem take_flatMap_take {α β : Type} (parts : List α) (h : α → List β) {room limit : Nat}
    (hroom : room ≤ limit) : (parts.flatMap fun a => (h a).take limit).take room =
      (parts.flatMap h).take room := by
  induction parts generalizing room with
  | nil => rfl
  | cons a parts ih =>
      have hrest : room - min limit (h a).length = room - (h a).length := by omega
      rw [List.flatMap_cons, List.flatMap_cons, List.take_append, List.take_append,
        List.take_take, Nat.min_eq_left hroom, List.length_take, hrest,
        ih (Nat.le_trans (Nat.sub_le _ _) hroom)]

namespace Chart

/-- The links of some items lead to some of these, and to older ones. -/
def Descends (c : Chart) (ids : List ItemId) : Prop :=
  ∀ id ∈ ids, ∀ item ∈ c.item? id, ∀ link ∈ item.links,
    ∀ child ∈ link.left :: link.right.toList, child ∈ ids ∧
      (child.column < id.column ∨ child.column = id.column ∧ child.seq < id.seq)

instance (c : Chart) (ids : List ItemId) : Decidable (c.Descends ids) :=
  inferInstanceAs (Decidable (∀ id ∈ ids, ∀ item ∈ c.item? id, ∀ link ∈ item.links,
    ∀ child ∈ link.left :: link.right.toList, child ∈ ids ∧
      (child.column < id.column ∨ child.column = id.column ∧ child.seq < id.seq)))

theorem Descends.before {c : Chart} {ids : List ItemId} (h : c.Descends ids) {a b : ItemId}
    (hb : b ∈ ids) (hunder : c.Under a b) : a ∈ ids ∧ a.Before b := by
  obtain ⟨item, link, hitem, hlink, hends⟩ := hunder
  refine h b hb item hitem link hlink a ?_
  rcases hends with rfl | hright
  · simp
  · simp [hright]

theorem Descends.founded {c : Chart} {ids : List ItemId} (h : c.Descends ids) {id : ItemId}
    (hid : id ∈ ids) : c.Founded id := by
  have hbelow : ∀ a, Relation.ReflTransGen c.Under a id → a ∈ ids := by
    intro a ha
    induction ha using Relation.ReflTransGen.head_induction_on with
    | refl => exact hid
    | head hunder _ ih => exact (h.before ih hunder).1
  have hbefore : ∀ a b, Relation.TransGen c.Under a b → b ∈ ids → a ∈ ids ∧ a.Before b := by
    intro a b hab hb
    induction hab using Relation.TransGen.head_induction_on with
    | single hunder => exact h.before hb hunder
    | head hunder _ ih =>
        obtain ⟨hin, hfirst⟩ := h.before ih.1 hunder
        have hsecond := ih.2
        refine ⟨hin, ?_⟩
        simp only [ItemId.Before] at hfirst hsecond ⊢
        omega
  intro a ha hcycle
  exact absurd (hbefore a a hcycle (hbelow a ha)).2 (by simp [ItemId.Before])

end Chart

namespace Forest

/-- Two items have nothing below them both that is below itself. -/
def Apart (f : Forest) (a b : ItemId) : Prop :=
  ∀ id, Relation.ReflTransGen f.chart.Under id a → Relation.ReflTransGen f.chart.Under id b →
    ¬ Relation.TransGen f.chart.Under id id

theorem Apart.symm {f : Forest} {a b : ItemId} (h : f.Apart a b) : f.Apart b a :=
  fun id hb ha => h id ha hb

theorem apart_of_founded {f : Forest} {b : ItemId} (h : f.chart.Founded b) (a : ItemId) :
    f.Apart a b :=
  fun id _ hb => h id hb

variable {f : Forest} {limit : Nat}

/-- A table that was filled for some items: what does not depend on it is right,
and all that it holds is below them. -/
structure FilledFor (f : Forest) (limit : Nat) (ids : List ItemId) (known : KnownSequences) :
    Prop where
  settled : Pass.Remembers ((Pass.building f limit).Settled f) known
  below : ∀ (x : ItemId) rows, known[x]? = some rows →
    ∃ id ∈ ids, Relation.ReflTransGen f.chart.Under x id

theorem filledFor_nil : f.FilledFor limit [] {} :=
  ⟨Pass.remembers_empty _, by simp⟩

/-- A builder that has worked for other items gives to an item apart from them what
a new one gives. -/
theorem nodes_apart {ids : List ItemId} {known : KnownSequences}
    (hfilled : f.FilledFor limit ids known) {id : ItemId}
    (hapart : ∀ other ∈ ids, f.Apart other id) :
    ∃ known', TreeBuilder.nodes ⟨f, limit, known⟩ id =
        (((TreeBuilder.new f limit).nodes id).1, ⟨f, limit, known'⟩) ∧
      f.FilledFor limit (id :: ids) known' := by
  have hheeds := Pass.building_heeds f limit
  -- the table of a new builder is empty, and this one has nothing cyclic below the item
  have halike : (Pass.building f limit).Alike f
      (fun x => Relation.ReflTransGen f.chart.Under x id) known {} := by
    refine ⟨hfilled.settled, Pass.remembers_empty _, fun x hx hcyclic => ?_⟩
    cases hrows : known[x]? with
    | none => simp
    | some rows =>
        obtain ⟨other, hother, hbelow⟩ := hfilled.below x rows hrows
        exact absurd (fun y hy => hapart other hother y (hy.trans hbelow) (hy.trans hx)) hcyclic
  obtain ⟨hsame, hafter⟩ := Pass.run_alike hheeds (fun a b hunder hb => .head hunder hb)
    (f.itemCount + 1) [] id known {} .refl (f.room_root id) halike
  have hadds := (Pass.building f limit).run_adds f hheeds.right (f.itemCount + 1) [] id known
  refine ⟨_, ?_, hafter.left, fun x rows hx => ?_⟩
  · simp only [TreeBuilder.new, f.nodes_eq, hsame]
  · rcases hadds.new x rows hx with hold | ⟨-, hbelow⟩
    · obtain ⟨other, hother, hbelow⟩ := hfilled.below x rows hold
      exact ⟨other, List.mem_cons_of_mem id hother, hbelow⟩
    · exact ⟨id, List.mem_cons_self, hbelow⟩

/-- What is collected over items apart from each other is what new builders give to
each of them. -/
theorem collect_apart {roots ids : List ItemId} {known : KnownSequences}
    (hfilled : f.FilledFor limit ids known) (hroots : roots.Pairwise f.Apart)
    (hapart : ∀ other ∈ ids, ∀ root ∈ roots, f.Apart other root) (room : Nat) :
    TreeBuilder.collect ⟨f, limit, known⟩ room roots =
      (roots.flatMap fun root => ((TreeBuilder.new f limit).nodes root).1).take room := by
  induction roots generalizing ids known room with
  | nil => rw [TreeBuilder.collect, List.flatMap_nil, List.take_nil]
  | cons root roots ih =>
      cases room with
      | zero => simp [TreeBuilder.collect]
      | succ room =>
          obtain ⟨hfirst, hrest⟩ := List.pairwise_cons.mp hroots
          obtain ⟨known', hnodes, hfilled'⟩ :=
            nodes_apart hfilled fun other hother => hapart other hother root (by simp)
          have hapart' : ∀ other ∈ root :: ids, ∀ next ∈ roots, f.Apart other next := by
            rintro other (_ | ⟨_, hother⟩) next hnext
            · exact hfirst next hnext
            · exact hapart other hother next (by simp [hnext])
          have hlength : ∀ trees : List ParseTree,
              room + 1 - (trees.take (room + 1)).length = room + 1 - trees.length := by
            intro trees
            rw [List.length_take]
            omega
          rw [TreeBuilder.collect, hnodes, List.flatMap_cons, List.take_append]
          simp only [hlength]
          rw [ih hfilled' hrest hapart']

/-- The trees of a forest whose roots are apart from each other. -/
theorem trees_eq_of_apart (hroots : f.roots.Pairwise f.Apart) (limit : Nat) :
    f.trees limit = (f.roots.flatMap fun root => f.treesOf root limit).take limit := by
  rw [trees, TreeBuilder.new, collect_apart filledFor_nil hroots (by simp)]
  exact (take_flatMap_take _ _ (Nat.le_refl limit)).symm

end Forest

namespace Parser

/-- However a run came about, if it is accepted and no two roots share an item that is
below itself, then the trees of its forest are those of its roots in order. No two
roots do where the grammar is not warned to have a cycle. -/
theorem accepted_trees_of_roots (d : GrammarDef) (g : Grammar) (hd : d.toGrammar = .ok g)
    (p : Parser) (hp : Reached g p) (f : Forest) (hf : p.forest? = some f) :
    ((∀ a ∈ f.roots, ∀ b ∈ f.roots, a ≠ b → f.Apart a b) → ∀ limit,
        f.trees limit = (f.roots.flatMap fun root => f.treesOf root limit).take limit) ∧
      ((∀ w ∈ g.warnings, w.kind ≠ .cyclic) → ∀ limit,
        f.trees limit = (f.roots.flatMap fun root => f.treesOf root limit).take limit) := by
  have hg := d.toGrammar_numbered g hd
  have hhealthy := hp.healthy hg
  rw [forest?] at hf
  split at hf
  · obtain rfl := Option.some.inj hf
    have hgrammar := hhealthy.grammar_eq
    subst hgrammar
    have hc := hhealthy.valid
    have hnodup := Forest.nodup_roots ⟨p.grammar, p.chart⟩ hc.filed
    refine ⟨fun hapart limit => ?_, fun hacyclic limit => ?_⟩
    · exact Forest.trees_eq_of_apart
        (hnodup.imp_of_mem fun ha hb hne => hapart _ ha _ hb hne) limit
    · have hwell := Chart.wellFounded_of_warnings hg hacyclic hc
      exact Forest.trees_eq_of_apart
        (hnodup.imp fun _ id _ _ => hwell.transGen.irrefl.irrefl id) limit
  · contradiction

/-- The completed `B` of the second root was cut short below the first, so that its
last derivation is lost. -/
theorem accepted_trees_of_shared_cycle : crossDef.toGrammar = .ok cross ∧
    ∃ f, crossed.forest? = some f ∧ (f.trees 10).length = 5 ∧
      (f.roots.flatMap fun root => f.treesOf root 10).length = 6 ∧
      f.trees 10 ≠ (f.roots.flatMap fun root => f.treesOf root 10).take 10 := by
  have htrees : (Forest.trees ⟨crossed.grammar, crossed.chart⟩ 10).length = 5 := by
    decide +kernel
  have hall : ((Forest.roots ⟨crossed.grammar, crossed.chart⟩).flatMap fun root =>
      Forest.treesOf ⟨crossed.grammar, crossed.chart⟩ root 10).length = 6 := by
    decide +kernel
  refine ⟨rfl, _, crossed_forest, htrees, hall, fun heq => ?_⟩
  have hlength := congrArg List.length heq
  rw [List.length_take, htrees, hall] at hlength
  exact absurd hlength (by decide)

def besideDef : GrammarDef :=
  (((((GrammarDef.empty.terminal "a").rule "S" ["A"]).rule "S" ["B"]).rule "A"
    ["A"]).rule "A" ["a"]).rule "B" ["a"]

def beside : Grammar where
  terminals := [⟨"a", 0⟩]
  nonterminals := ["S", "A", "B"]
  rules := #[⟨2, [3]⟩, ⟨2, [4]⟩, ⟨3, [3]⟩, ⟨3, [1]⟩, ⟨4, [1]⟩]
  start := 2

def alone : Parser := ((new beside).parse (TokenStream.ofList [⟨0, "a", .start⟩])).parser

def added : Parser :=
  ((new sum).parse (TokenStream.ofList [⟨0, "1", .start⟩, ⟨1, "+", .start⟩,
    ⟨0, "2", .start⟩])).parser

/-- The cycle below the first root takes nothing from the second, below which there
is none; and the trees of a sum are those of its root. -/
theorem accepted_trees_of_roots_beside : besideDef.toGrammar = .ok beside ∧
    (∃ w ∈ beside.warnings, w.kind = .cyclic) ∧
    (∃ f, alone.forest? = some f ∧ f.roots = [⟨1, 2⟩, ⟨1, 4⟩] ∧ (f.trees 3).length = 3 ∧
      f.trees 3 = (f.roots.flatMap fun root => f.treesOf root 3).take 3) ∧
    (∀ w ∈ sum.warnings, w.kind ≠ .cyclic) ∧
    ∃ f, added.forest? = some f ∧
      f.trees 1 = (f.roots.flatMap fun root => f.treesOf root 1).take 1 := by
  obtain ⟨f, hforest, hroots, hlength, hdescends⟩ : ∃ f, alone.forest? = some f ∧
      f.roots = [⟨1, 2⟩, ⟨1, 4⟩] ∧ (f.trees 3).length = 3 ∧
      f.chart.Descends [⟨1, 4⟩, ⟨1, 1⟩, ⟨0, 4⟩, ⟨0, 1⟩] := by
    refine ⟨_, forest?_of_accepted (by decide +kernel), ?_, ?_, ?_⟩ <;> decide +kernel
  obtain ⟨f', hforest'⟩ : ∃ f, added.forest? = some f :=
    ⟨_, forest?_of_accepted (by decide +kernel)⟩
  have hacyclic : ∀ w ∈ sum.warnings, w.kind ≠ .cyclic := by decide +kernel
  have hapart : f.Apart ⟨1, 2⟩ ⟨1, 4⟩ :=
    Forest.apart_of_founded (hdescends.founded (by simp)) _
  refine ⟨rfl, by decide +kernel, ⟨f, hforest, hroots, hlength, ?_⟩, hacyclic, f', hforest',
    (accepted_trees_of_roots sumDef sum rfl added (.parse (.created .standard) _) f'
      hforest').2 hacyclic 1⟩
  refine (accepted_trees_of_roots besideDef beside rfl alone (.parse (.created .standard) _) f
    hforest).1 (fun a ha b hb hne => ?_) 3
  simp only [hroots, List.mem_cons, List.not_mem_nil, or_false] at ha hb
  rcases ha with rfl | rfl <;> rcases hb with rfl | rfl
  · exact absurd rfl hne
  · exact hapart
  · exact hapart.symm
  · exact absurd rfl hne

end Parser
end EarleyChart
