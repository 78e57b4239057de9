import EarleyChart.Proofs.Forest.Accepted
import EarleyChart.Proofs.Forest.Exactness
import EarleyChart.Proofs.Forest.Selection

/-!
The trees of an accepted run. Whatever corrections, cycles and limits do to a
building pass, each tree that it finds is a corrected parse of the whole input.
-/

namespace EarleyChart

theorem mem_extendSequences {children : List ParseTree} {room : Nat}
    {sequences : List (List ParseTree)} {row : List ParseTree}
    (h : row ∈ extendSequences children room sequences) :
    ∃ front ∈ sequences, ∃ last ∈ children, row = front ++ [last] := by
  rw [extendSequences_eq] at h
  obtain ⟨⟨front, last⟩, hpair, rfl⟩ := List.mem_map.mp h
  obtain ⟨hfront, hlast⟩ := List.pair_mem_product.mp (List.mem_of_mem_take hpair)
  exact ⟨front, hfront, last, hlast, rfl⟩

namespace Forest

/-- A corrected parse of the whole input. -/
structure Parses (f : Forest) (tree : ParseTree) : Prop where
  root : ∃ rule children, tree = .node rule f.grammar.start children
  conforms : tree.Conforms f.grammar
  read : tree.tokens.map some = f.opening.drop 1

variable {f : Forest}

def Sound (f : Forest) (id : ItemId) (rows : List (List ParseTree)) : Prop :=
  ∀ row ∈ rows, row ∈ f.corrected id

section build

variable (hc : f.chart.Valid f.grammar)

include hc in
/-- The children over a link lead from its left end to its item. -/
theorem children_ledBy {id : ItemId} {item : Item} (hitem : f.item? id = some item) {link : Link}
    (hlink : link ∈ item.links) {right : List (List ParseTree)}
    (hright : ∀ other, link.step = .completed → link.right = some other → f.Sound other right)
    {child : ParseTree} (hchild : child ∈
      if link.step = .completed then link.right.elim [] fun other => f.nodesWith other right
      else f.tokenChild item link) :
    ∃ left, f.LedBy id item link.left left child := by
  by_cases hstep : link.step = .completed
  · rw [if_pos hstep] at hchild
    cases (hc.item id item hitem).shape link hlink with
    | scanned | substituted | deleted => contradiction
    | completed other last left next hleft hnext hmeet hlast hkey hsymbol hend =>
        have hnode : f.item? last = some next := hnext
        simp only [Option.elim_some, nodesWith, hnode, List.mem_map] at hchild
        obtain ⟨inner, hinner, rfl⟩ := hchild
        exact ⟨left, node_ledBy hleft hnode hmeet hlast hkey hsymbol hend
          (hright last rfl rfl inner hinner)⟩
  · rw [if_neg hstep] at hchild
    obtain ⟨left, only, heq, hled⟩ := tokenChild_ledBy hc hitem hlink hstep
    rw [heq, List.mem_singleton] at hchild
    exact ⟨left, hchild ▸ hled⟩

include hc in
theorem building_sound (limit : Nat) :
    (Pass.building f limit).Models f f.Sound fun id _ gathered => f.Sound id gathered.1 where
  right _ _ hright := Pass.building_right hright
  unit id item hitem hlinks row hrow := by
    rw [List.mem_singleton.mp hrow]
    exact nil_mem_corrected hitem (hc.item id item hitem) hlinks
  start id item _ row hrow := by
    contradiction
  full id item before link after gathered _ _ hpart _ := hpart
  add id item before link after left right gathered hitem hlinks hpart _ hleft hright := by
    intro row hrow
    rcases List.mem_append.mp hrow with hold | hnew
    · exact hpart row hold
    · obtain ⟨front, hfront, child, hchild, rfl⟩ := mem_extendSequences hnew
      -- the left end has a row, so that the right end was visited
      have hcalls : (Pass.building f limit).calls left = true := by
        simpa [Pass.building] using List.ne_nil_of_mem hfront
      obtain ⟨next, hled⟩ := children_ledBy hc hitem (by simp [hlinks])
        (fun other hstep hother => hright other hcalls
          (by simp [Pass.building, hstep, hother])) hchild
      exact hled.concat hitem (hleft front hfront)
  finish id item gathered _ _ hpart := hpart

include hc in
/-- What is built for a root, with remembered rows that are sound. -/
theorem nodes_sound {limit : Nat} {root : ItemId} {item : Item} (hroot : f.IsRoot root item)
    {known : KnownSequences} (hknown : Pass.Remembers f.Sound known) :
    ∃ trees known', TreeBuilder.nodes ⟨f, limit, known⟩ root = (trees, ⟨f, limit, known'⟩) ∧
      (∀ tree ∈ trees, f.Parses tree) ∧ Pass.Remembers f.Sound known' := by
  have hvisit := Pass.run_sound (building_sound hc limit) (fun id row hrow => by contradiction)
    (f.itemCount + 1) [] root known hknown
  refine ⟨_, _, f.nodes_eq limit known root, ?_, hvisit.2⟩
  intro tree htree
  obtain ⟨hitem, hcolumn, horigin, hstart, hend⟩ := hroot
  simp only [nodesWith, hitem, List.mem_map] at htree
  obtain ⟨row, hrow, rfl⟩ := htree
  have hmem : row ∈ f.corrected root := hvisit.1 row hrow
  refine ⟨⟨item.rule, row, by rw [hstart]⟩, conforms_node hitem hend hmem, ?_⟩
  obtain ⟨item', r, hitem', -, -, -, hread⟩ := hmem
  obtain rfl := Option.some.inj (hitem.symm.trans hitem')
  -- no column follows that of a root
  have hover : f.opening.length ≤ root.column + 1 := by
    rw [hcolumn, opening, List.length_map, Array.length_toList, Chart.current]
    omega
  rw [horigin, List.drop_of_length_le hover, List.append_nil] at hread
  exact hread.symm

include hc in
theorem collect_sound {limit : Nat} {roots : List ItemId}
    (hroots : ∀ root ∈ roots, ∃ item, f.IsRoot root item) {room : Nat} {known : KnownSequences}
    (hknown : Pass.Remembers f.Sound known) :
    ∀ tree ∈ TreeBuilder.collect ⟨f, limit, known⟩ room roots, f.Parses tree := by
  induction roots generalizing room known with
  | nil => simp [TreeBuilder.collect]
  | cons root roots ih =>
      cases room with
      | zero => simp [TreeBuilder.collect]
      | succ room =>
          obtain ⟨item, hroot⟩ := hroots root (by simp)
          obtain ⟨trees, known', hnodes, hparses, hknown'⟩ := nodes_sound hc hroot hknown
          rw [TreeBuilder.collect, hnodes]
          intro tree htree
          rcases List.mem_append.mp htree with hfirst | hrest
          · exact hparses tree (List.mem_of_mem_take hfirst)
          · exact ih (fun other hother => hroots other (by simp [hother])) hknown' tree hrest

end build

end Forest

namespace Parser

/-- However a run came about, if it is accepted then every tree of its forest is a
corrected parse of all tokens that were read. -/
theorem accepted_trees_parse (d : GrammarDef) (g : Grammar) (hd : d.toGrammar = .ok g)
    (p : Parser) (hp : Reached g p) (f : Forest) (hf : p.forest? = some f) (limit : Nat) :
    f.grammar = g ∧ f.chart = p.chart ∧ ∀ tree ∈ f.trees limit, f.Parses tree := by
  have hg := d.toGrammar_numbered g hd
  have hhealthy := hp.healthy hg
  rw [forest?] at hf
  split at hf
  · obtain rfl := Option.some.inj hf
    have hgrammar := hhealthy.grammar_eq
    subst hgrammar
    have hc := hhealthy.valid
    refine ⟨rfl, rfl, ?_⟩
    exact Forest.collect_sound hc
      (fun root hmem => (Forest.mem_roots ⟨p.grammar, p.chart⟩ hg hc.filed root).mp hmem)
      (Pass.remembers_empty _)
  · contradiction

def ringDef : GrammarDef :=
  (((GrammarDef.empty.terminal "a").terminal "b").rule "S" ["S"]).rule "S" ["a", "b"]

def ring : Grammar where
  terminals := [⟨"a", 0⟩, ⟨"b", 1⟩]
  nonterminals := ["S"]
  rules := #[⟨3, [3]⟩, ⟨3, [1, 2]⟩]
  start := 3

/-- A run of `ring` over `a a b` with repair. -/
def skipping : Parser :=
  ((fresh ring ⟨.onFailure, 2, 0, 0, 0, 0⟩ (.uniform ⟨1, 2⟩)).parse
    (TokenStream.ofList [⟨0, "a", .start⟩, ⟨0, "a", .start⟩, ⟨1, "b", .start⟩])).parser

/-- There are trees in spite of the cycle, and the token that is dropped is one of
their tokens. -/
theorem accepted_trees_parse_skipping : ringDef.toGrammar = .ok ring ∧
    ∃ f, skipping.forest? = some f ∧ (f.trees 3).length = 2 ∧
      ∀ tree ∈ f.trees 3, f.Parses tree ∧
        tree.tokens = [⟨0, "a", .start⟩, ⟨0, "a", .start⟩, ⟨1, "b", .start⟩] := by
  have hreached : Reached ring skipping := .parse (.setCosts (.created _) _) _
  have hforest := forest?_of_accepted (show skipping.state = .accepted by decide +kernel)
  have hlength : (Forest.trees ⟨skipping.grammar, skipping.chart⟩ 3).length = 2 := by
    decide +kernel
  have hopening : (Forest.opening ⟨skipping.grammar, skipping.chart⟩).drop 1 =
      [⟨0, "a", .start⟩, ⟨0, "a", .start⟩, ⟨1, "b", .start⟩].map some := by
    decide +kernel
  obtain ⟨-, -, hparses⟩ := accepted_trees_parse ringDef ring rfl skipping hreached _ hforest 3
  refine ⟨rfl, _, hforest, hlength, fun tree htree => ⟨hparses tree htree, ?_⟩⟩
  have hread := (hparses tree htree).read
  rw [hopening] at hread
  exact List.map_injective_iff.mpr (Option.some_injective _) hread

end Parser
end EarleyChart
