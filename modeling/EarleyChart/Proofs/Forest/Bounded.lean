import EarleyChart.Proofs.Forest.Accepted
import EarleyChart.Proofs.Forest.Lockstep

/-!
The limit of a building pass. Whatever was asked before, an item that was made by links has
no more trees than the limit, whether they are gathered or remembered. The limit is not looked
at for a predicted item, which has the one tree of an empty part before its dot.
-/

namespace EarleyChart
namespace Forest

variable (f : Forest)

/-- What a building pass answers when it is asked for the trees of an item. -/
def Answers (limit : Nat) (id : ItemId) (trees : List ParseTree) : Prop :=
  match f.item? id with
  | none => trees = []
  | some item =>
      if item.isPredicted then trees = [.node item.rule (f.grammar.lhs item.rule) []]
      else trees.length ≤ limit

/-- The sequences of children that an item may have in the table. -/
def WithinLimit (limit : Nat) (id : ItemId) (sequences : List (List ParseTree)) : Prop :=
  ∀ item, f.item? id = some item →
    if item.isPredicted then sequences = [[]] else sequences.length ≤ limit

variable {f} {limit : Nat}

theorem Answers.length_le (hlimit : 0 < limit) {id : ItemId} {trees : List ParseTree}
    (h : f.Answers limit id trees) : trees.length ≤ limit := by
  unfold Answers at h
  split at h
  · rw [h]
    exact Nat.zero_le limit
  · split at h
    · rw [h]
      exact hlimit
    · exact h

/-- The nodes of an item are as many as its sequences. -/
theorem WithinLimit.answers {id : ItemId} {sequences : List (List ParseTree)}
    (h : f.WithinLimit limit id sequences) : f.Answers limit id (f.nodesWith id sequences) := by
  unfold Answers nodesWith
  cases hitem : f.item? id with
  | none => rfl
  | some item =>
      have hwithin := h item hitem
      dsimp only
      by_cases hpredicted : item.isPredicted
      · rw [if_pos hpredicted] at hwithin ⊢
        rw [hwithin]
        rfl
      · rw [if_neg hpredicted] at hwithin ⊢
        rw [List.length_map]
        exact hwithin

variable (f limit)

/-- The links of an item fill up what the limit leaves of its room. -/
theorem building_within : (Pass.building f limit).Models f (f.WithinLimit limit)
    (fun _ _ gathered => gathered.1.length ≤ limit) where
  right _ _ hright := Pass.building_right hright
  unit id item hitem hlinks := by
    intro other hother
    obtain rfl := Option.some.inj (hitem.symm.trans hother)
    rw [if_pos (by rw [Item.isPredicted, hlinks, List.isEmpty_nil])]
    rfl
  start _ _ _ := Nat.zero_le limit
  full _ _ _ _ _ _ _ _ hpart _ := hpart
  add id item before link after left right gathered _ _ hpart _ _ _ := by
    simp only [Pass.building]
    rw [List.length_append, length_extendSequences]
    omega
  finish id item gathered hitem hlinks hpart := by
    intro other hother
    obtain rfl := Option.some.inj (hitem.symm.trans hother)
    rw [if_neg (by rwa [Item.isPredicted, List.isEmpty_iff])]
    exact hpart

/-- An item below itself has links, so that nothing is what it may have. -/
theorem withinLimit_nil {id : ItemId}
    (h : f.item? id = none ∨ Relation.TransGen f.chart.Under id id) :
    f.WithinLimit limit id [] := by
  intro item hitem
  rcases h with hnone | hcycle
  · rw [hitem] at hnone
    contradiction
  · obtain ⟨_, -, hunder⟩ := Relation.TransGen.tail'_iff.mp hcycle
    obtain ⟨parent, link, hparent, hlink, -⟩ := hunder
    obtain rfl := Option.some.inj (hitem.symm.trans hparent)
    rw [if_neg]
    · exact Nat.zero_le limit
    · rw [Item.isPredicted, List.isEmpty_iff]
      exact List.ne_nil_of_mem hlink

/-- A call answers within the limit, and so does every call after it. -/
theorem nodes_answers (known : KnownSequences)
    (hknown : Pass.Remembers (f.WithinLimit limit) known) (id : ItemId) :
    f.Answers limit id (TreeBuilder.nodes ⟨f, limit, known⟩ id).1 ∧
      ∃ after, (TreeBuilder.nodes ⟨f, limit, known⟩ id).2 = ⟨f, limit, after⟩ ∧
        Pass.Remembers (f.WithinLimit limit) after := by
  obtain ⟨hvalue, hafter⟩ := Pass.run_within (f.building_within limit) (fun _ => True)
    (fun _ _ _ _ => trivial) (fun _ _ hcut => f.withinLimit_nil limit hcut) _ [] id known trivial
    (f.room_root id) hknown
  rw [f.nodes_eq]
  exact ⟨hvalue.answers, _, rfl, hafter⟩

theorem nodesOfAll_answers (ids : List ItemId) (known : KnownSequences)
    (hknown : Pass.Remembers (f.WithinLimit limit) known) :
    List.Forall₂ (f.Answers limit) ids (TreeBuilder.nodesOfAll ⟨f, limit, known⟩ ids) := by
  induction ids generalizing known with
  | nil => exact .nil
  | cons id ids ih =>
      obtain ⟨hanswers, after, hafter, hremembers⟩ := f.nodes_answers limit known hknown id
      have hrest := ih after hremembers
      rw [← hafter] at hrest
      exact .cons hanswers hrest

/-- Each answer belongs to an item that was asked for. -/
theorem exists_asked {R : ItemId → List ParseTree → Prop} {ids : List ItemId}
    {answers : List (List ParseTree)} (h : List.Forall₂ R ids answers) {trees : List ParseTree}
    (htrees : trees ∈ answers) : ∃ id ∈ ids, R id trees := by
  induction h with
  | nil => simp at htrees
  | cons hfirst _ ih =>
      rcases List.mem_cons.mp htrees with rfl | hrest
      · exact ⟨_, by simp, hfirst⟩
      · obtain ⟨id, hid, hanswer⟩ := ih hrest
        exact ⟨id, List.mem_cons_of_mem _ hid, hanswer⟩

/-- However many items a builder is asked for, and in whatever order, each answer is within its
limit, and a limit of at least one bounds every answer. A predicted item is answered with
its one tree under every limit. -/
theorem nodes_within_limit (ids : List ItemId) :
    List.Forall₂ (f.Answers limit) ids ((TreeBuilder.new f limit).nodesOfAll ids) ∧
      (0 < limit → ∀ trees ∈ (TreeBuilder.new f limit).nodesOfAll ids, trees.length ≤ limit) := by
  have hanswers := f.nodesOfAll_answers limit ids {} (Pass.remembers_empty _)
  refine ⟨hanswers, fun hlimit trees htrees => ?_⟩
  obtain ⟨id, -, hid⟩ := exists_asked hanswers htrees
  exact hid.length_le hlimit

/-- A cyclic forest under a limit of one, with a root asked for twice. -/
theorem nodes_within_limit_cross :
    ∃ f, Parser.crossed.forest? = some f ∧ f.roots = [⟨1, 2⟩, ⟨1, 4⟩] ∧
      (∀ trees ∈ (TreeBuilder.new f 1).nodesOfAll [⟨1, 4⟩, ⟨0, 0⟩, ⟨1, 2⟩, ⟨1, 4⟩],
        trees.length ≤ 1) ∧
      ((TreeBuilder.new f 1).nodesOfAll [⟨1, 4⟩, ⟨0, 0⟩, ⟨1, 2⟩, ⟨1, 4⟩]).map List.length =
        [1, 1, 1, 1] := by
  refine ⟨_, Parser.crossed_forest, by decide +kernel, ?_, by decide +kernel⟩
  exact (nodes_within_limit _ 1 _).2 Nat.one_pos

def bareDef : GrammarDef := GrammarDef.empty.epsilon "S"

def bare : Grammar where
  terminals := []
  nonterminals := ["S"]
  rules := #[⟨1, []⟩]
  start := 1

/-- The root of the empty string is a predicted item, which has a tree under the limit zero. -/
theorem predicted_beyond_limit :
    bareDef.toGrammar = .ok bare ∧
      ∃ f, ((Parser.new bare).parse (TokenStream.ofList [])).parser.forest? = some f ∧
        f.roots = [⟨0, 0⟩] ∧
        ((TreeBuilder.new f 0).nodesOfAll [⟨0, 0⟩]).map List.length = [1] ∧
        (f.trees 0).length = 0 ∧ (f.treesOf ⟨0, 0⟩ 0).length = 0 ∧
        ¬ ∀ trees ∈ (TreeBuilder.new f 0).nodesOfAll [⟨0, 0⟩], trees.length ≤ 0 := by
  have hforest := Parser.forest?_of_accepted (show ((Parser.new bare).parse
    (TokenStream.ofList [])).parser.state = .accepted by decide +kernel)
  refine ⟨rfl, _, hforest, ?_, ?_, ?_, ?_, ?_⟩ <;> decide +kernel

end Forest
end EarleyChart
