import EarleyChart.Proofs.Forest.Nonempty
import EarleyChart.Proofs.Parser.History

/-!
The forest of an accepted run. It has a root whatever the grammar and however the
run came about. An item over no tokens that is below itself may leave a root without
derivations, since what is cut short below one item is remembered for others;
where there is none, every root has a derivation and a tree. This is so where no
nullable symbol derives itself.
-/

namespace EarleyChart

/-- Where no nullable symbol is warned about, none derives itself. -/
theorem Grammar.not_unitCycle_of_nullable {g : Grammar} (hg : g.Numbered)
    (h : ∀ w ∈ g.warnings, w.kind = .cyclic → g.nullable w.symbol = false) (a : SymbolId)
    (ha : g.nullable a = true) : ¬ Relation.TransGen g.UnitStep a a := by
  refine not_unitCycle_of_warnings hg a fun w hw hkind heq => ?_
  rw [← heq, h w hw hkind] at ha
  contradiction

namespace Parser

theorem forest?_of_accepted {p : Parser} (h : p.state = .accepted) :
    p.forest? = some ⟨p.grammar, p.chart⟩ := if_pos h

/-- The forest of a run is one of its grammar, over a valid chart. -/
theorem Reached.forest_valid {g : Grammar} (hg : g.Numbered) {p : Parser} (hp : Reached g p)
    {f : Forest} (hf : p.forest? = some f) : f.grammar = g ∧ f.chart.Valid g := by
  have hhealthy := hp.healthy hg
  rw [forest?, Option.ite_none_right_eq_some] at hf
  obtain rfl := Option.some.inj hf.2
  exact ⟨hhealthy.grammar_eq, hhealthy.grammar_eq ▸ hhealthy.valid⟩

/-- However a run came about, an accepted one has a root. Where no item over no tokens is below
itself, and so where no nullable symbol derives itself, all its roots have derivations and
trees. -/
theorem accepted_forest_nonempty (d : GrammarDef) (g : Grammar) (hd : d.toGrammar = .ok g)
    (p : Parser) (hp : Reached g p) (f : Forest) (hf : p.forest? = some f) :
    f.roots ≠ [] ∧
      ((∀ id, f.chart.Flat id → ¬ Relation.TransGen f.chart.Under id id) ∨
          (∀ w ∈ g.warnings, w.kind = .cyclic → g.nullable w.symbol = false) →
        (∀ root ∈ f.roots, 1 ≤ f.countDerivations root ∧
          ∀ limit, 1 ≤ limit → f.treesOf root limit ≠ []) ∧
        ∀ limit, 1 ≤ limit → f.trees limit ≠ []) := by
  have hg := d.toGrammar_numbered g hd
  have hhealthy := hp.healthy hg
  rw [forest?] at hf
  split at hf
  · next haccepted =>
    obtain rfl := Option.some.inj hf
    have hgrammar := hhealthy.grammar_eq
    subst hgrammar
    have hc := hhealthy.valid
    have hroot := (Forest.completed_iff ⟨p.grammar, p.chart⟩ hc.filed).mp
      (hhealthy.complete haccepted)
    have hroots := Forest.mem_roots ⟨p.grammar, p.chart⟩ hg hc.filed
    have hne : Forest.roots ⟨p.grammar, p.chart⟩ ≠ [] := by
      obtain ⟨id, hid⟩ := hroot
      exact List.ne_nil_of_mem ((hroots id).mpr hid)
    have hitems : ∀ root ∈ Forest.roots ⟨p.grammar, p.chart⟩, ∃ item,
        Forest.item? ⟨p.grammar, p.chart⟩ root = some item := by
      intro root hmem
      obtain ⟨item, hitem, -⟩ := (hroots root).mp hmem
      exact ⟨item, hitem⟩
    refine ⟨hne, fun hcondition => ?_⟩
    have hacyclic : ∀ id, p.chart.Flat id → ¬ Relation.TransGen p.chart.Under id id :=
      hcondition.elim id fun hwarnings _ hflat =>
        hc.not_under_of_flat hg (Grammar.not_unitCycle_of_nullable hg hwarnings) hflat
    refine ⟨fun root hmem => ?_, fun limit hlimit =>
      Forest.trees_ne_nil hc hacyclic hlimit hne hitems⟩
    obtain ⟨item, hitem⟩ := hitems root hmem
    exact ⟨Forest.countDerivations_pos hc hacyclic hitem,
      fun limit hlimit => Forest.treesOf_ne_nil hc hacyclic hlimit hitem⟩
  · contradiction

def sideDef : GrammarDef :=
  ((((GrammarDef.empty.terminal "a").rule "S" ["S"]).rule "S" ["B", "a", "B"]).rule "B"
    ["a"]).epsilon "B"

def side : Grammar where
  terminals := [⟨"a", 0⟩]
  nonterminals := ["S", "B"]
  rules := #[⟨2, [2]⟩, ⟨2, [3, 1, 3]⟩, ⟨3, [1]⟩, ⟨3, []⟩]
  start := 2

/-- A run of a cyclic grammar over two tokens has a forest with trees. -/
theorem accepted_forest_nonempty_side :
    sideDef.toGrammar = .ok side ∧
      (∀ w ∈ side.warnings, w.kind = .cyclic → side.nullable w.symbol = false) ∧
      ∃ f, ((new side).parse
          (TokenStream.ofList [⟨0, "a", .start⟩, ⟨0, "a", .start⟩])).parser.forest? = some f ∧
        f.roots ≠ [] ∧ f.trees 1 ≠ [] := by
  have hwarnings : ∀ w ∈ side.warnings, w.kind = .cyclic → side.nullable w.symbol = false := by
    decide +kernel
  have hreached : Reached side ((new side).parse
      (TokenStream.ofList [⟨0, "a", .start⟩, ⟨0, "a", .start⟩])).parser :=
    .parse (.created .standard) _
  have hforest := forest?_of_accepted (show ((new side).parse
    (TokenStream.ofList [⟨0, "a", .start⟩, ⟨0, "a", .start⟩])).parser.state = .accepted by
      decide +kernel)
  obtain ⟨hroots, htrees⟩ := accepted_forest_nonempty sideDef side rfl _ hreached _ hforest
  exact ⟨rfl, hwarnings, _, hforest, hroots, (htrees (.inr hwarnings)).2 1 (Nat.le_refl 1)⟩

def knotDef : GrammarDef :=
  ((((GrammarDef.empty.rule "S" ["A", "C"]).rule "A" ["B"]).epsilon "B").rule "B" ["C"]).rule
    "C" ["A"]

def knot : Grammar where
  terminals := []
  nonterminals := ["S", "A", "B", "C"]
  rules := #[⟨1, [2, 4]⟩, ⟨2, [3]⟩, ⟨3, []⟩, ⟨3, [4]⟩, ⟨4, [2]⟩]
  start := 1

/-- The completed `C` is first met below the completed `A` that it needs, and is
then remembered as having no derivation. -/
theorem accepted_forest_without_trees :
    knotDef.toGrammar = .ok knot ∧
      ∃ f, ((new knot).parse (TokenStream.ofList [])).parser.forest? = some f ∧
        f.roots = [⟨0, 9⟩] ∧ f.countDerivations ⟨0, 9⟩ = 0 ∧
        f.treesOf ⟨0, 9⟩ 1 = [] ∧ f.trees 1 = [] := by
  have hforest := forest?_of_accepted (show ((new knot).parse
    (TokenStream.ofList [])).parser.state = .accepted by decide +kernel)
  refine ⟨rfl, _, hforest, ?_, ?_, ?_, ?_⟩ <;> decide +kernel

end Parser
end EarleyChart
