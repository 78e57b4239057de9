import EarleyChart.Proofs.Forest.Accepted
import EarleyChart.Proofs.Forest.Enumeration

/-!
The forest of an input that is accepted without repair, for a grammar without
cycles: counts and trees agree with the derivation trees of the input, rule by
rule of the roots and over all roots together.
-/

namespace EarleyChart

/-- For a grammar that is not warned to have a cycle no item is below itself. -/
theorem Chart.wellFounded_of_warnings {g : Grammar} (hg : g.Numbered)
    (hacyclic : ∀ w ∈ g.warnings, w.kind ≠ .cyclic) {c : Chart} (hc : c.Valid g) :
    WellFounded c.Under :=
  Subrelation.wf (fun hunder => ⟨hunder, fun _ _ _ => trivial⟩)
    (c.wellFounded_under hg hc (fun _ => True) fun a _ =>
      Grammar.not_unitCycle_of_warnings hg a fun w hw hkind => absurd hkind (hacyclic w hw))

namespace Parser

/-- The chart of a run that accepts without repair reads the whole input. -/
theorem reading_of_accepted {g : Grammar} (hg : g.Numbered) {config : Config}
    (hmode : config.recovery = .disabled) {costs : CostProvider} {tokens : List Token}
    (haccepted : ((fresh g config costs).parse (TokenStream.ofList tokens)).result =
      .ok .accepted) :
    ∃ chart, ((fresh g config costs).parse (TokenStream.ofList tokens)).parser.forest? =
        some ⟨g, chart⟩ ∧
      chart.Reading g .none config.maxErrorValue tokens tokens.length := by
  by_cases hrules : g.rulesFor g.start = []
  · obtain ⟨reason, hresult⟩ := parse_without_rules (g := g) config costs tokens hrules
    rw [hresult] at haccepted
    contradiction
  rcases parse_spec hg config costs tokens (.disabled hmode) hrules with
    ⟨verdict, hresult, hfinished⟩ | ⟨e, hresult, -⟩
  · obtain rfl := Except.ok.inj (hresult.symm.trans haccepted)
    obtain ⟨n, hreading, -, hiff⟩ := hfinished.chart
    obtain ⟨rfl, -⟩ := hiff.mp rfl
    refine ⟨_, ?_, hreading⟩
    rw [forest?, if_pos (hfinished.state_iff.mpr rfl), hfinished.grammar_eq]
  · rw [haccepted] at hresult
    contradiction

/-- Without cycles and without repair the forest is exact. -/
theorem accepted_forest_exact (d : GrammarDef) (g : Grammar) (hd : d.toGrammar = .ok g)
    (hacyclic : ∀ w ∈ g.warnings, w.kind ≠ .cyclic) (config : Config)
    (hmode : config.recovery = .disabled) (costs : CostProvider) (tokens : List Token)
    (haccepted : ((fresh g config costs).parse (TokenStream.ofList tokens)).result =
      .ok .accepted) :
    ∃ f, ((fresh g config costs).parse (TokenStream.ofList tokens)).parser.forest? = some f ∧
      f.grammar = g ∧
      (∀ root ∈ f.roots,
        let all := f.derivations tokens root
        all.Finite ∧ f.countDerivations root = min all.ncard maxCount ∧
          ∀ limit, (f.treesOf root limit).length = min limit all.ncard ∧
            (f.treesOf root limit).Nodup ∧ (∀ tree ∈ f.treesOf root limit, tree ∈ all) ∧
            (all.ncard ≤ limit → ∀ tree ∈ all, tree ∈ f.treesOf root limit)) ∧
      ∀ limit, (f.trees limit).length =
          min limit (f.roots.map fun root => (f.derivations tokens root).ncard).sum ∧
        (f.trees limit).Nodup ∧
        ∀ tree ∈ f.trees limit, ∃ root ∈ f.roots, tree ∈ f.derivations tokens root := by
  have hg := d.toGrammar_numbered g hd
  obtain ⟨chart, hforest, h⟩ := reading_of_accepted hg hmode haccepted
  have hwell := Chart.wellFounded_of_warnings hg hacyclic h.valid
  have hroots := Forest.mem_roots ⟨g, chart⟩ hg h.valid.filed
  refine ⟨⟨g, chart⟩, hforest, rfl, fun root hmem => ?_, fun limit => ?_⟩
  · obtain ⟨item, hroot⟩ := (hroots root).mp hmem
    have hfinite := Forest.finite_derivations hg h hwell hroot
    refine ⟨hfinite, Forest.countDerivations_root hg h hwell hroot, fun limit => ?_⟩
    have hselection := Forest.treesOf_root hg h hwell limit hroot
    exact ⟨hselection.length, hselection.nodup, hselection.mem,
      fun hlimit tree htree => hselection.mem_of_le hfinite hlimit htree⟩
  · have hall : ∀ root ∈ Forest.roots ⟨g, chart⟩, ∃ item, Forest.IsRoot ⟨g, chart⟩ root item :=
      fun root hmem => (hroots root).mp hmem
    have hnodup := Forest.nodup_roots ⟨g, chart⟩ h.valid.filed
    have hselection := Forest.collect_roots hg h hwell hnodup hall (Nat.le_refl limit)
      (Pass.remembers_empty _)
    refine ⟨?_, hselection.nodup, hselection.mem⟩
    rw [← Forest.ncard_derivationsOver hg h hwell hnodup hall]
    exact hselection.length

def sumDef : GrammarDef :=
  ((((GrammarDef.empty.terminal "num").terminal "+").rule "E" ["E", "+", "E"]).rule "E"
    ["num"])

def sum : Grammar where
  terminals := [⟨"num", 0⟩, ⟨"+", 1⟩]
  nonterminals := ["E"]
  rules := #[⟨3, [3, 2, 3]⟩, ⟨3, [1]⟩]
  start := 3

/-- Three numbers are summed in two ways, and both are found. -/
theorem accepted_forest_exact_sum :
    let tokens : List Token := [⟨0, "1", .start⟩, ⟨1, "+", .start⟩, ⟨0, "2", .start⟩,
      ⟨1, "+", .start⟩, ⟨0, "3", .start⟩]
    let outcome := (fresh sum ⟨.disabled, 0, 0, 0, 0, 0⟩ .standard).parse
      (TokenStream.ofList tokens)
    sumDef.toGrammar = .ok sum ∧ (∀ w ∈ sum.warnings, w.kind ≠ .cyclic) ∧
      outcome.result = .ok .accepted ∧ ∃ f, outcome.parser.forest? = some f ∧
        ∃ root ∈ f.roots, (f.derivations tokens root).ncard = 2 ∧
          ∀ tree ∈ f.derivations tokens root, tree ∈ f.treesOf root 2 := by
  intro tokens outcome
  have hacyclic : ∀ w ∈ sum.warnings, w.kind ≠ .cyclic := by decide +kernel
  have haccepted : outcome.result = .ok .accepted := by decide +kernel
  refine ⟨rfl, hacyclic, haccepted, ?_⟩
  obtain ⟨f, hforest, -, hexact, -⟩ := accepted_forest_exact sumDef sum rfl hacyclic
    ⟨.disabled, 0, 0, 0, 0, 0⟩ rfl .standard tokens haccepted
  have hgiven := forest?_of_accepted (show outcome.parser.state = .accepted by decide +kernel)
  obtain rfl := Option.some.inj (hgiven.symm.trans hforest)
  have hroot : (⟨5, 2⟩ : ItemId) ∈
      Forest.roots ⟨outcome.parser.grammar, outcome.parser.chart⟩ := by
    decide +kernel
  have htwo : Forest.countDerivations ⟨outcome.parser.grammar, outcome.parser.chart⟩ ⟨5, 2⟩ =
      2 := by
    decide +kernel
  obtain ⟨-, hcount, htrees⟩ := hexact _ hroot
  have hncard : (Forest.derivations ⟨outcome.parser.grammar, outcome.parser.chart⟩ tokens
      ⟨5, 2⟩).ncard = 2 := by
    rw [htwo, maxCount, UInt64.size] at hcount
    omega
  exact ⟨_, hforest, _, hroot, hncard, (htrees 2).2.2.2 (Nat.le_of_eq hncard)⟩

end Parser
end EarleyChart
