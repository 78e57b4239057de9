import EarleyChart.Proofs.Forest.Roots
import EarleyChart.Proofs.Parser.Completeness
import EarleyChart.Proofs.Parser.Course

/-!
The verdict of a run and the cost of an accepted one. An input is accepted
exactly if it has a corrected derivation within the ceiling, and the cost of the
forest is then the lowest cost of a corrected derivation.
-/

namespace EarleyChart

/-- A corrected derivation of the whole input from the start symbol. -/
def CorrectsInput (g : Grammar) (quote : Quote) (tokens : List Token) (cost : Nat) : Prop :=
  ∃ rule r, g.rule? rule = some r ∧ r.lhs = g.start ∧
    Corrected g quote tokens tokens.length ⟨rule, r.rhs.length, 0⟩ cost

namespace Parser.Finished

variable {g : Grammar} (hg : g.Numbered) {config : Config} {quote : Quote}
  {tokens : List Token} {verdict : Verdict} {p : Parser}
  (h : p.Finished g config quote tokens verdict)

include h in
/-- A root of the chart stands for a corrected derivation at its cost. -/
theorem correctsInput_of_root {id : ItemId} {item : Item}
    (hverdict : verdict = .accepted)
    (hroot : Forest.IsRoot ⟨g, p.chart⟩ id item) :
    CorrectsInput g quote tokens item.errorCost ∧ item.errorCost ≤ config.maxErrorValue := by
  obtain ⟨n, hchart, -, hiff⟩ := h.chart
  obtain ⟨rfl, -⟩ := hiff.mp hverdict
  obtain ⟨hitem, hid, horigin, hlhs, hend⟩ := hroot
  obtain ⟨⟨hderived, hcost, -⟩, -⟩ := hchart.sound id item hitem
  obtain ⟨r, hr, hdot⟩ := Grammar.dot_of_end (hchart.valid.item id item hitem).dot hend
  refine ⟨⟨item.rule, r, hr, ?_, ?_⟩, hcost⟩
  · rwa [Grammar.lhs, hr] at hlhs
  · rw [hid, hchart.current, Item.key, hdot, horigin] at hderived
    exact hderived

include hg h in
/-- A corrected derivation within the ceiling has a root, at most at its cost. -/
theorem root_of_correctsInput {cost : Nat} (hcorrects : CorrectsInput g quote tokens cost)
    (hcost : cost ≤ config.maxErrorValue) :
    verdict = .accepted ∧
      ∃ id item, Forest.IsRoot ⟨g, p.chart⟩ id item ∧ item.errorCost ≤ cost := by
  obtain ⟨n, hchart, hlast, hiff⟩ := h.chart
  obtain ⟨rule, r, hr, hlhs, hderived⟩ := hcorrects
  obtain ⟨hle, id, item, hitem, hid, hkey, hitemcost⟩ :=
    hchart.contains_of_corrected hg hlast hderived hcost
      (hchart.start rule ((Grammar.mem_rulesFor_iff hg rule _).mpr ⟨r, hr, hlhs⟩))
  have hn : n = tokens.length := Nat.le_antisymm hchart.length hle
  simp only [Item.key, ItemKey.mk.injEq] at hkey
  obtain ⟨hrule, hdot, horigin⟩ := hkey
  have hroot : Forest.IsRoot ⟨g, p.chart⟩ id item := by
    refine ⟨hitem, ?_, horigin, ?_, ?_⟩
    · rw [hid, hchart.current, hn]
    · rw [hrule, Grammar.lhs, hr, Option.elim_some, hlhs]
    · rw [hrule, hdot]
      exact Grammar.next?_length hr
  refine ⟨hiff.mpr ⟨hn, ?_⟩, id, item, hroot, hitemcost⟩
  exact (Forest.completed_iff ⟨g, p.chart⟩ hchart.valid.filed).mpr ⟨id, item, hroot⟩

include hg h in
theorem accepted_iff : verdict = .accepted ↔
    ∃ cost, CorrectsInput g quote tokens cost ∧ cost ≤ config.maxErrorValue := by
  constructor
  · intro hverdict
    obtain ⟨n, hchart, -, hiff⟩ := h.chart
    obtain ⟨-, hcompleted⟩ := hiff.mp hverdict
    obtain ⟨id, item, hroot⟩ :=
      (Forest.completed_iff ⟨g, p.chart⟩ hchart.valid.filed).mp hcompleted
    exact ⟨item.errorCost, h.correctsInput_of_root hverdict hroot⟩
  · rintro ⟨cost, hcorrects, hcost⟩
    exact (h.root_of_correctsInput hg hcorrects hcost).1

include hg h in
/-- The cost of an accepted run is the lowest of a corrected derivation. -/
theorem acceptedCost_of_accepted (hverdict : verdict = .accepted) :
    ∃ cost, p.acceptedCost = some cost ∧ CorrectsInput g quote tokens cost ∧
      ∀ other, CorrectsInput g quote tokens other → cost ≤ other := by
  obtain ⟨n, hchart, -, hiff⟩ := h.chart
  obtain ⟨-, hcompleted⟩ := hiff.mp hverdict
  have hforest : p.forest? = some ⟨g, p.chart⟩ := by
    rw [forest?, if_pos (h.state_iff.mpr hverdict), h.grammar_eq]
  obtain ⟨id, item, hroot, hmin, hle⟩ :=
    Forest.minCost_of_root ⟨g, p.chart⟩ hg hchart.valid.filed
      ((Forest.completed_iff ⟨g, p.chart⟩ hchart.valid.filed).mp hcompleted)
  obtain ⟨hcorrects, hceiling⟩ := h.correctsInput_of_root hverdict hroot
  refine ⟨item.errorCost, by rw [acceptedCost, hforest, Option.bind_some, hmin], hcorrects,
    fun cost hother => ?_⟩
  by_contra hlt
  have hle' : cost ≤ config.maxErrorValue := Nat.le_trans (Nat.le_of_not_le hlt) hceiling
  obtain ⟨-, id', item', hroot', hitem'⟩ := h.root_of_correctsInput hg hother hle'
  exact hlt (Nat.le_trans (hle id' item' hroot') hitem')

end Parser.Finished

namespace Parser

/-- With repair at every token an input is accepted exactly if it has a corrected
derivation within the ceiling, and then at the lowest cost of any. -/
theorem parse_continuous_optimal (d : GrammarDef) (g : Grammar) (hd : d.toGrammar = .ok g)
    (config : Config) (hmode : config.recovery = .continuous) (costs : CostProvider)
    (price : RuleId → Nat → Nat → SymbolId → Token → CorrectionCost)
    (hcosts : ∀ waiting found, costs g waiting found = waiting.map fun w =>
      price w.rule w.dot w.origin w.expected found) (tokens : List Token) :
    let quote : Quote := fun key expected found =>
      some (price key.rule key.dot key.origin expected found)
    let outcome := (fresh g config costs).parse (TokenStream.ofList tokens)
    Stopped config outcome.result ∨
      (outcome.result = .ok .accepted ↔
        ∃ cost, CorrectsInput g quote tokens cost ∧ cost ≤ config.maxErrorValue) ∧
      (outcome.result = .ok .accepted → ∃ cost, outcome.parser.acceptedCost = some cost ∧
        CorrectsInput g quote tokens cost ∧
        ∀ other, CorrectsInput g quote tokens other → cost ≤ other) := by
  intro quote outcome
  have hg := d.toGrammar_numbered g hd
  by_cases hrules : g.rulesFor g.start = []
  · obtain ⟨reason, hresult⟩ := parse_without_rules (g := g) config costs tokens hrules
    have hnot : outcome.result ≠ .ok .accepted := by
      simp [show outcome.result = _ from hresult]
    refine .inr ⟨⟨fun h => absurd h hnot, ?_⟩, fun h => absurd h hnot⟩
    rintro ⟨cost, ⟨rule, r, hr, hlhs, -⟩, -⟩
    have hmem := (Grammar.mem_rulesFor_iff hg rule g.start).mpr ⟨r, hr, hlhs⟩
    rw [hrules] at hmem
    contradiction
  · have hquote : Quotes g config costs quote := .continuous hmode
      (fun key expected found => price key.rule key.dot key.origin expected found) hcosts
    rcases parse_spec hg config costs tokens hquote hrules with
      ⟨verdict, hresult, hfinished⟩ | hstopped
    · have hiff : outcome.result = .ok .accepted ↔ verdict = .accepted := by
        rw [show outcome.result = _ from hresult, Except.ok.injEq]
      rw [hiff]
      exact .inr ⟨hfinished.accepted_iff hg, hfinished.acceptedCost_of_accepted hg⟩
    · exact .inl hstopped

def pairDef : GrammarDef :=
  ((GrammarDef.empty.terminal "a").terminal "b").rule "S" ["a", "b"]

def pair : Grammar where
  terminals := [⟨"a", 0⟩, ⟨"b", 1⟩]
  nonterminals := ["S"]
  rules := #[⟨3, [1, 2]⟩]
  start := 3

/-- A run over `a a` accepts with the second token read as `b`, at a cost of at
most two. -/
theorem parse_continuous_repairs_pair : pairDef.toGrammar = .ok pair ∧
    ∃ cost, ((fresh pair ⟨.continuous, 2, 0, 0, 0, 0⟩ (.uniform ⟨2, 5⟩)).parse
        (TokenStream.ofList [⟨0, "a", .start⟩, ⟨0, "a", .start⟩])).parser.acceptedCost =
      some cost ∧ cost ≤ 2 := by
  refine ⟨rfl, ?_⟩
  have hderived : CorrectsInput pair (fun _ _ _ => some ⟨2, 5⟩)
      [⟨0, "a", .start⟩, ⟨0, "a", .start⟩] 2 := by
    refine ⟨0, ⟨3, [1, 2]⟩, rfl, rfl, ?_⟩
    have hfirst : Corrected pair (fun _ _ _ => some ⟨2, 5⟩)
        [⟨0, "a", .start⟩, ⟨0, "a", .start⟩] 1 ⟨0, 1, 0⟩ 0 :=
      .scan (.start 0 0 (Nat.zero_le _) rfl) rfl rfl rfl
    exact .substitute hfirst rfl rfl rfl (by decide) rfl
  rcases parse_continuous_optimal pairDef pair rfl ⟨.continuous, 2, 0, 0, 0, 0⟩ rfl
    (.uniform ⟨2, 5⟩) (fun _ _ _ _ _ => ⟨2, 5⟩) (fun _ _ => rfl)
    [⟨0, "a", .start⟩, ⟨0, "a", .start⟩] with ⟨e, -, hlimit⟩ | ⟨haccepted, hcost⟩
  · exact absurd hlimit (Config.not_limits rfl rfl e)
  · obtain ⟨cost, hcost, -, hleast⟩ := hcost (haccepted.mpr ⟨2, hderived, Nat.le_refl 2⟩)
    exact ⟨cost, hcost, hleast 2 hderived⟩

end Parser
end EarleyChart
