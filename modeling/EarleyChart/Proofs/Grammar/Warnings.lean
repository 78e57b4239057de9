import EarleyChart.Grammar.Warning
import EarleyChart.Proofs.Grammar.Generating
import EarleyChart.Proofs.Grammar.Reachable

/-!
What the warnings say. The warnings of one kind come from one list, which looks
at each symbol once, so there is at most one of a kind about a symbol. A
nonterminal is warned about if it has no rules, or has rules and derives no
string of terminals; any symbol is warned about if it stands in no form of the
start symbol.
-/

namespace EarleyChart
namespace Grammar

def warningsAbout (g : Grammar) (kind : WarningKind) (a : SymbolId) : List Warning :=
  g.warnings.filter fun w => w.kind = kind ∧ w.symbol = a

/-- There is one warning of the kind about every symbol with the property, and
none about any other. -/
def WarnsExactly (g : Grammar) (kind : WarningKind) (property : SymbolId → Prop) : Prop :=
  ∀ a, (property a → ∃ w, g.warningsAbout kind a = [w]) ∧
    (¬ property a → g.warningsAbout kind a = [])

def warningsOf (g : Grammar) : WarningKind → List Warning
  | .unreachable => g.unreachableSymbols
  | .unproductive => g.unproductiveNonterminals
  | .noProductions => g.missingProductions
  | .cyclic => g.cyclicNonterminals

theorem kind_of_mem_warningsOf {g : Grammar} {kind : WarningKind} {w : Warning}
    (h : w ∈ g.warningsOf kind) : w.kind = kind := by
  cases kind with
  | unreachable | unproductive | noProductions =>
      obtain ⟨_, -, rfl⟩ := List.mem_map.mp h
      rfl
  | cyclic =>
      obtain ⟨_, -, hw⟩ := List.mem_filterMap.mp h
      obtain ⟨_, -, rfl⟩ := Option.map_eq_some_iff.mp hw
      rfl

/-- The list of a kind is all that the warnings of that kind are taken from. -/
theorem warningsAbout_eq (g : Grammar) (kind : WarningKind) (a : SymbolId) :
    g.warningsAbout kind a =
      (g.warningsOf kind).filter fun w => w.kind = kind ∧ w.symbol = a := by
  have hother : ∀ other ≠ kind,
      (g.warningsOf other).filter (fun w => w.kind = kind ∧ w.symbol = a) = [] := by
    intro other hne
    rw [List.filter_eq_nil_iff]
    intro w hw
    simp [kind_of_mem_warningsOf hw, hne]
  have hparts : g.warnings = g.warningsOf .noProductions ++ g.warningsOf .unproductive ++
      g.warningsOf .unreachable ++ g.warningsOf .cyclic := rfl
  rw [warningsAbout, hparts, List.filter_append, List.filter_append, List.filter_append]
  cases kind <;>
    simp only [hother, ne_eq, reduceCtorEq, not_false_eq_true, List.nil_append, List.append_nil]

theorem filter_filterMap {symbols : List SymbolId} (hnodup : symbols.Nodup)
    {warn : SymbolId → Option Warning} {kind : WarningKind}
    (hwarn : ∀ s, ∀ w ∈ warn s, w.kind = kind ∧ w.symbol = s) (a : SymbolId) :
    (symbols.filterMap warn).filter (fun w => w.kind = kind ∧ w.symbol = a) =
      if a ∈ symbols then (warn a).toList else [] := by
  induction symbols with
  | nil => rfl
  | cons s symbols ih =>
      obtain ⟨hs, hnodup⟩ := List.nodup_cons.mp hnodup
      have hrest := ih hnodup
      by_cases hsame : s = a
      · subst hsame
        rw [if_neg hs] at hrest
        rw [if_pos List.mem_cons_self]
        cases hw : warn s with
        | none => rw [List.filterMap_cons_none hw, hrest, Option.toList_none]
        | some w =>
            rw [List.filterMap_cons_some hw, List.filter_cons_of_pos (by simpa using hwarn s w hw),
              hrest, Option.toList_some]
      · have hmem : a ∈ s :: symbols ↔ a ∈ symbols := by simp [Ne.symm hsame]
        simp only [hmem]
        cases hw : warn s with
        | none => rwa [List.filterMap_cons_none hw]
        | some w =>
            rwa [List.filterMap_cons_some hw,
              List.filter_cons_of_neg (by simp [(hwarn s w hw).2, hsame])]

theorem warningsAbout_of_filterMap {g : Grammar} {kind : WarningKind} {symbols : List SymbolId}
    (hnodup : symbols.Nodup) {warn : SymbolId → Option Warning}
    (hlist : g.warningsOf kind = symbols.filterMap warn)
    (hwarn : ∀ s, ∀ w ∈ warn s, w.kind = kind ∧ w.symbol = s) (a : SymbolId) :
    g.warningsAbout kind a = if a ∈ symbols then (warn a).toList else [] := by
  rw [warningsAbout_eq, hlist, filter_filterMap hnodup hwarn]

/-- A list with a warning about each symbol that passes a test. -/
theorem warnsExactly_of_filter {g : Grammar} {kind : WarningKind} {property : SymbolId → Prop}
    {symbols : List SymbolId} (hnodup : symbols.Nodup) {test : SymbolId → Bool}
    {message : SymbolId → String}
    (hlist : g.warningsOf kind = (symbols.filter test).map fun a => ⟨kind, a, message a, []⟩)
    (hproperty : ∀ a, property a ↔ a ∈ symbols ∧ test a = true) :
    g.WarnsExactly kind property := by
  rw [← List.filterMap_eq_map, List.filterMap_filter] at hlist
  intro a
  rw [hproperty, warningsAbout_of_filterMap hnodup hlist]
  · constructor
    · rintro ⟨ha, htest⟩
      rw [if_pos ha, if_pos htest]
      exact ⟨_, rfl⟩
    · intro hnot
      split
      · next ha => rw [if_neg fun htest => hnot ⟨ha, htest⟩, Option.toList_none]
      · rfl
  · intro s w hw
    obtain ⟨-, hw⟩ := Option.ite_none_right_eq_some.mp hw
    obtain rfl := Option.some.inj hw
    exact ⟨rfl, rfl⟩

section Numbered

variable {g : Grammar} (hg : g.Numbered)

include hg in
theorem mem_productive_iff (a : SymbolId) :
    a ∈ g.productive ↔ g.isNonterminal a = true ∧ g.Generates g.isTerminal a := by
  rw [productive]
  constructor
  · exact fun h => ⟨generating_nonterminal hg h, generating_sound h⟩
  · rintro ⟨ha, hgenerates⟩
    refine ((covered_iff hg g.isTerminal a).mpr hgenerates).resolve_left fun hterminal => ?_
    rw [g.not_isNonterminal_of_isTerminal a hterminal] at ha
    exact Bool.false_ne_true ha

include hg in
theorem warns_noProductions : g.WarnsExactly .noProductions fun a =>
    g.isNonterminal a = true ∧ ∀ r ∈ g.rules, r.lhs ≠ a := by
  refine warnsExactly_of_filter nodup_nonterminalIds rfl fun a => ?_
  rw [g.mem_nonterminalIds_iff, rulesFor_isEmpty_iff hg]

include hg in
theorem warns_unproductive : g.WarnsExactly .unproductive fun a =>
    g.isNonterminal a = true ∧ (∃ r ∈ g.rules, r.lhs = a) ∧ ¬ g.Generates g.isTerminal a := by
  refine warnsExactly_of_filter nodup_nonterminalIds rfl fun a => ?_
  have hrules : (g.rulesFor a).isEmpty = false ↔ ∃ r ∈ g.rules, r.lhs = a := by
    rw [List.isEmpty_eq_false_iff, rulesFor_ne_nil_iff hg]
    simp
  rw [g.mem_nonterminalIds_iff, Bool.and_eq_true, Bool.not_eq_true', Bool.not_eq_true', hrules,
    ← Bool.not_eq_true, List.contains_iff_mem, mem_productive_iff hg]
  exact and_congr_right fun ha => and_congr_right fun _ => by simp [ha]

include hg in
theorem warns_unreachable : g.WarnsExactly .unreachable fun a =>
    (g.isTerminal a = true ∨ g.isNonterminal a = true) ∧ ¬ g.Occurs a := by
  refine warnsExactly_of_filter nodup_symbolIds rfl fun a => ?_
  rw [List.mem_append, g.mem_terminalIds_iff, g.mem_nonterminalIds_iff, Bool.not_eq_true',
    ← Bool.not_eq_true, List.contains_iff_mem, mem_reachable_iff hg]

end Numbered

/-- The nonterminals found productive are those that derive a string of
terminals, the symbols found reachable those of the forms of the start symbol,
and each warning is given once where it is due. -/
theorem analysis_exact (d : GrammarDef) (g : Grammar) (hd : d.toGrammar = .ok g) :
    (∀ a, a ∈ g.productive ↔ g.isNonterminal a = true ∧ g.Generates g.isTerminal a) ∧
    (∀ a, a ∈ g.reachable ↔ g.Occurs a) ∧
    (g.WarnsExactly .noProductions fun a =>
      g.isNonterminal a = true ∧ ∀ r ∈ g.rules, r.lhs ≠ a) ∧
    (g.WarnsExactly .unproductive fun a => g.isNonterminal a = true ∧
      (∃ r ∈ g.rules, r.lhs = a) ∧ ¬ g.Generates g.isTerminal a) ∧
    (g.WarnsExactly .unreachable fun a =>
      (g.isTerminal a = true ∨ g.isNonterminal a = true) ∧ ¬ g.Occurs a) := by
  have hg := d.toGrammar_numbered g hd
  exact ⟨mem_productive_iff hg, mem_reachable_iff hg, warns_noProductions hg,
    warns_unproductive hg, warns_unreachable hg⟩

/-- A description with a terminal and a nonterminal that nothing uses, and a
nonterminal whose only rule comes back to it. -/
def strayDef : GrammarDef :=
  (((((GrammarDef.empty.addTerminals ["x", "y"]).nonterminal "Bare").rule "Start"
    ["x"]).rule "Start" ["Endless"]).rule "Endless" ["Endless", "x"])

def stray : Grammar where
  terminals := [⟨"x", 0⟩, ⟨"y", 1⟩]
  nonterminals := ["Bare", "Start", "Endless"]
  rules := #[⟨4, [1]⟩, ⟨4, [5]⟩, ⟨5, [5, 1]⟩]
  start := 4

/-- The warnings tell that no form has the unused terminal, that the endless
nonterminal derives no string of terminals, and that the bare one has no rule. -/
theorem analysis_exact_stray : strayDef.toGrammar = .ok stray ∧
    (∃ w, stray.warningsAbout .noProductions 3 = [w]) ∧
    ¬ stray.Generates stray.isTerminal 5 ∧ ¬ stray.Occurs 2 := by
  obtain ⟨hproductive, hreachable, hbare, -, -⟩ :=
    analysis_exact strayDef stray (by decide +kernel)
  refine ⟨by decide +kernel, (hbare 3).1 ⟨by decide, by decide⟩, fun h => ?_, fun h => ?_⟩
  · exact absurd ((hproductive 5).mpr ⟨by decide, h⟩) (by decide +kernel)
  · exact absurd ((hreachable 2).mpr h) (by decide +kernel)

end Grammar
end EarleyChart
