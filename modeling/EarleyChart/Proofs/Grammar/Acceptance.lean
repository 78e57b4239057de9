import EarleyChart.Proofs.Grammar.Numbering

/-!
Which descriptions are grammars, and what a grammar takes over from its
description. Each part of the numbering succeeds under a condition of its own:
the terminals if no name and no kind comes twice, the nonterminals if none has
the name of a terminal, the rules if every name on a right-hand side is known,
and the start symbol if it is a nonterminal. Names and numbers then stand for
each other, as token kinds and terminals do.
-/

namespace EarleyChart

namespace Symbols

variable {s : Symbols} (hs : s.Tabled)

include hs in
theorem map_symbolName_of_map_symbol? {names : List String} {out : List SymbolId}
    (h : names.map s.symbol? = out.map some) : out.map s.symbolName = names := by
  induction names generalizing out with
  | nil => simpa using h
  | cons name names ih =>
      cases out with
      | nil => simp at h
      | cons a out =>
          obtain ⟨ha, hrest⟩ := List.cons.inj h
          rw [List.map_cons, symbolName_symbol? hs ha, ih hrest]

include hs in
theorem mem_nonterminals_of_symbol? {name : String} {a : SymbolId} (h : s.symbol? name = some a)
    (ha : s.isNonterminal a = true) : name ∈ s.nonterminals := by
  obtain ⟨i, other, rfl, hother⟩ := nonterminal_at ha
  rw [← symbolName_symbol? hs h, symbolName_of_nonterminal hother]
  exact List.mem_of_getElem? hother

end Symbols

namespace GrammarDef

/-- Rules can be numbered if every name on a right-hand side is known. -/
theorem exists_numbers_iff {symbols : Symbols} (rules : List RuleDef) :
    (∃ out, List.Forall₂ (Numbers symbols) rules out) ↔
      ∀ r ∈ rules, ∀ name ∈ r.rhs, (symbols.symbol? name).isSome = true := by
  constructor
  · rintro ⟨out, h⟩ r hr name hname
    obtain ⟨i, hi, rfl⟩ := List.getElem_of_mem hr
    obtain ⟨-, hrhs⟩ := h.get hi (h.length_eq ▸ hi)
    have hmem : symbols.symbol? name ∈ List.map some (out.get ⟨i, h.length_eq ▸ hi⟩).rhs :=
      hrhs ▸ List.mem_map_of_mem hname
    obtain ⟨a, -, ha⟩ := List.mem_map.mp hmem
    rw [← ha, Option.isSome_some]
  · intro h
    have hrow : ∀ r ∈ rules, ∃ numbered, Numbers symbols r numbered := by
      intro r hr
      have hknown : ∀ name ∈ r.rhs, ∃ a, symbols.symbol? name = some a := fun name hname =>
        Option.isSome_iff_exists.mp (h r hr name hname)
      choose! a ha using hknown
      refine ⟨⟨_, r.rhs.map a⟩, rfl, ?_⟩
      rw [List.map_map]
      exact List.map_congr_left ha
    choose! number hnumber using hrow
    exact ⟨rules.map number, List.forall₂_map_right_iff.mpr (List.forall₂_same.mpr hnumber)⟩

/-! ### Descriptions that are grammars -/

structure Admissible (d : GrammarDef) : Prop where
  names : (d.terminals.map (·.nameOf)).Nodup
  kinds : (d.terminals.zipIdx.map fun (t, index) => t.kindAt index).Nodup
  lefts : ∀ name ∈ d.nonterminalMentions, name ∉ d.terminals.map (·.nameOf)
  rights : ∀ r ∈ d.rules, ∀ name ∈ r.rhs,
    name ∈ d.terminals.map (·.nameOf) ∨ name ∈ d.nonterminalMentions
  start : ∃ name, d.startName? = some name ∧ name ∈ d.nonterminalMentions

theorem map_name_terminalsOf (d : GrammarDef) :
    d.terminalsOf.map (·.name) = d.terminals.map (·.nameOf) := by
  rw [terminalsOf, List.map_map, ← List.zipIdx_map_fst 0 d.terminals, List.map_map]
  simp [Function.comp_def]

theorem map_kind_terminalsOf (d : GrammarDef) :
    d.terminalsOf.map (·.kind) = d.terminals.zipIdx.map fun (t, index) => t.kindAt index := by
  rw [terminalsOf, List.map_map]
  rfl

theorem symbol?_symbolsOf_isSome_iff (d : GrammarDef) (name : String) :
    (d.symbolsOf.symbol? name).isSome = true ↔
      name ∈ d.terminals.map (·.nameOf) ∨ name ∈ d.nonterminalMentions := by
  rw [Symbols.symbol?_isSome_iff d.symbolsOf_tabled, symbolsOf, map_name_terminalsOf,
    List.mem_eraseDups]

theorem toGrammar_ok_iff_admissible (d : GrammarDef) :
    (∃ g, d.toGrammar = .ok g) ↔ d.Admissible := by
  simp only [toGrammar_ok_iff, map_name_terminalsOf, map_kind_terminalsOf]
  constructor
  · rintro ⟨g, hsymbols, -, ⟨hnames, hkinds⟩, hlefts, hrules, hstart⟩
    rw [hsymbols] at hrules hstart
    refine ⟨hnames, hkinds, hlefts, fun r hr name hname => ?_, ?_⟩
    · exact (d.symbol?_symbolsOf_isSome_iff name).mp
        ((exists_numbers_iff d.rules).mp ⟨_, hrules⟩ r hr name hname)
    · obtain ⟨name, hname, hsymbol, hnonterminal⟩ :=
        (numberStart_ok_iff d.symbolsOf_tabled d g.start).mp hstart
      have hmem := Symbols.mem_nonterminals_of_symbol? d.symbolsOf_tabled hsymbol hnonterminal
      exact ⟨name, hname, List.mem_eraseDups.mp hmem⟩
  · intro h
    have hknown : ∀ r ∈ d.rules, ∀ name ∈ r.rhs, (d.symbolsOf.symbol? name).isSome = true :=
      fun r hr name hname => (d.symbol?_symbolsOf_isSome_iff name).mpr (h.rights r hr name hname)
    obtain ⟨rules, hrules⟩ := (exists_numbers_iff d.rules).mpr hknown
    obtain ⟨name, hname, hmention⟩ := h.start
    obtain ⟨start, hsymbol, hstart⟩ := nonterminal_of_mention
      (by simpa only [map_name_terminalsOf] using h.lefts) hmention
    refine ⟨{ d.symbolsOf with rules := rules.toArray, start }, rfl, rfl, ⟨h.names, h.kinds⟩,
      h.lefts, hrules, ?_⟩
    exact (numberStart_ok_iff d.symbolsOf_tabled d start).mpr ⟨name, hname, hsymbol, hstart⟩

end GrammarDef

/-! ### What a grammar takes over from its description -/

structure Grammar.Describes (g : Grammar) (d : GrammarDef) : Prop where
  terminalCount : g.terminalCount = d.terminals.length
  terminal : ∀ i t, d.terminals[i]? = some t →
    g.symbolName (i + 1) = t.nameOf ∧ g.kindOf? (i + 1) = some (t.kindAt i)
  nonterminalCount : g.nonterminalCount = d.nonterminalMentions.eraseDups.length
  nonterminal : ∀ i name, d.nonterminalMentions.eraseDups[i]? = some name →
    g.symbolName (g.terminalCount + 1 + i) = name
  symbol : ∀ name a, g.symbol? name = some a ↔
    (1 ≤ a ∧ a ≤ g.symbolCount) ∧ g.symbolName a = name
  kind : ∀ kind a, g.terminalForKind? kind = some a ↔ g.kindOf? a = some kind
  kindOf : ∀ a, (g.kindOf? a).isSome = true ↔ g.isTerminal a = true
  rules : g.rules.size = d.rules.length
  rule : ∀ i r, d.rules[i]? = some r → ∃ numbered, g.rule? i = some numbered ∧
    g.symbolName numbered.lhs = r.lhs ∧ numbered.rhs.map g.symbolName = r.rhs
  lhs : ∀ r ∈ g.rules, g.isNonterminal r.lhs = true
  rhs : ∀ r ∈ g.rules, ∀ s ∈ r.rhs, 1 ≤ s ∧ s ≤ g.symbolCount
  start : g.isNonterminal g.start = true ∧ d.startName? = some (g.symbolName g.start)
  rulesFor : ∀ a, (g.rulesFor a).Pairwise (· < ·) ∧
    ∀ rule, rule ∈ g.rulesFor a ↔ ∃ r, g.rule? rule = some r ∧ r.lhs = a

namespace GrammarDef

theorem describes_of_ok {d : GrammarDef} {g : Grammar} (h : d.toGrammar = .ok g) :
    g.Describes d := by
  have hnumbered := d.toGrammar_numbered g h
  have hdistinct := toGrammar_distinct h
  obtain ⟨hsymbols, -, -, hlefts, hrules, hstart⟩ := toGrammar_ok_iff.mp h
  have hs := hnumbered.tabled
  have hterminals : g.terminals = d.terminalsOf := congrArg Symbols.terminals hsymbols
  have hnonterminals : g.nonterminals = d.nonterminalMentions.eraseDups :=
    congrArg Symbols.nonterminals hsymbols
  constructor
  case terminalCount => rw [Symbols.terminalCount, hterminals, terminalsOf]; simp
  case terminal =>
    intro i t ht
    have hi : g.terminals[i]? = some ⟨t.nameOf, t.kindAt i⟩ := by
      rw [hterminals, terminalsOf]
      simp [ht]
    exact ⟨Symbols.symbolName_of_terminal hi, Symbols.kindOf?_terminal hi⟩
  case nonterminalCount => rw [Symbols.nonterminalCount, hnonterminals]
  case nonterminal =>
    intro i name hname
    exact Symbols.symbolName_of_nonterminal (hnonterminals ▸ hname)
  case symbol => exact Symbols.symbol?_eq_some_iff hs hdistinct
  case kind => exact Symbols.terminalForKind?_eq_some_iff hs hdistinct
  case kindOf => exact Symbols.kindOf?_isSome_iff
  case rules => simpa using hrules.length_eq.symm
  case rule =>
    intro i r hr
    obtain ⟨hi, rfl⟩ := List.getElem?_eq_some_iff.mp hr
    have hsize := hrules.length_eq
    obtain ⟨hlhs, hrhs⟩ := hrules.get hi (hsize ▸ hi)
    have hmention : (d.rules[i]).lhs ∈ d.nonterminalMentions :=
      List.mem_append_right _ (List.mem_map_of_mem (List.getElem_mem hi))
    obtain ⟨a, ha, -⟩ := nonterminal_of_mention hlefts hmention
    refine ⟨g.rules.toList.get ⟨i, hsize ▸ hi⟩, by simp [Grammar.rule?], ?_, ?_⟩
    · rw [hlhs, hsymbols, List.get_eq_getElem, ha]
      exact Symbols.symbolName_symbol? d.symbolsOf_tabled ha
    · exact Symbols.map_symbolName_of_map_symbol? hs hrhs
  case lhs => exact hnumbered.lhs
  case rhs => exact fun r hr s hs => (Symbols.range_iff s).mp (hnumbered.rhs r hr s hs)
  case start =>
    obtain ⟨name, hname, hsymbol, -⟩ := (numberStart_ok_iff hs d g.start).mp hstart
    exact ⟨hnumbered.start, by rw [hname, Symbols.symbolName_symbol? hs hsymbol]⟩
  case rulesFor =>
    refine fun a => ⟨?_, fun rule => Grammar.mem_rulesFor_iff hnumbered rule a⟩
    rw [Grammar.rulesFor_eq hnumbered]
    exact List.pairwise_lt_range.filter _

/-- A description is a grammar exactly if it is admissible, and the grammar then
stands for what the description says. -/
theorem toGrammar_exact (d : GrammarDef) : ((∃ g, d.toGrammar = .ok g) ↔ d.Admissible) ∧
    ∀ g, d.toGrammar = .ok g → g.Describes d :=
  ⟨d.toGrammar_ok_iff_admissible, fun _ h => describes_of_ok h⟩

/-- A description with one kind given and one taken from the position, with a nonterminal
that has no rule, and without a start symbol. -/
def sumDef : GrammarDef :=
  (((((GrammarDef.empty.terminalWithKind "num" 7).terminal "plus").nonterminal "Unused").rule
    "Sum" ["Sum", "plus", "num"]).rule "Sum" ["num"])

def sumGrammar : Grammar where
  terminals := [⟨"num", 7⟩, ⟨"plus", 1⟩]
  nonterminals := ["Unused", "Sum"]
  rules := #[⟨4, [4, 2, 1]⟩, ⟨4, [1]⟩]
  start := 4

theorem toGrammar_exact_sum :
    sumDef.Admissible ∧ sumDef.toGrammar = .ok sumGrammar ∧ sumGrammar.Describes sumDef := by
  have hsum : sumDef.toGrammar = .ok sumGrammar := by decide +kernel
  obtain ⟨hiff, hdescribes⟩ := sumDef.toGrammar_exact
  exact ⟨hiff.mp ⟨sumGrammar, hsum⟩, hsum, hdescribes sumGrammar hsum⟩

end GrammarDef
end EarleyChart
