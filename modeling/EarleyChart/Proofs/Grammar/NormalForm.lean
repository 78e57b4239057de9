import EarleyChart.Proofs.Grammar.Acceptance
import EarleyChart.Proofs.Grammar.Renumbering

/-!
The normal form of a description. A description may give a kind that is the position
anyway, declare a nonterminal that has rules, declare one again, and leave out the
start symbol. In its normal form it says the same and does none of this. What a
grammar is written as is the normal form of any description that it was made from.
-/

namespace EarleyChart

def TerminalDef.givesKind : TerminalDef → Bool
  | .named _ => false
  | .withKind _ _ => true

namespace GrammarDef

/-- The declared nonterminals that have no rule, at their first declarations. -/
def bareNonterminals (d : GrammarDef) : List String :=
  d.nonterminals.eraseDups.filter fun name => name ∉ d.rules.map (·.lhs)

/-- One description is the normal form of another: it has the same rules and the same
terminals with their effective kinds, gives a kind where that is not the position,
declares the nonterminals without rules, and names the start symbol. -/
structure NormalForm (d n : GrammarDef) : Prop where
  rules : n.rules = d.rules
  terminals : n.terminalsOf = d.terminalsOf
  kinds : ∀ (index : Nat) (t : TerminalDef), n.terminals[index]? = some t →
    (t.givesKind = true ↔ t.kindAt index ≠ index)
  nonterminals : n.nonterminals = d.bareNonterminals
  start : n.start = d.startName?

variable {d n : GrammarDef} {g : Grammar}

theorem terminalsOf_getElem? (d : GrammarDef) (index : Nat) :
    d.terminalsOf[index]? = (d.terminals[index]?).map fun t => ⟨t.nameOf, t.kindAt index⟩ := by
  simp [terminalsOf, Function.comp_def]

/-- A declaration that gives its kind only where it has to is told by its name and kind. -/
theorem terminalDef_of_kinds {t : TerminalDef} {index : Nat}
    (h : t.givesKind = true ↔ t.kindAt index ≠ index) :
    Grammar.terminalDef ⟨t.nameOf, t.kindAt index⟩ index = t := by
  cases t with
  | named name => exact if_pos rfl
  | withKind name kind => exact if_neg (h.mp rfl)

theorem NormalForm.terminals_eq (h : d.NormalForm n) :
    n.terminals = d.terminalsOf.zipIdx.map fun (t, index) => Grammar.terminalDef t index := by
  refine List.ext_getElem? fun index => ?_
  rw [← h.terminals, List.getElem?_map, List.getElem?_zipIdx, terminalsOf_getElem?, Nat.zero_add]
  cases ht : n.terminals[index]? with
  | none => rfl
  | some t => exact congrArg some (terminalDef_of_kinds (h.kinds index t ht)).symm

/-- A description has one normal form. -/
theorem NormalForm.unique (h : d.NormalForm n) {n' : GrammarDef} (h' : d.NormalForm n') :
    n' = n := by
  obtain ⟨terminals, nonterminals, rules, start⟩ := n
  obtain ⟨terminals', nonterminals', rules', start'⟩ := n'
  obtain rfl := h'.terminals_eq.trans h.terminals_eq.symm
  obtain rfl := h'.nonterminals.trans h.nonterminals.symm
  obtain rfl := h'.rules.trans h.rules.symm
  obtain rfl := h'.start.trans h.start.symm
  rfl

/-- A normal form is its own. -/
theorem NormalForm.self (h : d.NormalForm n) (hstart : d.startName?.isSome = true) :
    n.NormalForm n := by
  constructor
  case rules => rfl
  case terminals => rfl
  case kinds => exact h.kinds
  case nonterminals =>
    have hnodup : n.nonterminals.Nodup := h.nonterminals ▸ (nodup_eraseDups _).filter _
    rw [bareNonterminals, eraseDups_of_nodup hnodup, h.rules]
    refine (List.filter_eq_self.mpr fun name hname => ?_).symm
    rw [h.nonterminals] at hname
    exact (List.mem_filter.mp hname).2
  case start =>
    obtain ⟨name, hname⟩ := Option.isSome_iff_exists.mp hstart
    rw [startName?, h.start, hname]
    rfl

/-- Of all nonterminals that are mentioned, those without rules are declared. -/
theorem filter_nonterminalMentions (d : GrammarDef) :
    (d.nonterminalMentions.eraseDups.filter fun name => name ∉ d.rules.map (·.lhs)) =
      d.bareNonterminals := by
  have hruled : ((d.rules.map (·.lhs)).removeAll d.nonterminals).eraseDups.filter
      (fun name => name ∉ d.rules.map (·.lhs)) = [] := by
    refine List.filter_eq_nil_iff.mpr fun name hname => ?_
    rw [List.mem_eraseDups] at hname
    simpa using (List.mem_filter.mp hname).1
  rw [nonterminalMentions, List.eraseDups_append, List.filter_append, hruled, List.append_nil,
    bareNonterminals]

theorem rules_toDef (h : g.Describes d) : g.toDef.rules = d.rules := by
  refine List.ext_getElem? fun i => ?_
  rw [Grammar.toDef, List.getElem?_map, Array.getElem?_toList]
  cases hr : d.rules[i]? with
  | none =>
      rw [Array.getElem?_eq_none, Option.map_none]
      rw [h.rules]
      exact List.getElem?_eq_none_iff.mp hr
  | some r =>
      obtain ⟨numbered, hnumbered, hlhs, hrhs⟩ := h.rule i r hr
      rw [show g.rules[i]? = some numbered from hnumbered, Option.map_some, hlhs, hrhs]

/-- A nonterminal has no rule if no rule that was described has its name on the left. -/
theorem rulesFor_isEmpty_iff (hg : g.Numbered) (hd : g.Distinct) (h : g.Describes d) {a : SymbolId}
    (ha : g.isNonterminal a = true) :
    (g.rulesFor a).isEmpty = true ↔ g.symbolName a ∉ d.rules.map (·.lhs) := by
  have hruled : g.rulesFor a ≠ [] ↔ g.symbolName a ∈ d.rules.map (·.lhs) := by
    rw [Grammar.rulesFor_ne_nil_iff hg, ← rules_toDef h, Grammar.toDef, List.map_map]
    constructor
    · intro hmem
      obtain ⟨r, hr, rfl⟩ := List.mem_map.mp hmem
      exact List.mem_map.mpr ⟨r, hr, rfl⟩
    · intro hmem
      obtain ⟨r, hr, hname⟩ := List.mem_map.mp hmem
      have hlhs := h.lhs r (Array.mem_toList_iff.mp hr)
      rw [← Symbols.symbolName_inj hg.tabled hd (.inr hlhs) (.inr ha) hname]
      exact List.mem_map_of_mem hr
  rw [List.isEmpty_iff, ← hruled, not_not]

theorem nonterminals_toDef (h : d.toGrammar = .ok g) :
    g.toDef.nonterminals = d.bareNonterminals := by
  have hdescribes := describes_of_ok h
  have hd := toGrammar_distinct h
  have hnonterminals : g.nonterminals = d.nonterminalMentions.eraseDups :=
    congrArg Symbols.nonterminals (toGrammar_ok_iff.mp h).1
  rw [← filter_nonterminalMentions, ← hnonterminals, ← Grammar.map_symbolName_nonterminalIds,
    List.filter_map, Grammar.toDef]
  refine congrArg (List.map g.symbolName) (List.filter_congr fun a ha => ?_)
  have ha := (g.mem_nonterminalIds_iff a).mp ha
  rw [Function.comp_apply, Bool.eq_iff_iff, decide_eq_true_iff]
  exact rulesFor_isEmpty_iff (toGrammar_numbered d g h) hd hdescribes ha

theorem normalForm_toDef (h : d.toGrammar = .ok g) : d.NormalForm g.toDef := by
  have hdescribes := describes_of_ok h
  constructor
  case rules => exact rules_toDef hdescribes
  case terminals =>
    rw [Grammar.terminalsOf_toDef]
    exact congrArg Symbols.terminals (toGrammar_ok_iff.mp h).1
  case kinds =>
    intro index t ht
    rw [Grammar.toDef, List.getElem?_map, List.getElem?_zipIdx, Nat.zero_add] at ht
    obtain ⟨_, hterminal, rfl⟩ := Option.map_eq_some_iff.mp ht
    obtain ⟨terminal, -, rfl⟩ := Option.map_eq_some_iff.mp hterminal
    simp only [Grammar.terminalDef]
    split
    · simp [TerminalDef.givesKind, TerminalDef.kindAt]
    · next hkind => simpa [TerminalDef.givesKind, TerminalDef.kindAt] using hkind
  case nonterminals => exact nonterminals_toDef h
  case start => exact hdescribes.start.2.symm

/-- A grammar is written as the one normal form of the description that it was made from. It
is written so again when that is read. -/
theorem toDef_normal (d : GrammarDef) (g : Grammar) (h : d.toGrammar = .ok g) :
    d.NormalForm g.toDef ∧ (∀ n, d.NormalForm n → n = g.toDef) ∧
      ∃ g', g.toDef.toGrammar = .ok g' ∧ g'.toDef = g.toDef := by
  have hnormal := normalForm_toDef h
  refine ⟨hnormal, fun n hn => hnormal.unique hn, ?_⟩
  have hreload := Grammar.toGrammar_toDef (toGrammar_numbered d g h) (toGrammar_distinct h)
  have hstart : d.startName?.isSome = true := by
    rw [(describes_of_ok h).start.2, Option.isSome_some]
  exact ⟨_, hreload, (hnormal.self hstart).unique (normalForm_toDef hreload)⟩

/-- A description that gives a kind that is the position, declares a nonterminal that has rules
and another one twice, and leaves out the start symbol. -/
def wordy : GrammarDef where
  terminals := [.withKind "num" 0, .withKind "plus" 7, .named "minus"]
  nonterminals := ["Unused", "Sum", "Unused"]
  rules := [⟨"Sum", ["Sum", "plus", "num"]⟩, ⟨"Sum", ["num"]⟩]
  start := none

def wordyGrammar : Grammar where
  terminals := [⟨"num", 0⟩, ⟨"plus", 7⟩, ⟨"minus", 2⟩]
  nonterminals := ["Unused", "Sum"]
  rules := #[⟨5, [5, 2, 1]⟩, ⟨5, [1]⟩]
  start := 5

theorem toDef_normal_wordy : wordy.toGrammar = .ok wordyGrammar ∧
    wordyGrammar.toDef = ⟨[.named "num", .withKind "plus" 7, .named "minus"], ["Unused"],
      [⟨"Sum", ["Sum", "plus", "num"]⟩, ⟨"Sum", ["num"]⟩], some "Sum"⟩ ∧
    wordy.NormalForm wordyGrammar.toDef := by
  have hgrammar : wordy.toGrammar = .ok wordyGrammar := by decide +kernel
  exact ⟨hgrammar, by decide +kernel, (toDef_normal wordy wordyGrammar hgrammar).1⟩

end GrammarDef
end EarleyChart
