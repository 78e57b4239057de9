import EarleyChart.Grammar.Generating
import EarleyChart.Proofs.Grammar.Numbering

/-!
A grammar that is written as a description and read again. The description
declares the nonterminals without rules, so that these are numbered first, and
the others in the order of their first rules. Reading it never fails, and it
changes the numbers of nonterminals only; all numbers are the same where the
nonterminals stood in that order before.
-/

namespace EarleyChart

theorem getElem?_concat_iff {α : Type} (xs : List α) (x : α) (i : Nat) (y : α) :
    (xs ++ [x])[i]? = some y ↔ xs[i]? = some y ∨ i = xs.length ∧ x = y := by
  grind

/-- Every element of a list follows all smaller ones. -/
def Ascends (xs : List Nat) : Prop :=
  ∀ (i b : Nat), xs[i]? = some b → ∀ a ∈ xs, a < b → ∃ j < i, xs[j]? = some a

theorem ascends_concat_iff (xs : List Nat) (x : Nat) :
    Ascends (xs ++ [x]) ↔ Ascends xs ∧ (x ∉ xs → ∀ a ∈ xs, a < x) := by
  constructor
  · intro h
    constructor
    · intro i b hb a ha hless
      have hi := (getElem?_concat_iff xs x i b).mpr (.inl hb)
      obtain ⟨j, hj, ha⟩ := h i b hi a (by simp [ha]) hless
      have hlt := (List.getElem?_eq_some_iff.mp hb).1
      rcases (getElem?_concat_iff xs x j a).mp ha with ha | ⟨hlast, -⟩
      · exact ⟨j, hj, ha⟩
      · omega
    · intro hx a ha
      by_contra hle
      have hless : x < a := Nat.lt_of_le_of_ne (Nat.le_of_not_lt hle) fun heq => hx (heq ▸ ha)
      obtain ⟨i, hi⟩ := List.getElem?_of_mem ha
      have hlt := (List.getElem?_eq_some_iff.mp hi).1
      obtain ⟨j, hj, hfirst⟩ :=
        h i a ((getElem?_concat_iff xs x i a).mpr (.inl hi)) x (by simp) hless
      rcases (getElem?_concat_iff xs x j x).mp hfirst with hmem | ⟨hlast, -⟩
      · exact hx (List.mem_of_getElem? hmem)
      · omega
  · rintro ⟨hxs, hx⟩ i b hb a ha hless
    rcases (getElem?_concat_iff xs x i b).mp hb with hb | ⟨rfl, rfl⟩
    · have hmem : a ∈ xs := by
        rcases List.mem_append.mp ha with ha | ha
        · exact ha
        · obtain rfl := List.mem_singleton.mp ha
          by_contra hnew
          rcases (getElem?_concat_iff xs a i b).mp hb with hb | ⟨-, rfl⟩
          · exact Nat.lt_asymm hless (hx hnew b (List.mem_of_getElem? hb))
          · exact Nat.lt_irrefl a hless
      obtain ⟨j, hj, ha⟩ := hxs i b hb a hmem hless
      exact ⟨j, hj, (getElem?_concat_iff xs x j a).mpr (.inl ha)⟩
    · have hmem : a ∈ xs := (List.mem_append.mp ha).resolve_right fun ha =>
        Nat.ne_of_lt hless (List.mem_singleton.mp ha)
      obtain ⟨j, hj⟩ := List.getElem?_of_mem hmem
      have hlt := (List.getElem?_eq_some_iff.mp hj).1
      exact ⟨j, hlt, (getElem?_concat_iff xs x j a).mpr (.inl hj)⟩

/-- First occurrences are in order where every element follows all smaller ones. -/
theorem pairwise_eraseDups_iff (xs : List Nat) :
    xs.eraseDups.Pairwise (· < ·) ↔ Ascends xs := by
  induction xs using List.reverseRecOn with
  | nil => simp [Ascends]
  | append_singleton xs x ih =>
      rw [ascends_concat_iff, eraseDups_concat, List.pairwise_append, ih]
      refine and_congr_right fun _ => ?_
      split
      · next hx => simp [hx]
      · next hx => simp [hx]

namespace Grammar

variable (g : Grammar)

def mentions : List SymbolId :=
  (g.nonterminalIds.filter fun a => (g.rulesFor a).isEmpty) ++ g.rules.toList.map (·.lhs)

def mentionOrder : List SymbolId := g.mentions.eraseDups

def numberIn (order : List SymbolId) (symbol : SymbolId) : SymbolId :=
  if g.isTerminal symbol then symbol else g.terminalCount + 1 + order.idxOf symbol

def renumbered (order : List SymbolId) : Grammar where
  terminals := g.terminals
  nonterminals := order.map g.symbolName
  rules := g.rules.map fun r => ⟨g.numberIn order r.lhs, r.rhs.map (g.numberIn order)⟩
  start := g.numberIn order g.start

/-- Nonterminals without rules come before all others, and those in the order of their
first rules. -/
structure RuleOrdered : Prop where
  bare : ∀ a b, g.isNonterminal a = true → g.isNonterminal b = true → g.rulesFor a = [] →
    g.rulesFor b ≠ [] → a < b
  ruled : ∀ a b, a < b → g.rulesFor a ≠ [] → ∀ rule ∈ g.rulesFor b,
    ∃ earlier ∈ g.rulesFor a, earlier < rule

/-- Two grammars have the same number for every name, the same kind for every terminal,
the same rules and flags by number, and the same start symbol. -/
structure SameNumbers (g g' : Grammar) : Prop where
  symbol : ∀ name, g'.symbol? name = g.symbol? name
  kind : ∀ symbol, g'.kindOf? symbol = g.kindOf? symbol
  rules : g'.rules = g.rules
  nullable : ∀ symbol, g'.nullable symbol = g.nullable symbol
  start : g'.start = g.start

variable {g}

section order

variable (hg : g.Numbered)

include hg in
theorem lhs_nonterminal_of_rulesFor {a : SymbolId} (h : g.rulesFor a ≠ []) :
    g.isNonterminal a = true := by
  obtain ⟨r, hr, rfl⟩ := List.mem_map.mp ((rulesFor_ne_nil_iff hg a).mp h)
  exact hg.lhs r (by simpa using hr)

include hg in
theorem mem_mentionOrder (a : SymbolId) : a ∈ g.mentionOrder ↔ g.isNonterminal a = true := by
  rw [mentionOrder, List.mem_eraseDups, mentions, List.mem_append, List.mem_filter,
    g.mem_nonterminalIds_iff, List.isEmpty_iff, ← rulesFor_ne_nil_iff hg]
  constructor
  · rintro (h | h)
    · exact h.1
    · exact lhs_nonterminal_of_rulesFor hg h
  · intro h
    by_cases hbare : g.rulesFor a = []
    · exact .inl ⟨h, hbare⟩
    · exact .inr hbare

theorem nodup_mentionOrder : g.mentionOrder.Nodup := nodup_eraseDups _

include hg in
/-- The nonterminals without rules come first. -/
theorem mentionOrder_eq : g.mentionOrder =
    (g.nonterminalIds.filter fun a => (g.rulesFor a).isEmpty) ++
      (g.rules.toList.map (·.lhs)).eraseDups := by
  have hruled : (g.rules.toList.map (·.lhs)).removeAll
      (g.nonterminalIds.filter fun a => (g.rulesFor a).isEmpty) =
        g.rules.toList.map (·.lhs) := by
    refine List.filter_eq_self.mpr fun a ha => ?_
    rw [← rulesFor_ne_nil_iff hg, Ne, ← List.isEmpty_iff] at ha
    simp [ha]
  rw [mentionOrder, mentions, List.eraseDups_append, hruled,
    eraseDups_of_nodup (nodup_nonterminalIds.filter _)]

include hg in
theorem ruleOrdered_iff : g.RuleOrdered ↔ g.mentionOrder.Pairwise (· < ·) := by
  have hascends : Ascends (g.rules.toList.map (·.lhs)) ↔
      ∀ a b, a < b → g.rulesFor a ≠ [] → ∀ rule ∈ g.rulesFor b,
        ∃ earlier ∈ g.rulesFor a, earlier < rule := by
    simp only [Ascends, rule?_eq_some_iff hg, ← rulesFor_ne_nil_iff hg]
    constructor
    · intro h a b hless ha rule hrule
      obtain ⟨earlier, hlt, hmem⟩ := h rule b hrule a ha hless
      exact ⟨earlier, hmem, hlt⟩
    · intro h rule b hrule a ha hless
      obtain ⟨earlier, hmem, hlt⟩ := h a b hless ha rule hrule
      exact ⟨earlier, hlt, hmem⟩
  have hbare : (g.nonterminalIds.filter fun a => (g.rulesFor a).isEmpty).Pairwise (· < ·) :=
    List.Pairwise.filter _ (List.pairwise_lt_range' 1)
  rw [mentionOrder_eq hg, List.pairwise_append, pairwise_eraseDups_iff, hascends]
  simp only [List.mem_filter, g.mem_nonterminalIds_iff, List.isEmpty_iff, List.mem_eraseDups,
    ← rulesFor_ne_nil_iff hg]
  constructor
  · intro h
    refine ⟨hbare, h.ruled, ?_⟩
    rintro a ⟨ha, hnone⟩ b hb
    exact h.bare a b ha (lhs_nonterminal_of_rulesFor hg hb) hnone hb
  · rintro ⟨-, hruled, hbefore⟩
    exact ⟨fun a b ha _ hnone hb => hbefore a ⟨ha, hnone⟩ b hb, hruled⟩

end order

section numberIn

variable (hg : g.Numbered)

theorem numberIn_of_terminal (order : List SymbolId) {a : SymbolId}
    (h : g.isTerminal a = true) : g.numberIn order a = a := if_pos h

theorem numberIn_of_nonterminal (order : List SymbolId) {a : SymbolId}
    (h : g.isNonterminal a = true) :
    g.numberIn order a = g.terminalCount + 1 + order.idxOf a := by
  refine if_neg fun hterminal => ?_
  rw [g.not_isNonterminal_of_isTerminal a hterminal] at h
  contradiction

/-- Without another order no number changes. -/
theorem numberIn_nonterminalIds {a : SymbolId}
    (h : g.isTerminal a = true ∨ g.isNonterminal a = true) :
    g.numberIn g.nonterminalIds a = a := by
  cases h with
  | inl h => exact numberIn_of_terminal _ h
  | inr h =>
      obtain ⟨i, _, rfl, hi⟩ := Symbols.nonterminal_at h
      have hlt : i < g.nonterminalIds.length := by
        simpa [Symbols.nonterminalIds, Symbols.nonterminalCount] using
          (List.getElem?_eq_some_iff.mp hi).1
      have hid : g.nonterminalIds[i] = g.terminalCount + 1 + i := by
        simp [Symbols.nonterminalIds]
      rw [numberIn_of_nonterminal _ h, ← hid, nodup_nonterminalIds.idxOf_getElem i hlt, hid]

theorem map_symbolName_nonterminalIds :
    g.nonterminalIds.map g.symbolName = g.nonterminals := by
  refine List.ext_getElem ?_ fun i hi hname => ?_
  · simp [Symbols.nonterminalIds, Symbols.nonterminalCount]
  · simp only [List.getElem_map, Symbols.nonterminalIds, List.getElem_range', Nat.one_mul]
    exact Symbols.symbolName_of_nonterminal (List.getElem?_eq_getElem hname)

include hg in
theorem renumbered_nonterminalIds : g.renumbered g.nonterminalIds = g := by
  have hrules : g.rules.map (fun r =>
      ⟨g.numberIn g.nonterminalIds r.lhs, r.rhs.map (g.numberIn g.nonterminalIds)⟩) =
        g.rules := by
    refine Array.ext (by simp) fun i _ hi => ?_
    rw [Array.getElem_map, numberIn_nonterminalIds (.inr (hg.lhs _ (Array.getElem_mem hi))),
      List.map_congr_left fun s hs =>
        numberIn_nonterminalIds (hg.rhs _ (Array.getElem_mem hi) s hs), List.map_id']
  rw [renumbered, map_symbolName_nonterminalIds, hrules, numberIn_nonterminalIds (.inr hg.start)]
  obtain ⟨⟨terminals, nonterminals, byName, byKind⟩, rules, start, productions⟩ := g
  obtain rfl : byName = nameTable terminals nonterminals := hg.tabled.byName
  obtain rfl : byKind = kindTable terminals := hg.tabled.byKind
  exact congrArg _ hg.productions.symm

end numberIn

section reload

variable (hg : g.Numbered) (hd : g.Distinct)

theorem terminalsOf_toDef : g.toDef.terminalsOf = g.terminals := by
  refine List.ext_getElem (by simp [GrammarDef.terminalsOf, toDef]) fun i _ hi => ?_
  simp only [GrammarDef.terminalsOf, toDef, terminalDef, List.getElem_map, List.getElem_zipIdx]
  split
  · next hkind => simp [TerminalDef.nameOf, TerminalDef.kindAt, ← hkind]
  · rfl

theorem nonterminalMentions_toDef :
    g.toDef.nonterminalMentions = g.mentions.map g.symbolName := by
  simp [GrammarDef.nonterminalMentions, toDef, mentions]

include hg hd in
theorem nodup_mentionOrder_names : (g.mentionOrder.map g.symbolName).Nodup :=
  List.Nodup.map_on (fun a ha b hb => Symbols.symbolName_inj hg.tabled hd
    (.inr ((mem_mentionOrder hg a).mp ha)) (.inr ((mem_mentionOrder hg b).mp hb)))
    nodup_mentionOrder

include hg hd in
/-- The name of a symbol leads to its new number. -/
theorem symbol?_renumbered {symbol : SymbolId}
    (h : g.isTerminal symbol = true ∨ g.isNonterminal symbol = true) :
    (g.renumbered g.mentionOrder).toSymbols.symbol? (g.symbolName symbol) =
      some (g.numberIn g.mentionOrder symbol) := by
  cases h with
  | inl h =>
      rw [numberIn_of_terminal _ h]
      obtain ⟨i, t, rfl, ht⟩ := Symbols.terminal_at h
      rw [Symbols.symbolName_of_terminal ht]
      exact Symbols.symbol?_of_terminal (s := (g.renumbered g.mentionOrder).toSymbols)
        ⟨rfl, rfl⟩ hd.terminals ht
  | inr h =>
      rw [numberIn_of_nonterminal _ h]
      have hlt := List.idxOf_lt_length_of_mem ((mem_mentionOrder hg symbol).mpr h)
      have hname : (g.renumbered g.mentionOrder).nonterminals[g.mentionOrder.idxOf symbol]? =
          some (g.symbolName symbol) := by
        rw [renumbered, List.getElem?_map, List.getElem?_eq_getElem hlt,
          List.getElem_idxOf hlt]
        rfl
      refine Symbols.symbol?_of_nonterminal_at ⟨rfl, rfl⟩ (nodup_mentionOrder_names hg hd) hname ?_
      obtain ⟨i, name, rfl, hi⟩ := Symbols.nonterminal_at h
      rw [Symbols.symbolName_of_nonterminal hi]
      exact hd.apart name (List.mem_of_getElem? hi)

end reload

end Grammar

namespace Grammar

/-- Reading the description of a grammar never fails; it puts the nonterminals into the
order in which the description mentions them. -/
theorem toGrammar_toDef {g : Grammar} (hg : g.Numbered) (hd : g.Distinct) :
    g.toDef.toGrammar = .ok (g.renumbered g.mentionOrder) := by
  have hnonterminal : ∀ a ∈ g.mentions, g.isNonterminal a = true := fun a ha =>
    (mem_mentionOrder hg a).mp (List.mem_eraseDups.mpr ha)
  rw [GrammarDef.toGrammar_ok_iff, GrammarDef.symbolsOf, terminalsOf_toDef,
    nonterminalMentions_toDef]
  refine ⟨?symbols, rfl, ⟨hd.terminals, hd.kinds⟩, ?lefts, ?rules, ?start⟩
  case symbols =>
    rw [eraseDups_map _ _ fun a ha b hb => Symbols.symbolName_inj hg.tabled hd
      (.inr (hnonterminal a ha)) (.inr (hnonterminal b hb))]
    rfl
  case lefts =>
    intro name hname
    obtain ⟨a, ha, rfl⟩ := List.mem_map.mp hname
    obtain ⟨i, name, rfl, hi⟩ := Symbols.nonterminal_at (hnonterminal a ha)
    rw [Symbols.symbolName_of_nonterminal hi]
    exact hd.apart name (List.mem_of_getElem? hi)
  case rules =>
    simp only [renumbered, toDef, Array.toList_map, List.forall₂_map_left_iff,
      List.forall₂_map_right_iff]
    refine List.forall₂_same.mpr fun r hr => ⟨?_, ?_⟩
    · have hlhs := symbol?_renumbered hg hd (.inr (hg.lhs r (Array.mem_toList_iff.mp hr)))
      exact (congrArg (·.getD 0) hlhs).symm
    · rw [List.map_map, List.map_map]
      exact List.map_congr_left fun s hs =>
        symbol?_renumbered hg hd (hg.rhs r (Array.mem_toList_iff.mp hr) s hs)
  case start =>
    have hnot : (g.renumbered g.mentionOrder).isTerminal (g.numberIn g.mentionOrder g.start) =
        false := by
      rw [numberIn_of_nonterminal _ hg.start, Bool.eq_false_iff, Ne, Symbols.isTerminal_iff]
      simp only [renumbered, Symbols.terminalCount]
      omega
    have hname : g.toDef.startName? = some (g.symbolName g.start) := rfl
    simp only [GrammarDef.numberStart, hname, symbol?_renumbered hg hd (.inr hg.start), hnot,
      Bool.false_eq_true, if_false]
    rfl

/-- The new numbers are the old ones exactly where the nonterminals stand in the order of
the description. -/
theorem sameNumbers_renumbered_iff {g : Grammar} (hg : g.Numbered) (hd : g.Distinct) :
    g.SameNumbers (g.renumbered g.mentionOrder) ↔ g.RuleOrdered := by
  rw [ruleOrdered_iff hg]
  constructor
  · intro h
    refine List.pairwise_iff_getElem.mpr fun i j hi hj hless => ?_
    have hplace : ∀ i (hi : i < g.mentionOrder.length),
        g.mentionOrder[i] = g.terminalCount + 1 + i := by
      intro i hi
      have ha := (mem_mentionOrder hg _).mp (List.getElem_mem hi)
      have hname := h.symbol (g.symbolName g.mentionOrder[i])
      rw [Symbols.symbol?_symbolName hg.tabled hd (.inr ha)] at hname
      have hnew := symbol?_renumbered hg hd (.inr ha)
      rw [numberIn_of_nonterminal _ ha, nodup_mentionOrder.idxOf_getElem i hi] at hnew
      exact Option.some.inj (hname.symm.trans hnew)
    rw [hplace i hi, hplace j hj]
    exact Nat.add_lt_add_left hless _
  · intro h
    have hsame : g.mentionOrder = g.nonterminalIds := by
      refine List.Perm.eq_of_pairwise (fun a b _ _ hab hba => absurd hab (Nat.lt_asymm hba)) h
        (List.pairwise_lt_range' 1) ?_
      refine (List.perm_ext_iff_of_nodup nodup_mentionOrder nodup_nonterminalIds).mpr fun a => ?_
      rw [mem_mentionOrder hg, g.mem_nonterminalIds_iff]
    rw [hsame, renumbered_nonterminalIds hg]
    exact ⟨fun _ => rfl, fun _ => rfl, rfl, fun _ => rfl, rfl⟩

section again

variable {g : Grammar} (hg : g.Numbered) (hd : g.Distinct)

include hg in
theorem numberIn_inj {a b : SymbolId} (ha : g.isNonterminal a = true)
    (hb : g.isNonterminal b = true) :
    g.numberIn g.mentionOrder a = g.numberIn g.mentionOrder b ↔ a = b := by
  rw [numberIn_of_nonterminal _ ha, numberIn_of_nonterminal _ hb, Nat.add_left_cancel_iff]
  exact List.idxOf_inj ((mem_mentionOrder hg a).mpr ha)

include hg in
theorem nonterminalIds_renumbered : (g.renumbered g.mentionOrder).nonterminalIds =
    g.mentionOrder.map (g.numberIn g.mentionOrder) := by
  refine List.ext_getElem ?_ fun i hi hmap => ?_
  · simp [Symbols.nonterminalIds, Symbols.nonterminalCount, renumbered]
  · have hlt : i < g.mentionOrder.length := by simpa using hmap
    have ha := (mem_mentionOrder hg _).mp (List.getElem_mem hlt)
    rw [List.getElem_map, numberIn_of_nonterminal _ ha, nodup_mentionOrder.idxOf_getElem i hlt]
    simp [Symbols.nonterminalIds, Symbols.terminalCount, renumbered]

include hg hd in
/-- A nonterminal keeps its rules. -/
theorem rulesFor_renumbered {a : SymbolId} (ha : g.isNonterminal a = true) :
    (g.renumbered g.mentionOrder).rulesFor (g.numberIn g.mentionOrder a) = g.rulesFor a := by
  have hsize : (g.renumbered g.mentionOrder).rules.size = g.rules.size := by simp [renumbered]
  have hg' := GrammarDef.toGrammar_numbered _ _ (toGrammar_toDef hg hd)
  rw [rulesFor_eq hg, rulesFor_eq hg', hsize]
  refine List.filter_congr fun rule hrule => ?_
  have hlt := List.mem_range.mp hrule
  have hlhs := hg.lhs _ (Array.getElem_mem hlt)
  simp only [rule?, renumbered, Array.getElem?_map, Array.getElem?_eq_getElem hlt,
    Option.map_some, Option.any_some]
  rw [Bool.eq_iff_iff, beq_iff_eq, beq_iff_eq]
  exact numberIn_inj hg hlhs ha

include hg hd in
theorem mentions_renumbered : (g.renumbered g.mentionOrder).mentions =
    g.mentions.map (g.numberIn g.mentionOrder) := by
  have hbare : g.mentionOrder.filter (fun a => (g.rulesFor a).isEmpty) =
      g.nonterminalIds.filter fun a => (g.rulesFor a).isEmpty := by
    have hruled : (g.rules.toList.map (·.lhs)).eraseDups.filter
        (fun a => (g.rulesFor a).isEmpty) = [] := by
      refine List.filter_eq_nil_iff.mpr fun a ha => ?_
      rw [List.mem_eraseDups, ← rulesFor_ne_nil_iff hg] at ha
      simpa using ha
    rw [mentionOrder_eq hg, List.filter_append, hruled, List.append_nil, List.filter_filter]
    simp only [Bool.and_self]
  have hids : (g.renumbered g.mentionOrder).nonterminalIds.filter
      (fun a => ((g.renumbered g.mentionOrder).rulesFor a).isEmpty) =
        (g.nonterminalIds.filter fun a => (g.rulesFor a).isEmpty).map
          (g.numberIn g.mentionOrder) := by
    rw [nonterminalIds_renumbered hg, List.filter_map, ← hbare]
    refine congrArg _ (List.filter_congr fun a ha => ?_)
    rw [Function.comp_apply, rulesFor_renumbered hg hd ((mem_mentionOrder hg a).mp ha)]
  rw [mentions, hids, mentions, List.map_append]
  simp [renumbered]

include hg hd in
/-- A grammar that was read from a description of a grammar is in the order of its own
description. -/
theorem mentionOrder_renumbered :
    (g.renumbered g.mentionOrder).mentionOrder =
      (g.renumbered g.mentionOrder).nonterminalIds := by
  have hnonterminal : ∀ a ∈ g.mentions, g.isNonterminal a = true := fun a ha =>
    (mem_mentionOrder hg a).mp (List.mem_eraseDups.mpr ha)
  rw [mentionOrder, mentions_renumbered hg hd, nonterminalIds_renumbered hg, eraseDups_map]
  · rfl
  · exact fun a ha b hb => (numberIn_inj hg (hnonterminal a ha) (hnonterminal b hb)).mp

end again

/-- The description of a grammar can always be read. This puts the nonterminals into the
order in which the description mentions them, so that names, rules, flags and the start
symbol keep their numbers exactly where the nonterminals stood in that order; from then on
nothing changes. -/
theorem reload_numbering (d : GrammarDef) (g : Grammar) (h : d.toGrammar = .ok g) :
    ∃ g', g.toDef.toGrammar = .ok g' ∧ g' = g.renumbered g.mentionOrder ∧
      (g.SameNumbers g' ↔ g.RuleOrdered) ∧ g'.toDef.toGrammar = .ok g' := by
  have hg := GrammarDef.toGrammar_numbered d g h
  have hd := GrammarDef.toGrammar_distinct h
  have hreload := toGrammar_toDef hg hd
  have hg' := GrammarDef.toGrammar_numbered _ _ hreload
  have hd' := GrammarDef.toGrammar_distinct hreload
  refine ⟨_, hreload, rfl, sameNumbers_renumbered_iff hg hd, ?_⟩
  rw [toGrammar_toDef hg' hd', mentionOrder_renumbered hg hd, renumbered_nonterminalIds hg']

/-- A nonterminal with a rule is declared before one without rules. -/
def lateBare : GrammarDef where
  terminals := [.named "a"]
  nonterminals := ["S", "X"]
  rules := [⟨"S", ["a"]⟩]
  start := none

def lateBareGrammar : Grammar where
  terminals := [⟨"a", 0⟩]
  nonterminals := ["S", "X"]
  rules := #[⟨2, [1]⟩]
  start := 2

theorem reload_numbering_lateBare : lateBare.toGrammar = .ok lateBareGrammar ∧
    ∃ g', lateBareGrammar.toDef.toGrammar = .ok g' ∧
      g' = lateBareGrammar.renumbered lateBareGrammar.mentionOrder ∧
      (lateBareGrammar.SameNumbers g' ↔ lateBareGrammar.RuleOrdered) ∧
      g'.toDef.toGrammar = .ok g' :=
  ⟨by decide, reload_numbering lateBare lateBareGrammar (by decide)⟩

/-- The start symbol of `lateBare` has another number once its grammar is reloaded. -/
theorem lateBare_renumbered : ∃ g g', lateBare.toGrammar = .ok g ∧
    g.toDef.toGrammar = .ok g' ∧ g.start ≠ g'.start ∧ ¬ g.SameNumbers g' := by
  refine ⟨lateBareGrammar, {
    terminals := [⟨"a", 0⟩]
    nonterminals := ["X", "S"]
    rules := #[⟨3, [1]⟩]
    start := 3 }, by decide, by decide, by decide, fun h => ?_⟩
  exact absurd h.start (by decide)

end Grammar
end EarleyChart
