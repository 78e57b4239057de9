import EarleyChart.Proofs.Grammar.Naming

/-!
The numbers and the tables of a grammar that was made from a description. Left-hand
sides and the start symbol are nonterminals, and every symbol of a right-hand side is a
terminal or a nonterminal. The tables are filled one entry at a time; after each entry
they are those of the lists entered so far, so that a grammar has the tables of its
lists: a name, a kind and a left-hand side lead to the places where they stand.
-/

namespace EarleyChart

/-- Rules and the start symbol use numbers of symbols in their places, and the tables are
those of the lists. -/
structure Grammar.Numbered (g : Grammar) : Prop where
  lhs : ∀ r ∈ g.rules, g.isNonterminal r.lhs = true
  rhs : ∀ r ∈ g.rules, ∀ s ∈ r.rhs, g.isTerminal s = true ∨ g.isNonterminal s = true
  start : g.isNonterminal g.start = true
  tabled : g.Tabled
  productions : g.productions = productionsOf g.toSymbols g.rules

theorem productionsOf_getElem? {s : Symbols} {symbol : SymbolId} (rules : Array Rule)
    (h : s.isNonterminal symbol = true) : (productionsOf s rules)[s.nonterminalIndex symbol]? =
      some ((List.range rules.size).filter fun rule =>
        (rules[rule]?).any (·.lhs == symbol)) := by
  have hlt := s.nonterminalIndex_lt symbol h
  rw [Symbols.isNonterminal_iff] at h
  rw [productionsOf, List.getElem?_toArray, List.getElem?_map, Symbols.nonterminalIds,
    List.getElem?_range' hlt, Nat.one_mul, Symbols.nonterminalIndex,
    show s.terminalCount + 1 + (symbol - s.terminalCount - 1) = symbol by omega, Option.map_some]

namespace Grammar

variable {g : Grammar}

section rulesFor

variable (hg : g.Numbered)

include hg in
/-- The rules that are entered for a symbol are those with this left-hand side, in
ascending order. -/
theorem rulesFor_eq (a : SymbolId) : g.rulesFor a =
    (List.range g.rules.size).filter fun rule => (g.rule? rule).any (·.lhs == a) := by
  rw [rulesFor]
  split
  · next ha =>
      rw [hg.productions, productionsOf_getElem? _ ha, Option.getD_some]
      rfl
  · next ha =>
      refine (List.filter_eq_nil_iff.mpr fun rule _ hrule => ha ?_).symm
      obtain ⟨r, hr, hlhs⟩ := (Option.any_eq_true _ _).mp hrule
      exact eq_of_beq hlhs ▸ hg.lhs r (Array.mem_of_getElem? hr)

include hg in
theorem mem_rulesFor_iff (rule : RuleId) (a : SymbolId) :
    rule ∈ g.rulesFor a ↔ ∃ r, g.rule? rule = some r ∧ r.lhs = a := by
  rw [rulesFor_eq hg]
  simp only [List.mem_filter, List.mem_range, Option.any_eq_true, beq_iff_eq]
  constructor
  · exact fun h => h.2
  · rintro ⟨r, hr, ha⟩
    exact ⟨(Array.getElem?_eq_some_iff.mp hr).1, r, hr, ha⟩

include hg in
theorem rule?_eq_some_iff (rule : RuleId) (a : SymbolId) :
    (g.rules.toList.map (·.lhs))[rule]? = some a ↔ rule ∈ g.rulesFor a := by
  rw [mem_rulesFor_iff hg, List.getElem?_map, Array.getElem?_toList, Option.map_eq_some_iff]
  rfl

include hg in
theorem rulesFor_ne_nil_iff (a : SymbolId) :
    g.rulesFor a ≠ [] ↔ a ∈ g.rules.toList.map (·.lhs) := by
  rw [List.ne_nil_iff_exists_cons, List.mem_iff_getElem?]
  constructor
  · rintro ⟨rule, rules, heq⟩
    exact ⟨rule, (rule?_eq_some_iff hg rule a).mpr (by simp [heq])⟩
  · rintro ⟨rule, hrule⟩
    exact List.ne_nil_iff_exists_cons.mp
      (List.ne_nil_of_mem ((rule?_eq_some_iff hg rule a).mp hrule))

include hg in
theorem rulesFor_isEmpty_iff (a : SymbolId) :
    (g.rulesFor a).isEmpty = true ↔ ∀ r ∈ g.rules, r.lhs ≠ a := by
  rw [List.isEmpty_iff, List.eq_nil_iff_forall_not_mem]
  simp only [mem_rulesFor_iff hg, rule?, not_exists, not_and, Array.mem_iff_getElem?]
  exact ⟨fun h r ⟨i, hi⟩ => h i r hi, fun h i r hi => h r ⟨i, hi⟩⟩

end rulesFor

theorem nodup_terminalIds : g.terminalIds.Nodup := List.nodup_range'

theorem nodup_nonterminalIds : g.nonterminalIds.Nodup := List.nodup_range'

theorem nodup_symbolIds : (g.terminalIds ++ g.nonterminalIds).Nodup := by
  refine List.nodup_append.mpr ⟨nodup_terminalIds, nodup_nonterminalIds, ?_⟩
  simp only [g.mem_terminalIds_iff, g.mem_nonterminalIds_iff]
  rintro a ha _ hb rfl
  rw [g.not_isNonterminal_of_isTerminal a ha] at hb
  exact Bool.false_ne_true hb

end Grammar

namespace GrammarDef

def symbolsOf (d : GrammarDef) : Symbols where
  terminals := d.terminalsOf
  nonterminals := d.nonterminalMentions.eraseDups

theorem symbolsOf_tabled (d : GrammarDef) : d.symbolsOf.Tabled := ⟨rfl, rfl⟩

/-! ### Filling the tables -/

theorem foldlM_concat_ok_iff {σ α ε : Type} (f : σ → α → Except ε σ) (xs : List α) (x : α)
    (s out : σ) : (xs ++ [x]).foldlM f s = .ok out ↔
      ∃ mid, xs.foldlM f s = .ok mid ∧ f mid x = .ok out := by
  rw [List.foldlM_append]
  cases hfold : xs.foldlM f s with
  | error e => simp [bind, Except.bind]
  | ok mid => cases hx : f mid x <;> simp [bind, Except.bind, pure, Except.pure, hx]

theorem nodup_concat_iff {α : Type} (xs : List α) (x : α) :
    (xs ++ [x]).Nodup ↔ xs.Nodup ∧ x ∉ xs := by
  rw [← List.concat_eq_append, List.nodup_concat, and_comm]

/-- A terminal is entered at the end of the tables. -/
theorem addTerminal_ok_iff (terminals : List Terminal) (t : Terminal) (out : Symbols) :
    Symbols.addTerminal { terminals, nonterminals := [] } t = .ok out ↔
      (t.name ∉ terminals.map (·.name) ∧ t.kind ∉ terminals.map (·.kind)) ∧
        out = { terminals := terminals ++ [t], nonterminals := [] } := by
  have hs : Symbols.Tabled { terminals, nonterminals := [] } := ⟨rfl, rfl⟩
  have hname := Symbols.symbol?_isSome_iff hs t.name
  have hkind := Symbols.terminalForKind?_isSome_iff hs t.kind
  simp only [List.not_mem_nil, or_false] at hname hkind
  have hnames : nameTable terminals [] ++ [(t.name, terminals.length + 1)] =
      nameTable (terminals ++ [t]) [] := by
    simp [nameTable, List.zipIdx_append, Nat.add_comm]
  have hkinds : kindTable terminals ++ [(t.kind, terminals.length + 1)] =
      kindTable (terminals ++ [t]) := by
    simp [kindTable, List.zipIdx_append, Nat.add_comm]
  rw [Symbols.addTerminal, ← hname, ← hkind]
  split
  · next h => simp only [h, not_true_eq_false, false_and, reduceCtorEq]
  split
  · next h => simp only [h, not_true_eq_false, and_false, false_and, reduceCtorEq]
  · next hfree hunused =>
      simp only [hfree, hunused, Bool.false_eq_true, not_false_eq_true, and_self, true_and,
        Except.ok.injEq]
      simp only [Symbols.symbolCount, Symbols.terminalCount, Symbols.nonterminalCount,
        List.length_nil, Nat.add_zero, hnames, hkinds, eq_comm]

/-- Terminals are numbered if no name and no kind comes twice. -/
theorem addTerminals_ok_iff (terminals : List Terminal) (out : Symbols) :
    terminals.foldlM Symbols.addTerminal { terminals := [], nonterminals := [] } = .ok out ↔
      ((terminals.map (·.name)).Nodup ∧ (terminals.map (·.kind)).Nodup) ∧
        out = { terminals, nonterminals := [] } := by
  induction terminals using List.reverseRecOn generalizing out with
  | nil => simp [pure, Except.pure, eq_comm]
  | append_singleton terminals t ih =>
      rw [foldlM_concat_ok_iff]
      simp only [ih, and_assoc, exists_and_left, exists_eq_left, addTerminal_ok_iff,
        List.map_append, List.map_singleton, nodup_concat_iff]
      tauto

/-- A nonterminal is entered at its first mention. -/
theorem addNonterminal_ok_iff (terminals : List Terminal) (names : List String) (name : String)
    (out : Symbols) :
    Symbols.addNonterminal { terminals, nonterminals := names.eraseDups } name = .ok out ↔
      name ∉ terminals.map (·.name) ∧
        out = { terminals, nonterminals := (names ++ [name]).eraseDups } := by
  have hs : Symbols.Tabled { terminals, nonterminals := names.eraseDups } := ⟨rfl, rfl⟩
  rw [Symbols.addNonterminal, eraseDups_concat]
  cases hname : Symbols.symbol? { terminals, nonterminals := names.eraseDups } name with
  | none =>
      have hnew := mt (Symbols.symbol?_isSome_iff hs name).mpr (by simp [hname])
      simp only [List.mem_eraseDups, not_or] at hnew
      have hnames : nameTable terminals names.eraseDups ++
          [(name, terminals.length + names.eraseDups.length + 1)] =
            nameTable terminals (names.eraseDups ++ [name]) := by
        simp [nameTable, List.zipIdx_append, Nat.add_comm, Nat.add_assoc]
      simp only [hnew, not_false_eq_true, if_false, true_and, Except.ok.injEq,
        Symbols.symbolCount, Symbols.terminalCount, Symbols.nonterminalCount, hnames, eq_comm]
  | some a =>
      obtain ⟨i, t, ht, rfl, rfl⟩ | ⟨hterminal, i, hi, rfl⟩ := Symbols.symbol?_cases hs hname
      · have hlt := (List.getElem?_eq_some_iff.mp ht).1
        have hmem : t.name ∈ terminals.map (·.name) :=
          List.mem_map_of_mem (List.mem_of_getElem? ht)
        simp only [hmem, not_true_eq_false, false_and, iff_false]
        rw [if_pos (show i + 1 ≤ Symbols.terminalCount _ from hlt)]
        intro h
        contradiction
      · have hmem := List.mem_eraseDups.mp (List.mem_of_getElem? hi)
        simp only [hmem, if_true, List.append_nil, hterminal, not_false_eq_true, true_and]
        rw [if_neg (Nat.not_le.mpr (by omega)), Except.ok.injEq, eq_comm]

/-- Nonterminals are numbered if none has the name of a terminal. -/
theorem addNonterminals_ok_iff (terminals : List Terminal) (names : List String)
    (out : Symbols) :
    names.foldlM Symbols.addNonterminal { terminals, nonterminals := [] } = .ok out ↔
      (∀ name ∈ names, name ∉ terminals.map (·.name)) ∧
        out = { terminals, nonterminals := names.eraseDups } := by
  induction names using List.reverseRecOn generalizing out with
  | nil => simp [pure, Except.pure, eq_comm]
  | append_singleton names name ih =>
      rw [foldlM_concat_ok_iff]
      simp only [ih, and_assoc, exists_and_left, exists_eq_left, addNonterminal_ok_iff,
        List.forall_mem_append, List.forall_mem_singleton]

variable {symbols : Symbols}

theorem numberSymbols_ok_iff (lhs : String) (names : List String) (out : List SymbolId) :
    numberSymbols symbols lhs names = .ok out ↔ names.map symbols.symbol? = out.map some := by
  induction names generalizing out with
  | nil => cases out <;> simp [numberSymbols]
  | cons name names ih =>
      rw [numberSymbols, List.map_cons]
      cases hname : symbols.symbol? name with
      | none => cases out <;> simp
      | some a =>
          cases hrest : numberSymbols symbols lhs names with
          | error e =>
              rw [hrest] at ih
              cases out with
              | nil => simp [Except.map]
              | cons b out => simpa [Except.map] using fun _ => ih out
          | ok rest =>
              rw [hrest] at ih
              cases out with
              | nil => simp [Except.map]
              | cons b out => simpa [Except.map] using fun _ => ih out

/-- A rule stands for a rule by names. -/
def Numbers (symbols : Symbols) (r : RuleDef) (numbered : Rule) : Prop :=
  numbered.lhs = (symbols.symbol? r.lhs).getD 0 ∧
    r.rhs.map symbols.symbol? = numbered.rhs.map some

theorem productionsOf_empty (symbols : Symbols) :
    Array.replicate symbols.nonterminalCount [] = productionsOf symbols #[] := by
  simp [productionsOf, Symbols.nonterminalIds]

/-- A rule is entered with its left-hand side. -/
theorem modify_productionsOf (rules : Array Rule) (r : Rule)
    (h : symbols.isNonterminal r.lhs = true) :
    (productionsOf symbols rules).modify (symbols.nonterminalIndex r.lhs) (· ++ [rules.size]) =
      productionsOf symbols (rules.push r) := by
  refine Array.ext (by simp [productionsOf]) fun i hi _ => ?_
  have hi : i < symbols.nonterminalCount := by
    simpa [productionsOf, Symbols.nonterminalIds] using hi
  have hid := symbols.isNonterminal_iff (symbols.terminalCount + 1 + i)
  rw [Symbols.symbolCount] at hid
  have hold : ∀ rule ∈ List.range rules.size,
      ((rules.push r)[rule]?).any (·.lhs == symbols.terminalCount + 1 + i) =
        (rules[rule]?).any (·.lhs == symbols.terminalCount + 1 + i) := by
    intro rule hrule
    rw [Array.getElem?_push, if_neg (Nat.ne_of_lt (List.mem_range.mp hrule))]
  rw [Array.getElem_modify]
  simp only [productionsOf, Symbols.nonterminalIds, List.getElem_toArray, List.getElem_map,
    List.getElem_range', Nat.one_mul, Array.size_push, List.range_succ, List.filter_append,
    List.filter_congr hold]
  have hlast : symbols.nonterminalIndex r.lhs = i ↔ symbols.terminalCount + 1 + i = r.lhs := by
    rw [Symbols.isNonterminal_iff, Symbols.symbolCount] at h
    rw [Symbols.nonterminalIndex]
    omega
  split
  · next hsame => simp [hlast.mp hsame]
  · next hother => simp [Ne.symm (mt hlast.mpr hother)]

theorem addRules_ok_iff (defs : List RuleDef)
    (hdefs : ∀ r ∈ defs, ∃ a, symbols.symbol? r.lhs = some a ∧ symbols.isNonterminal a = true)
    (rules : Array Rule) (out : Array Rule × Array (List RuleId)) :
    defs.foldlM (addRule symbols) (rules, productionsOf symbols rules) = .ok out ↔
      ∃ added, List.Forall₂ (Numbers symbols) defs added ∧ out.1 = rules ++ added ∧
        out.2 = productionsOf symbols out.1 := by
  induction defs generalizing rules with
  | nil =>
      obtain ⟨outRules, productions⟩ := out
      simp only [List.foldlM_nil, pure, Except.pure, Except.ok.injEq, Prod.mk.injEq,
        List.forall₂_nil_left_iff, exists_eq_left, Array.appendList_nil]
      constructor
      · rintro ⟨rfl, rfl⟩
        exact ⟨rfl, rfl⟩
      · rintro ⟨rfl, rfl⟩
        exact ⟨rfl, rfl⟩
  | cons r defs ih =>
      obtain ⟨a, ha, hnonterminal⟩ := hdefs r (by simp)
      rw [List.foldlM_cons, addRule, ha, Option.getD_some]
      simp only [List.forall₂_cons_left_iff, Numbers, ha, Option.getD_some,
        ← numberSymbols_ok_iff r.lhs]
      cases numberSymbols symbols r.lhs r.rhs with
      | error e => simp [Except.map, bind, Except.bind]
      | ok rhs =>
          rw [Except.map, modify_productionsOf rules ⟨a, rhs⟩ hnonterminal]
          refine (ih (fun r hr => hdefs r (by simp [hr])) _).trans ?_
          constructor
          · rintro ⟨added, hadded, hrules, hproductions⟩
            exact ⟨_, ⟨⟨a, rhs⟩, added, ⟨rfl, rfl⟩, hadded, rfl⟩, by simp [hrules], hproductions⟩
          · rintro ⟨_, ⟨⟨_, _⟩, added, ⟨rfl, hrhs⟩, hadded, rfl⟩, hrules, hproductions⟩
            obtain rfl := Except.ok.inj hrhs
            exact ⟨added, hadded, by simp [hrules], hproductions⟩

theorem numberStart_ok_iff (hs : symbols.Tabled) (d : GrammarDef) (start : SymbolId) :
    numberStart symbols d = .ok start ↔ ∃ name, d.startName? = some name ∧
      symbols.symbol? name = some start ∧ symbols.isNonterminal start = true := by
  rw [numberStart]
  cases d.startName? with
  | none => simp
  | some name =>
      simp only [Option.some.injEq, exists_eq_left']
      cases hname : symbols.symbol? name with
      | none => simp
      | some a =>
          simp only [Option.some.injEq]
          cases hterminal : symbols.isTerminal a with
          | false =>
              have ha := (Symbols.symbol?_range hs hname).resolve_left (by simp [hterminal])
              simpa using fun h : a = start => h ▸ ha
          | true =>
              have ha := symbols.not_isNonterminal_of_isTerminal a hterminal
              simpa using fun h : a = start => h ▸ ha

/-! ### Grammars that were made from a description -/

/-- The name of a nonterminal that is mentioned leads to it. -/
theorem nonterminal_of_mention {d : GrammarDef}
    (hlefts : ∀ name ∈ d.nonterminalMentions, name ∉ d.terminalsOf.map (·.name)) {name : String}
    (h : name ∈ d.nonterminalMentions) :
    ∃ a, d.symbolsOf.symbol? name = some a ∧ d.symbolsOf.isNonterminal a = true := by
  obtain ⟨i, hi⟩ := List.mem_iff_getElem?.mp (List.mem_eraseDups.mpr h)
  have hlt := (List.getElem?_eq_some_iff.mp hi).1
  refine ⟨_, Symbols.symbol?_of_nonterminal_at (s := d.symbolsOf) d.symbolsOf_tabled
    (nodup_eraseDups _) hi (hlefts name h), ?_⟩
  rw [Symbols.isNonterminal_iff, Symbols.symbolCount, Symbols.nonterminalCount]
  exact ⟨by omega, by simp only [symbolsOf]; omega⟩

/-- What a description leads to, part by part. -/
theorem toGrammar_ok_iff {d : GrammarDef} {g : Grammar} : d.toGrammar = .ok g ↔
    g.toSymbols = d.symbolsOf ∧ g.productions = productionsOf g.toSymbols g.rules ∧
      ((d.terminalsOf.map (·.name)).Nodup ∧ (d.terminalsOf.map (·.kind)).Nodup) ∧
      (∀ name ∈ d.nonterminalMentions, name ∉ d.terminalsOf.map (·.name)) ∧
      List.Forall₂ (Numbers g.toSymbols) d.rules g.rules.toList ∧
      numberStart g.toSymbols d = .ok g.start := by
  have hleft : (∀ name ∈ d.nonterminalMentions, name ∉ d.terminalsOf.map (·.name)) →
      ∀ r ∈ d.rules, ∃ a, d.symbolsOf.symbol? r.lhs = some a ∧
        d.symbolsOf.isNonterminal a = true := fun hlefts r hr =>
    nonterminal_of_mention hlefts (List.mem_append_right _ (List.mem_map_of_mem hr))
  constructor
  · intro h
    simp only [toGrammar, bind, Except.bind, pure, Except.pure] at h
    split at h
    · contradiction
    next declared hdeclared =>
    obtain ⟨hnodup, rfl⟩ := (addTerminals_ok_iff _ _).mp hdeclared
    split at h
    · contradiction
    next symbols hsymbols =>
    obtain ⟨hlefts, rfl⟩ := (addNonterminals_ok_iff _ _ _).mp hsymbols
    split at h
    · contradiction
    next table htable =>
    rw [productionsOf_empty] at htable
    obtain ⟨rules, hrules, hall, hproductions⟩ :=
      (addRules_ok_iff d.rules (hleft hlefts) #[] table).mp htable
    split at h
    · contradiction
    next start hstart =>
    obtain rfl := Except.ok.inj h
    refine ⟨rfl, hproductions, hnodup, hlefts, ?_, hstart⟩
    simp only [hall, Array.toList_appendList, List.nil_append]
    exact hrules
  · obtain ⟨symbols, rules, start, productions⟩ := g
    rintro ⟨rfl, hproductions, hnodup, hlefts, hrules, hstart⟩
    obtain rfl : productions = productionsOf d.symbolsOf rules := hproductions
    have hterminals := (addTerminals_ok_iff d.terminalsOf _).mpr ⟨hnodup, rfl⟩
    have hnonterminals := (addNonterminals_ok_iff d.terminalsOf d.nonterminalMentions _).mpr
      ⟨hlefts, rfl⟩
    have htable := (addRules_ok_iff d.rules (hleft hlefts) #[]
      (rules, productionsOf d.symbolsOf rules)).mpr ⟨_, hrules, by simp, rfl⟩
    rw [← productionsOf_empty] at htable
    simp only [toGrammar, bind, Except.bind, pure, Except.pure, hterminals, hnonterminals]
    simp only [symbolsOf] at htable hstart
    simp only [htable, hstart]
    rfl

theorem toGrammar_numbered (d : GrammarDef) (g : Grammar) (h : d.toGrammar = .ok g) :
    g.Numbered := by
  obtain ⟨hsymbols, hproductions, -, hlefts, hrules, hstart⟩ := toGrammar_ok_iff.mp h
  have hs : g.Tabled := hsymbols ▸ d.symbolsOf_tabled
  have hrule : ∀ r ∈ g.rules, ∃ named ∈ d.rules, Numbers g.toSymbols named r := by
    intro r hr
    obtain ⟨i, hi, rfl⟩ := List.getElem_of_mem (Array.mem_toList_iff.mpr hr)
    exact ⟨_, List.get_mem _ _, hrules.get (hrules.length_eq ▸ hi) hi⟩
  constructor
  case lhs =>
    intro r hr
    obtain ⟨named, hnamed, hlhs, -⟩ := hrule r hr
    obtain ⟨a, ha, hnonterminal⟩ := nonterminal_of_mention hlefts
      (List.mem_append_right _ (List.mem_map_of_mem hnamed))
    rw [hlhs, hsymbols, ha]
    exact hnonterminal
  case rhs =>
    intro r hr s hmem
    obtain ⟨named, -, -, hrhs⟩ := hrule r hr
    have hs' : some s ∈ named.rhs.map g.symbol? := hrhs ▸ List.mem_map_of_mem hmem
    obtain ⟨name, -, hname⟩ := List.mem_map.mp hs'
    exact Symbols.symbol?_range hs hname
  case start =>
    obtain ⟨_, -, -, hnonterminal⟩ := (numberStart_ok_iff hs d g.start).mp hstart
    exact hnonterminal
  case tabled => exact hs
  case productions => exact hproductions

/-- A grammar that was made from a description gives no name and no kind twice. -/
theorem toGrammar_distinct {d : GrammarDef} {g : Grammar} (h : d.toGrammar = .ok g) :
    g.Distinct := by
  obtain ⟨hsymbols, -, ⟨hnames, hkinds⟩, hlefts, -⟩ := toGrammar_ok_iff.mp h
  rw [hsymbols]
  exact ⟨hnames, hkinds, nodup_eraseDups _, fun name hname =>
    hlefts name (List.mem_eraseDups.mp hname)⟩

end GrammarDef
end EarleyChart
