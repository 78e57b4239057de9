import EarleyChart.Grammar.Basic
import Mathlib.Data.List.Induction
import Mathlib.Data.List.Nodup

/-!
Names, kinds and numbers of symbols. A symbol number is never zero and never both a
terminal and a nonterminal. The tables of a grammar lead from a name or a token kind to
the place of its first declaration, and where none is given twice a name and a number
stand for each other, as do a kind and a terminal.
-/

namespace EarleyChart

section eraseDups

variable {α β : Type} [BEq α] [LawfulBEq α] [BEq β] [LawfulBEq β]

/-- One more element is added unless it was there. -/
theorem eraseDups_concat (xs : List α) (x : α) :
    (xs ++ [x]).eraseDups = xs.eraseDups ++ if x ∈ xs then [] else [x] := by
  rw [List.eraseDups_append, List.removeAll]
  split
  · next h => rw [List.filter_cons_of_neg (by simpa using h), List.filter_nil, List.eraseDups_nil]
  · next h =>
      rw [List.filter_cons_of_pos (by simpa using h), List.filter_nil, List.eraseDups_cons,
        List.filter_nil, List.eraseDups_nil]

theorem nodup_eraseDups (xs : List α) : xs.eraseDups.Nodup := by
  induction xs using List.reverseRecOn with
  | nil => simp
  | append_singleton xs x ih =>
      rw [eraseDups_concat]
      split
      · simpa using ih
      · next h =>
          refine List.nodup_append.mpr ⟨ih, by simp, ?_⟩
          rintro y hy _ hx rfl
          obtain rfl := List.mem_singleton.mp hx
          exact h (List.mem_eraseDups.mp hy)

/-- A list without repetitions stays as it is. -/
theorem eraseDups_of_nodup {xs : List α} (h : xs.Nodup) : xs.eraseDups = xs := by
  induction xs using List.reverseRecOn with
  | nil => rfl
  | append_singleton xs x ih =>
      obtain ⟨hxs, -, hnew⟩ := List.nodup_append.mp h
      rw [eraseDups_concat, ih hxs, if_neg fun hx => hnew x hx x (by simp) rfl]

/-- Names that tell the elements apart are repeated where the elements are. -/
theorem eraseDups_map (f : α → β) (xs : List α) (h : ∀ x ∈ xs, ∀ y ∈ xs, f x = f y → x = y) :
    (xs.map f).eraseDups = xs.eraseDups.map f := by
  induction xs using List.reverseRecOn with
  | nil => rfl
  | append_singleton xs x ih =>
      have hsame : f x ∈ xs.map f ↔ x ∈ xs := by
        rw [List.mem_map]
        constructor
        · rintro ⟨y, hy, heq⟩
          rwa [← h y (by simp [hy]) x (by simp) heq]
        · exact fun hx => ⟨x, hx, rfl⟩
      have hrest := ih fun y hy z hz => h y (by simp [hy]) z (by simp [hz])
      simp only [List.map_append, List.map_singleton, eraseDups_concat, hsame, hrest]
      split <;> rfl

end eraseDups

/-- An element leads to its first place. -/
theorem lookup_zipIdx {α : Type} [BEq α] [LawfulBEq α] (xs : List α) (start : Nat) (x : α) :
    (xs.zipIdx start).lookup x = (xs.findIdx? (· == x)).map (start + ·) := by
  induction xs generalizing start with
  | nil => rfl
  | cons y xs ih =>
      rw [List.zipIdx_cons, List.lookup_cons, List.findIdx?_cons, ih, BEq.comm]
      split
      · next h => simp [h]
      · next h => simp [h, Function.comp_def, Nat.add_comm, Nat.add_left_comm]

namespace Symbols

theorem isTerminal_iff (s : Symbols) (symbol : Nat) :
    s.isTerminal symbol = true ↔ 0 < symbol ∧ symbol ≤ s.terminalCount := by
  simp [isTerminal, Nat.pos_iff_ne_zero]

theorem isNonterminal_iff (s : Symbols) (symbol : Nat) :
    s.isNonterminal symbol = true ↔
      s.terminalCount < symbol ∧ symbol ≤ s.symbolCount := by
  simp [isNonterminal]

theorem not_isNonterminal_of_isTerminal (s : Symbols) (symbol : Nat)
    (h : s.isTerminal symbol = true) : s.isNonterminal symbol = false := by
  rw [isTerminal_iff] at h
  rw [Bool.eq_false_iff, Ne, isNonterminal_iff]
  omega

theorem mem_terminalIds_iff (s : Symbols) (symbol : Nat) :
    symbol ∈ s.terminalIds ↔ s.isTerminal symbol = true := by
  rw [isTerminal_iff, terminalIds, List.mem_range'_1]
  omega

theorem mem_nonterminalIds_iff (s : Symbols) (symbol : Nat) :
    symbol ∈ s.nonterminalIds ↔ s.isNonterminal symbol = true := by
  rw [isNonterminal_iff, nonterminalIds, List.mem_range'_1, symbolCount, nonterminalCount]
  omega

theorem nonterminalIndex_lt (s : Symbols) (symbol : Nat)
    (h : s.isNonterminal symbol = true) : s.nonterminalIndex symbol < s.nonterminalCount := by
  rw [isNonterminal_iff, symbolCount] at h
  rw [nonterminalIndex]
  omega

theorem nonterminalIndex_inj (s : Symbols) (a b : Nat) (ha : s.isNonterminal a = true)
    (hb : s.isNonterminal b = true) :
    s.nonterminalIndex a = s.nonterminalIndex b ↔ a = b := by
  rw [isNonterminal_iff] at ha hb
  simp only [nonterminalIndex]
  omega

structure Tabled (s : Symbols) : Prop where
  byName : s.byName = nameTable s.terminals s.nonterminals
  byKind : s.byKind = kindTable s.terminals

structure Distinct (s : Symbols) : Prop where
  terminals : (s.terminals.map (·.name)).Nodup
  kinds : (s.terminals.map (·.kind)).Nodup
  nonterminals : s.nonterminals.Nodup
  apart : ∀ name ∈ s.nonterminals, name ∉ s.terminals.map (·.name)

variable {s : Symbols}

theorem range_iff (a : Nat) :
    s.isTerminal a = true ∨ s.isNonterminal a = true ↔ 1 ≤ a ∧ a ≤ s.symbolCount := by
  rw [isTerminal_iff, isNonterminal_iff, symbolCount]
  omega

/-- The first element with a key is the only one. -/
theorem findIdx?_of_nodup {α β : Type} [BEq β] [LawfulBEq β] (key : α → β) (xs : List α)
    (h : (xs.map key).Nodup) {i : Nat} {x : α} (hx : xs[i]? = some x) :
    xs.findIdx? (key · == key x) = some i := by
  obtain ⟨hi, rfl⟩ := List.getElem?_eq_some_iff.mp hx
  rw [List.findIdx?_eq_some_iff_getElem]
  refine ⟨hi, by simp, fun j hj => ?_⟩
  have hne := List.pairwise_iff_getElem.mp (List.pairwise_map.mp h) j i (Nat.lt_trans hj hi) hi hj
  simpa using hne

theorem symbolName_of_terminal {i : Nat} {t : Terminal} (h : s.terminals[i]? = some t) :
    s.symbolName (i + 1) = t.name := by
  have hlt := (List.getElem?_eq_some_iff.mp h).1
  rw [symbolName, if_neg (Nat.succ_ne_zero i), if_pos (show i + 1 ≤ s.terminalCount from hlt),
    Nat.add_sub_cancel, h]
  rfl

theorem symbolName_of_nonterminal {i : Nat} {name : String}
    (h : s.nonterminals[i]? = some name) : s.symbolName (s.terminalCount + 1 + i) = name := by
  rw [symbolName, if_neg (show ¬ s.terminalCount + 1 + i = 0 by omega),
    if_neg (show ¬ s.terminalCount + 1 + i ≤ s.terminalCount by omega), nonterminalIndex,
    show s.terminalCount + 1 + i - s.terminalCount - 1 = i by omega, h]
  rfl

/-- A terminal by its place among the terminals. -/
theorem terminal_at {symbol : Nat} (h : s.isTerminal symbol = true) :
    ∃ i t, symbol = i + 1 ∧ s.terminals[i]? = some t := by
  rw [isTerminal_iff, terminalCount] at h
  have hlt : symbol - 1 < s.terminals.length := by omega
  exact ⟨symbol - 1, _, by omega, List.getElem?_eq_getElem hlt⟩

/-- A nonterminal by its place among the nonterminals. -/
theorem nonterminal_at {symbol : Nat} (h : s.isNonterminal symbol = true) :
    ∃ i name, symbol = s.terminalCount + 1 + i ∧ s.nonterminals[i]? = some name := by
  have hlt := s.nonterminalIndex_lt symbol h
  rw [isNonterminal_iff] at h
  exact ⟨s.nonterminalIndex symbol, _, by rw [nonterminalIndex]; omega,
    List.getElem?_eq_getElem hlt⟩

theorem kindOf?_terminal {i : Nat} {t : Terminal} (h : s.terminals[i]? = some t) :
    s.kindOf? (i + 1) = some t.kind := by
  rw [kindOf?, if_neg (Nat.succ_ne_zero i), Nat.add_sub_cancel, h, Option.map_some]

theorem terminal_of_kindOf? {a : Nat} {kind : TokenKind} (h : s.kindOf? a = some kind) :
    ∃ i t, a = i + 1 ∧ s.terminals[i]? = some t ∧ t.kind = kind := by
  obtain ⟨hpos, h⟩ : ¬ a = 0 ∧ (s.terminals[a - 1]?).map (·.kind) = some kind :=
    Option.ite_none_left_eq_some.mp h
  obtain ⟨t, ht, hkind⟩ := Option.map_eq_some_iff.mp h
  exact ⟨a - 1, t, by omega, ht, hkind⟩

theorem kindOf?_isSome_iff (a : SymbolId) :
    (s.kindOf? a).isSome = true ↔ s.isTerminal a = true := by
  constructor
  · intro h
    obtain ⟨kind, hkind⟩ := Option.isSome_iff_exists.mp h
    obtain ⟨i, t, rfl, ht, -⟩ := terminal_of_kindOf? hkind
    exact (s.isTerminal_iff _).mpr ⟨by omega, (List.getElem?_eq_some_iff.mp ht).1⟩
  · intro h
    obtain ⟨i, t, rfl, ht⟩ := terminal_at h
    rw [kindOf?_terminal ht, Option.isSome_some]

section tables

variable (hs : s.Tabled)

include hs in
/-- A name leads to the first terminal that has it, or else to the first nonterminal. -/
theorem symbol?_eq (name : String) : s.symbol? name =
    ((s.terminals.findIdx? (·.name == name)).map (· + 1)).or
      ((s.nonterminals.findIdx? (· == name)).map (s.terminalCount + 1 + ·)) := by
  rw [symbol?, hs.byName, nameTable, lookup_zipIdx, List.findIdx?_append, List.findIdx?_map,
    List.length_map, Option.map_or]
  congr 1 <;> simp only [Option.map_map, Function.comp_def, terminalCount] <;>
    exact congrArg (Option.map · _) (funext fun i => by omega)

include hs in
theorem terminalForKind?_eq (kind : TokenKind) : s.terminalForKind? kind =
    (s.terminals.findIdx? (·.kind == kind)).map (· + 1) := by
  rw [terminalForKind?, hs.byKind, kindTable, lookup_zipIdx, List.findIdx?_map]
  simp only [Function.comp_def, Nat.add_comm]

include hs in
theorem terminalForKind?_isSome_iff (kind : TokenKind) :
    (s.terminalForKind? kind).isSome = true ↔ kind ∈ s.terminals.map (·.kind) := by
  rw [terminalForKind?_eq hs, Option.isSome_map, List.findIdx?_isSome]
  simp

include hs in
theorem terminalForKind?_isTerminal {kind : TokenKind} {symbol : SymbolId}
    (h : s.terminalForKind? kind = some symbol) : s.isTerminal symbol = true := by
  rw [terminalForKind?_eq hs] at h
  obtain ⟨index, hindex, rfl⟩ := Option.map_eq_some_iff.mp h
  have hlt := (List.findIdx?_eq_some_iff_findIdx_eq.mp hindex).1
  rw [isTerminal_iff, terminalCount]
  omega

include hs in
/-- A symbol that is found by its name is a terminal or a nonterminal of that name. -/
theorem symbol?_cases {name : String} {a : SymbolId} (h : s.symbol? name = some a) :
    (∃ i t, s.terminals[i]? = some t ∧ t.name = name ∧ a = i + 1) ∨
      (name ∉ s.terminals.map (·.name) ∧
        ∃ i, s.nonterminals[i]? = some name ∧ a = s.terminalCount + 1 + i) := by
  rw [symbol?_eq hs, Option.or_eq_some_iff] at h
  rcases h with h | ⟨hnone, h⟩
  · obtain ⟨i, hi, rfl⟩ := Option.map_eq_some_iff.mp h
    obtain ⟨hlt, hname, -⟩ := List.findIdx?_eq_some_iff_getElem.mp hi
    exact .inl ⟨i, _, List.getElem?_eq_getElem hlt, by simpa using hname, rfl⟩
  · obtain ⟨i, hi, rfl⟩ := Option.map_eq_some_iff.mp h
    obtain ⟨hlt, hname, -⟩ := List.findIdx?_eq_some_iff_getElem.mp hi
    have hfresh := List.findIdx?_eq_none_iff.mp (Option.map_eq_none_iff.mp hnone)
    refine .inr ⟨by simpa using hfresh, i, ?_, rfl⟩
    rw [List.getElem?_eq_getElem hlt, eq_of_beq hname]

include hs in
/-- A name is that of a terminal or of a nonterminal. -/
theorem symbol?_range {name : String} {a : SymbolId} (h : s.symbol? name = some a) :
    s.isTerminal a = true ∨ s.isNonterminal a = true := by
  obtain ⟨i, t, ht, -, rfl⟩ | ⟨-, i, hi, rfl⟩ := symbol?_cases hs h
  · have hlt := (List.getElem?_eq_some_iff.mp ht).1
    exact .inl ((s.isTerminal_iff _).mpr ⟨by omega, by rw [terminalCount]; omega⟩)
  · have hlt := (List.getElem?_eq_some_iff.mp hi).1
    exact .inr ((s.isNonterminal_iff _).mpr
      ⟨by omega, by rw [symbolCount, nonterminalCount]; omega⟩)

include hs in
/-- A name is known if a terminal or a nonterminal has it. -/
theorem symbol?_isSome_iff (name : String) : (s.symbol? name).isSome = true ↔
    name ∈ s.terminals.map (·.name) ∨ name ∈ s.nonterminals := by
  rw [symbol?_eq hs, Option.isSome_or, Option.isSome_map, Option.isSome_map,
    List.findIdx?_isSome, List.findIdx?_isSome]
  simp

include hs in
theorem symbolName_symbol? {name : String} {a : SymbolId} (h : s.symbol? name = some a) :
    s.symbolName a = name := by
  obtain ⟨i, t, ht, rfl, rfl⟩ | ⟨-, i, hi, rfl⟩ := symbol?_cases hs h
  · exact symbolName_of_terminal ht
  · exact symbolName_of_nonterminal hi

include hs in
/-- The name of a terminal leads to its number, whatever nonterminals there are. -/
theorem symbol?_of_terminal (h : (s.terminals.map (·.name)).Nodup) {i : Nat} {t : Terminal}
    (ht : s.terminals[i]? = some t) : s.symbol? t.name = some (i + 1) := by
  rw [symbol?_eq hs, findIdx?_of_nodup (·.name) s.terminals h ht]
  rfl

include hs in
/-- The name of a nonterminal leads to its number. -/
theorem symbol?_of_nonterminal_at (hnodup : s.nonterminals.Nodup) {i : Nat} {name : String}
    (h : s.nonterminals[i]? = some name) (hterminal : name ∉ s.terminals.map (·.name)) :
    s.symbol? name = some (s.terminalCount + 1 + i) := by
  have hnone : s.terminals.findIdx? (·.name == name) = none := by
    rw [List.findIdx?_eq_none_iff]
    simpa using hterminal
  have hsome : s.nonterminals.findIdx? (· == name) = some i :=
    findIdx?_of_nodup id s.nonterminals (by simpa using hnodup) h
  rw [symbol?_eq hs, hnone, hsome]
  rfl

include hs in
/-- The name of a symbol leads back to its number. -/
theorem symbol?_symbolName (h : s.Distinct) {symbol : SymbolId}
    (hsymbol : s.isTerminal symbol = true ∨ s.isNonterminal symbol = true) :
    s.symbol? (s.symbolName symbol) = some symbol := by
  cases hsymbol with
  | inl hterminal =>
      obtain ⟨i, t, rfl, ht⟩ := terminal_at hterminal
      rw [symbolName_of_terminal ht, symbol?_of_terminal hs h.terminals ht]
  | inr hnonterminal =>
      obtain ⟨i, name, rfl, hname⟩ := nonterminal_at hnonterminal
      have hapart := h.apart name (List.mem_of_getElem? hname)
      rw [symbolName_of_nonterminal hname, symbol?_of_nonterminal_at hs h.nonterminals hname hapart]

include hs in
theorem symbolName_inj (h : s.Distinct) {a b : SymbolId}
    (ha : s.isTerminal a = true ∨ s.isNonterminal a = true)
    (hb : s.isTerminal b = true ∨ s.isNonterminal b = true)
    (heq : s.symbolName a = s.symbolName b) : a = b := by
  have hname := symbol?_symbolName hs h ha
  rw [heq, symbol?_symbolName hs h hb] at hname
  exact (Option.some.inj hname).symm

include hs in
theorem symbol?_eq_some_iff (h : s.Distinct) (name : String) (a : SymbolId) :
    s.symbol? name = some a ↔ (1 ≤ a ∧ a ≤ s.symbolCount) ∧ s.symbolName a = name := by
  rw [← range_iff]
  constructor
  · exact fun ha => ⟨symbol?_range hs ha, symbolName_symbol? hs ha⟩
  · rintro ⟨hrange, rfl⟩
    exact symbol?_symbolName hs h hrange

include hs in
theorem terminalForKind?_eq_some_iff (h : s.Distinct) (kind : TokenKind) (a : SymbolId) :
    s.terminalForKind? kind = some a ↔ s.kindOf? a = some kind := by
  rw [terminalForKind?_eq hs]
  constructor
  · intro ha
    obtain ⟨i, hi, rfl⟩ := Option.map_eq_some_iff.mp ha
    obtain ⟨hlt, hkind, -⟩ := List.findIdx?_eq_some_iff_getElem.mp hi
    rw [kindOf?_terminal (List.getElem?_eq_getElem hlt)]
    simpa using hkind
  · intro hkind
    obtain ⟨i, t, rfl, ht, rfl⟩ := terminal_of_kindOf? hkind
    rw [findIdx?_of_nodup (·.kind) s.terminals h.kinds ht, Option.map_some]

end tables
end Symbols
end EarleyChart
