import EarleyChart.Proofs.Grammar.ShortestPath
import EarleyChart.Proofs.Grammar.Warnings

/-!
Nonterminals that are warned to derive themselves. A row from which a single
nonterminal is derived has a symbol that leads there by unit steps, with
nullable symbols on both sides; so a nonterminal derives itself exactly if unit
steps lead back to it. The search then finds a shortest list of such steps, and
there is one warning for each nonterminal that has one.
-/

namespace EarleyChart
namespace Grammar

/-- A rule has the one symbol on its right-hand side, among symbols that derive
the empty string, and the other on its left-hand side. -/
def UnitPair (g : Grammar) (a b : SymbolId) : Prop :=
  ∃ r ∈ g.rules, r.lhs = a ∧ ∃ before after, r.rhs = before ++ b :: after ∧
    ∀ s ∈ before ++ after, g.Derives [s] []

/-- A list of at least two symbols that starts and ends with the same one and
goes on by unit pairs. -/
structure Cycle (g : Grammar) (a : SymbolId) (path : List SymbolId) : Prop where
  leaves : 2 ≤ path.length
  head : path.head? = some a
  last : path.getLast? = some a
  chain : path.IsChain g.UnitPair

/-- One symbol of a row leads to a symbol by unit steps; the others are nullable. -/
inductive Carries (g : Grammar) (a : SymbolId) : List SymbolId → Prop
  | here {s : SymbolId} {row : List SymbolId} (hs : Relation.ReflTransGen g.UnitStep s a)
      (hrow : ∀ t ∈ row, g.nullable t = true) : Carries g a (s :: row)
  | there {s : SymbolId} {row : List SymbolId} (hs : g.nullable s = true)
      (hrow : Carries g a row) : Carries g a (s :: row)

variable {g : Grammar} {a b : SymbolId}

theorem carries_append {front back : List SymbolId} :
    g.Carries a (front ++ back) ↔
      (g.Carries a front ∧ ∀ s ∈ back, g.nullable s = true) ∨
        (∀ s ∈ front, g.nullable s = true) ∧ g.Carries a back := by
  induction front with
  | nil =>
      constructor
      · exact fun h => .inr ⟨by simp, h⟩
      · rintro (⟨h, -⟩ | ⟨-, h⟩)
        · cases h
        · exact h
  | cons s front ih =>
      constructor
      · intro h
        cases h with
        | here hs hrow =>
            exact .inl ⟨.here hs fun t ht => hrow t (by simp [ht]),
              fun t ht => hrow t (by simp [ht])⟩
        | there hs hrow =>
            rcases ih.mp hrow with ⟨hfront, hback⟩ | ⟨hfront, hback⟩
            · exact .inl ⟨.there hs hfront, hback⟩
            · exact .inr ⟨by simpa using ⟨hs, hfront⟩, hback⟩
      · rintro (⟨hfront, hback⟩ | ⟨hfront, hback⟩)
        · cases hfront with
          | here hs hrow =>
              exact .here hs fun t ht => (List.mem_append.mp ht).elim (hrow t) (hback t)
          | there hs hrow => exact .there hs (ih.mpr (.inl ⟨hrow, hback⟩))
        · exact .there (hfront s (by simp))
            (ih.mpr (.inr ⟨fun t ht => hfront t (by simp [ht]), hback⟩))

theorem carries_split {row : List SymbolId} (h : g.Carries a row) :
    ∃ before s after, row = before ++ s :: after ∧ (∀ t ∈ before, g.nullable t = true) ∧
      (∀ t ∈ after, g.nullable t = true) ∧ Relation.ReflTransGen g.UnitStep s a := by
  induction h with
  | here hs hrow => exact ⟨[], _, _, rfl, by simp, hrow, hs⟩
  | there hs _ ih =>
      obtain ⟨before, s, after, rfl, hbefore, hafter, hlead⟩ := ih
      exact ⟨_ :: before, s, after, rfl, by simpa using ⟨hs, hbefore⟩, hafter, hlead⟩

section Numbered

variable (hg : g.Numbered)

/-! ### Derivations of one nonterminal and unit steps -/

include hg in
theorem unitSteps_nonterminal (ha : g.isNonterminal a = true)
    (h : Relation.ReflTransGen g.UnitStep b a) : g.isNonterminal b = true := by
  rcases Relation.ReflTransGen.cases_head h with rfl | ⟨c, ⟨r, hr, rfl, -⟩, -⟩
  · exact ha
  · exact hg.lhs r hr

include hg in
theorem unitSteps_of_carries (ha : g.isNonterminal a = true) {r : Rule} (hr : r ∈ g.rules)
    (h : g.Carries a r.rhs) : Relation.TransGen g.UnitStep r.lhs a := by
  obtain ⟨before, s, after, hrhs, hbefore, hafter, hlead⟩ := carries_split h
  have hs := unitSteps_nonterminal hg ha hlead
  exact .head' ⟨r, hr, rfl, before, after, hrhs, hs, hbefore, hafter⟩ hlead

include hg in
/-- What a row carries after a step of a derivation, it carries before the step:
the step either ends a symbol that was nullable or leads on from its left-hand
side. -/
theorem carries_of_produces (ha : g.isNonterminal a = true) {row next : List SymbolId}
    (h : g.Produces row next) (k : g.Carries a next) : g.Carries a row := by
  obtain ⟨r, before, after, hr⟩ := h
  rw [List.append_assoc, carries_append, carries_append] at k
  rw [carries_append]
  rcases k with ⟨hbefore, hrest⟩ | ⟨hbefore, ⟨hrhs, hafter⟩ | ⟨hrhs, hafter⟩⟩
  · refine .inl ⟨hbefore, fun s hs => ?_⟩
    rcases List.mem_cons.mp hs with rfl | hs
    · exact g.nullable_of_rule hg r hr fun t ht => hrest t (by simp [ht])
    · exact hrest s (by simp [hs])
  · exact .inr ⟨hbefore, .here (unitSteps_of_carries hg ha hr hrhs).to_reflTransGen hafter⟩
  · exact .inr ⟨hbefore, .there (g.nullable_of_rule hg r hr hrhs) hafter⟩

include hg in
theorem carries_of_derives (ha : g.isNonterminal a = true) {row : List SymbolId}
    (h : g.Derives row [a]) : g.Carries a row := by
  induction h using Relation.ReflTransGen.head_induction_on with
  | refl => exact .here .refl (by simp)
  | head hstep _ ih => exact carries_of_produces hg ha hstep ih

include hg in
theorem derives_of_unitStep (h : g.UnitStep a b) :
    Relation.TransGen g.Produces [a] [b] := by
  obtain ⟨r, hr, rfl, before, after, hrhs, -, hbefore, hafter⟩ := h
  have hstep : g.Produces [r.lhs] (before ++ b :: after) := by
    simpa [hrhs] using Produces.rule r [] [] hr
  have hb : g.Derives (b :: after) [b] :=
    g.derives_cons b (derives_nil_of_nullable hg hafter)
  exact .head' hstep (derives_append (derives_nil_of_nullable hg hbefore) hb)

include hg in
theorem derives_self_iff (a : SymbolId) :
    Relation.TransGen g.Produces [a] [a] ↔ Relation.TransGen g.UnitStep a a := by
  constructor
  · intro h
    obtain ⟨next, hstep, hrest⟩ := Relation.TransGen.head'_iff.mp h
    generalize hrow : [a] = row at hstep
    obtain ⟨r, before, after, hr⟩ := hstep
    obtain ⟨rfl, ⟨rfl, rfl⟩⟩ : before = [] ∧ a = r.lhs ∧ after = [] := by
      cases before <;> simp_all
    have hcarries := carries_of_derives hg (hg.lhs r hr) hrest
    exact unitSteps_of_carries hg (hg.lhs r hr) hr (by simpa using hcarries)
  · intro h
    exact Relation.TransGen.lift' (fun s => [s]) (fun _ _ => derives_of_unitStep hg) a a h

/-! ### Lists of unit pairs and walks of the search -/

include hg in
theorem UnitStep.pair (h : g.UnitStep a b) : g.UnitPair a b := by
  obtain ⟨r, hr, hlhs, before, after, hrhs, -, hbefore, hafter⟩ := h
  refine ⟨r, hr, hlhs, before, after, hrhs, fun s hs => ?_⟩
  exact (nullable_iff_derives hg s).mp ((List.mem_append.mp hs).elim (hbefore s) (hafter s))

include hg in
theorem UnitPair.step (h : g.UnitPair a b) (hb : g.isNonterminal b = true) :
    g.UnitStep a b := by
  obtain ⟨r, hr, hlhs, before, after, hrhs, hothers⟩ := h
  exact ⟨r, hr, hlhs, before, after, hrhs, hb,
    fun s hs => (nullable_iff_derives hg s).mpr (hothers s (by simp [hs])),
    fun s hs => (nullable_iff_derives hg s).mpr (hothers s (by simp [hs]))⟩

include hg in
/-- All symbols of a list that goes on by unit pairs to a nonterminal are nonterminals. -/
theorem nonterminal_of_chain {path : List SymbolId} (hchain : path.IsChain g.UnitPair)
    (hlast : ∀ s ∈ path.getLast?, g.isNonterminal s = true) :
    ∀ s ∈ path, g.isNonterminal s = true := by
  induction path with
  | nil => simp
  | cons s path ih =>
      cases path with
      | nil => simpa using hlast
      | cons t path =>
          obtain ⟨⟨r, hr, rfl, -⟩, hrest⟩ := List.isChain_cons_cons.mp hchain
          rw [List.getLast?_cons_cons] at hlast
          rintro u (_ | ⟨_, hu⟩)
          · exact hg.lhs r hr
          · exact ih hrest hlast u hu

theorem Cycle.nonterminal (hg : g.Numbered) {path : List SymbolId} (h : g.Cycle a path) :
    g.isNonterminal a = true := by
  match path, h with
  | [], h | [_], h => exact absurd h.leaves (by simp)
  | s :: t :: path, h =>
      obtain ⟨⟨r, hr, rfl, -⟩, -⟩ := List.isChain_cons_cons.mp h.chain
      obtain rfl : r.lhs = a := Option.some.inj h.head
      exact hg.lhs r hr

include hg in
theorem cycle_iff_leadsTo (path : List SymbolId) :
    g.Cycle a path ↔ LeadsTo (g.unitSuccessors g.nullables) a a path := by
  constructor
  · intro h
    have hnonterminal := nonterminal_of_chain hg h.chain fun s hs => by
      rw [h.last, Option.mem_some_iff] at hs
      exact hs ▸ h.nonterminal hg
    have hchain := h.chain.imp_of_mem_imp fun x y _ hy hpair =>
      mem_unitSuccessors hg x y (UnitPair.step hg hpair (hnonterminal y hy))
    exact ⟨⟨h.head, hchain⟩, h.leaves, h.last⟩
  · intro h
    exact ⟨h.leaves, h.head, h.last,
      h.chain.imp fun _ _ hb => (unitStep_of_mem_unitSuccessors hg hb).pair hg⟩

theorem reaches_of_chain {r : SymbolId → SymbolId → Prop} {path : List SymbolId}
    (hchain : (a :: path).IsChain r) (hlast : (a :: path).getLast? = some b)
    (hleaves : path ≠ []) : Relation.TransGen r a b := by
  induction path generalizing a with
  | nil => contradiction
  | cons s path ih =>
      obtain ⟨hstep, hrest⟩ := List.isChain_cons_cons.mp hchain
      rw [List.getLast?_cons_cons] at hlast
      cases path with
      | nil =>
          obtain rfl : s = b := by simpa using hlast
          exact .single hstep
      | cons t path => exact .head hstep (ih hrest hlast (by simp))

theorem LeadsTo.reaches {successors : SymbolId → List SymbolId} {path : List SymbolId}
    (h : LeadsTo successors a b path) :
    Relation.TransGen (fun x y => y ∈ successors x) a b := by
  match path, h with
  | [], h => exact absurd h.leaves (by simp)
  | s :: path, h =>
      obtain rfl : s = a := Option.some.inj h.head
      refine reaches_of_chain h.chain h.last ?_
      rintro rfl
      exact absurd h.leaves (by simp)

/-! ### Warnings -/

include hg in
/-- The search for a way back finds a shortest one where there is one. -/
theorem cycle?_spec (a : SymbolId) :
    (Relation.TransGen g.Produces [a] [a] → ∃ path, g.cycle? g.nullables a = some path ∧
      g.Cycle a path ∧ ∀ other, g.Cycle a other → path.length ≤ other.length) ∧
    (¬ Relation.TransGen g.Produces [a] [a] → g.cycle? g.nullables a = none) := by
  rw [derives_self_iff hg]
  cases hcycle : g.cycle? g.nullables a with
  | none => exact ⟨fun h => absurd h (not_unitCycle_of_cycle? hg a hcycle), fun _ => rfl⟩
  | some path =>
      obtain ⟨hleads, hshortest⟩ := shortestPath_eq_some
        (g.unitSuccessors_mem_nonterminalIds g.nullables) (g.nonterminalCount + 1) unmet_root
        abreast_root (Nat.le_refl 1) hcycle
      refine ⟨fun _ => ⟨path, rfl, (cycle_iff_leadsTo hg path).mpr hleads, fun other hother =>
        hshortest other ((cycle_iff_leadsTo hg other).mp hother)⟩, fun h => (h ?_).elim⟩
      exact Relation.TransGen.mono (fun _ _ => unitStep_of_mem_unitSuccessors hg) a a hleads.reaches

end Numbered

def cyclicWarning? (g : Grammar) (a : SymbolId) : Option Warning :=
  (g.cycle? g.nullables a).map fun cycle =>
    let names := " => ".intercalate (cycle.map g.symbolName)
    ⟨.cyclic, a, s!"'{g.symbolName a}' derives itself: {names}", cycle⟩

theorem warningsOf_cyclic (g : Grammar) :
    g.warningsOf .cyclic = g.nonterminalIds.filterMap g.cyclicWarning? := rfl

theorem warningsAbout_cyclic (g : Grammar) (a : SymbolId) :
    g.warningsAbout .cyclic a =
      if g.isNonterminal a = true then (g.cyclicWarning? a).toList else [] := by
  have hwarn : ∀ s, ∀ w ∈ g.cyclicWarning? s, w.kind = .cyclic ∧ w.symbol = s := by
    intro s w hw
    obtain ⟨cycle, -, rfl⟩ := Option.map_eq_some_iff.mp hw
    exact ⟨rfl, rfl⟩
  rw [warningsAbout_of_filterMap nodup_nonterminalIds g.warningsOf_cyclic hwarn]
  simp only [g.mem_nonterminalIds_iff]

/-- A nonterminal is warned about once if it derives itself, with a shortest
cycle, and not at all if it does not. -/
theorem cyclic_warning_iff (d : GrammarDef) (g : Grammar) (hd : d.toGrammar = .ok g)
    (a : SymbolId) :
    (Relation.TransGen g.Produces [a] [a] → ∃ w, g.warningsAbout .cyclic a = [w] ∧
      g.Cycle a w.related ∧ ∀ other, g.Cycle a other → w.related.length ≤ other.length) ∧
    (¬ Relation.TransGen g.Produces [a] [a] → g.warningsAbout .cyclic a = []) := by
  have hg := d.toGrammar_numbered g hd
  rw [g.warningsAbout_cyclic]
  obtain ⟨hsome, hnone⟩ := cycle?_spec hg a
  constructor
  · intro hself
    obtain ⟨path, hpath, hcycle, hshortest⟩ := hsome hself
    rw [if_pos (hcycle.nonterminal hg), cyclicWarning?, hpath]
    exact ⟨_, rfl, hcycle, hshortest⟩
  · intro hself
    rw [cyclicWarning?, hnone hself, Option.map_none, Option.toList_none, ite_self]

/-- A description in which a list derives itself when its items are left out, and
a chain of two names comes back to the first. -/
def loopDef : GrammarDef :=
  ((((((GrammarDef.empty.terminal "x").rule "List" ["Item", "List", "Item"]).rule "List"
    ["First"]).rule "First" ["Second", "Item"]).rule "Second" ["First"]).rule "Item"
    []).rule "Item" ["x"]

def loop : Grammar where
  terminals := [⟨"x", 0⟩]
  nonterminals := ["List", "First", "Second", "Item"]
  rules := #[⟨2, [5, 2, 5]⟩, ⟨2, [3]⟩, ⟨3, [4, 5]⟩, ⟨4, [3]⟩, ⟨5, []⟩, ⟨5, [1]⟩]
  start := 2

/-- A name that comes back over another one is warned about once, and no cycle of
its own is shorter. -/
theorem cyclic_warning_loop : loopDef.toGrammar = .ok loop ∧
    ∃ w, loop.warningsAbout .cyclic 3 = [w] ∧ w.related = [3, 4, 3] ∧
      ∀ other, loop.Cycle 3 other → 3 ≤ other.length := by
  obtain ⟨hself, hnone⟩ := cyclic_warning_iff loopDef loop (by decide +kernel) 3
  have hwarnings : (loop.warningsAbout .cyclic 3).map (·.related) = [[3, 4, 3]] := by
    decide +kernel
  by_cases hderives : Relation.TransGen loop.Produces [3] [3]
  · obtain ⟨w, hw, -, hshortest⟩ := hself hderives
    rw [hw, List.map_singleton, List.cons.injEq] at hwarnings
    rw [hwarnings.1] at hshortest
    exact ⟨by decide +kernel, w, hw, hwarnings.1, hshortest⟩
  · rw [hnone hderives] at hwarnings
    contradiction

end Grammar
end EarleyChart
