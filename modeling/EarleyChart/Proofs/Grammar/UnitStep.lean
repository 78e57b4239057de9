import EarleyChart.Grammar.Warning
import EarleyChart.Proofs.Grammar.Rounds
import Mathlib.Logic.Relation

/-!
Nonterminals that derive themselves. A unit step leads from the left-hand side
of a rule to a nonterminal of its right-hand side whose neighbours are all
nullable. The search for a way back looks at every nonterminal within reach, so
that where it finds none there is no cycle of unit steps. In particular a
grammar without a warning of that kind has none.
-/

namespace EarleyChart
namespace Grammar

/-- A nonterminal stands in a rule of another between nullable symbols. -/
def UnitStep (g : Grammar) (a b : SymbolId) : Prop :=
  ∃ r ∈ g.rules, r.lhs = a ∧ ∃ before after, r.rhs = before ++ b :: after ∧
    g.isNonterminal b = true ∧ (∀ s ∈ before, g.nullable s = true) ∧
      ∀ s ∈ after, g.nullable s = true

theorem UnitStep.nonterminal {g : Grammar} {a b : SymbolId} (h : g.UnitStep a b) :
    g.isNonterminal b = true := by
  obtain ⟨r, -, -, before, after, -, hb, -⟩ := h
  exact hb

theorem mem_unitSymbols (g : Grammar) (before after : List SymbolId) (b : SymbolId)
    (hb : g.isNonterminal b = true) (hbefore : ∀ s ∈ before, g.nullable s = true)
    (hafter : ∀ s ∈ after, g.nullable s = true) :
    b ∈ g.unitSymbols g.nullables (before ++ b :: after) := by
  simp only [unitSymbols, List.mem_map, List.mem_filter, Prod.exists, exists_and_right,
    exists_eq_right]
  refine ⟨before.length, ?_, ?_⟩
  · simp [List.mk_mem_zipIdx_iff_getElem?]
  · simp only [hb, Bool.true_and, List.all_eq_true]
    intro s hs
    rw [List.eraseIdx_append_of_length_le (Nat.le_refl _)] at hs
    simp only [Nat.sub_self, List.eraseIdx_cons_zero, List.mem_append] at hs
    exact hs.elim (hbefore s) (hafter s)

theorem mem_unitSuccessors {g : Grammar} (hg : g.Numbered) (a b : SymbolId)
    (h : g.UnitStep a b) :
    b ∈ g.unitSuccessors g.nullables a := by
  obtain ⟨r, hr, rfl, before, after, hrhs, hb, hbefore, hafter⟩ := h
  obtain ⟨rule, hrule⟩ := Array.mem_iff_getElem?.mp hr
  simp only [unitSuccessors, List.mem_eraseDups, List.mem_flatMap]
  refine ⟨rule, (Grammar.mem_rulesFor_iff hg rule _).mpr ⟨r, hrule, rfl⟩, ?_⟩
  rw [show g.rule? rule = some r from hrule, Option.elim_some, hrhs]
  exact g.mem_unitSymbols before after b hb hbefore hafter

theorem unitStep_of_mem_unitSuccessors {g : Grammar} (hg : g.Numbered) {a b : SymbolId}
    (h : b ∈ g.unitSuccessors g.nullables a) : g.UnitStep a b := by
  simp only [unitSuccessors, List.mem_eraseDups, List.mem_flatMap] at h
  obtain ⟨rule, hrule, hb⟩ := h
  obtain ⟨r, hr, rfl⟩ := (Grammar.mem_rulesFor_iff hg rule a).mp hrule
  rw [hr, Option.elim_some] at hb
  simp only [unitSymbols, List.mem_map, List.mem_filter, Prod.exists,
    List.mk_mem_zipIdx_iff_getElem?, Bool.and_eq_true, List.all_eq_true] at hb
  obtain ⟨b, position, ⟨hposition, hnonterminal, hothers⟩, rfl⟩ := hb
  obtain ⟨hlt, hsymbol⟩ := List.getElem?_eq_some_iff.mp hposition
  rw [List.eraseIdx_eq_take_drop_succ] at hothers
  refine ⟨r, Array.mem_iff_getElem?.mpr ⟨rule, hr⟩, rfl, r.rhs.take position,
    r.rhs.drop (position + 1), ?_, hnonterminal, fun s hs => hothers s (by simp [hs]),
    fun s hs => hothers s (by simp [hs])⟩
  rw [← hsymbol, List.getElem_cons_drop, List.take_append_drop]

theorem unitSuccessors_nonterminal (g : Grammar) (nullables : List SymbolId) (a b : SymbolId)
    (h : b ∈ g.unitSuccessors nullables a) : g.isNonterminal b = true := by
  simp only [unitSuccessors, List.mem_eraseDups, List.mem_flatMap] at h
  obtain ⟨rule, -, hb⟩ := h
  cases hrule : g.rule? rule with
  | none => simp [hrule] at hb
  | some r =>
      simp only [hrule, Option.elim_some, unitSymbols, List.mem_map, List.mem_filter,
        Bool.and_eq_true] at hb
      obtain ⟨pair, ⟨-, hnonterminal, -⟩, rfl⟩ := hb
      exact hnonterminal

theorem unitSuccessors_mem_nonterminalIds (g : Grammar) (nullables : List SymbolId)
    (a b : SymbolId) (h : b ∈ g.unitSuccessors nullables a) : b ∈ g.nonterminalIds :=
  (g.mem_nonterminalIds_iff b).mpr (g.unitSuccessors_nonterminal nullables a b h)

def pathEnd (path : List SymbolId) : SymbolId := path.getLast?.getD 0

theorem keepFresh_cons (visited path : List SymbolId) (paths : List (List SymbolId)) :
    keepFresh visited (path :: paths) =
      if pathEnd path ∈ visited then keepFresh visited paths
      else (path :: (keepFresh (pathEnd path :: visited) paths).1,
        (keepFresh (pathEnd path :: visited) paths).2) := by
  simp only [keepFresh, List.contains_iff_mem, pathEnd]
  congr

/-- The kept paths lead to the symbols that become visited, each to another one. -/
theorem keepFresh_spec (visited : List SymbolId) (paths : List (List SymbolId)) :
    ((keepFresh visited paths).2.Perm
        ((keepFresh visited paths).1.map pathEnd ++ visited)) ∧
      (∀ path ∈ (keepFresh visited paths).1, path ∈ paths) ∧
      (∀ path ∈ paths, pathEnd path ∈ (keepFresh visited paths).2) ∧
      (visited.Nodup → (keepFresh visited paths).2.Nodup) := by
  induction paths generalizing visited with
  | nil => exact ⟨.refl _, by simp [keepFresh], by simp, id⟩
  | cons path paths ih =>
      rw [keepFresh_cons]
      split
      · next hseen =>
          obtain ⟨hperm, hkept, hends, hnodup⟩ := ih visited
          refine ⟨hperm, fun p hp => List.mem_cons_of_mem _ (hkept p hp), ?_, hnodup⟩
          rintro p (_ | ⟨_, hp⟩)
          · exact hperm.mem_iff.mpr (List.mem_append_right _ hseen)
          · exact hends p hp
      · next hfresh =>
          obtain ⟨hperm, hkept, hends, hnodup⟩ := ih (pathEnd path :: visited)
          refine ⟨?_, ?_, ?_, ?_⟩
          · exact hperm.trans List.perm_middle
          · rintro p (_ | ⟨_, hp⟩)
            · exact List.mem_cons_self
            · exact List.mem_cons_of_mem _ (hkept p hp)
          · rintro p (_ | ⟨_, hp⟩)
            · exact hperm.mem_iff.mpr (by simp)
            · exact hends p hp
          · exact fun h => hnodup (List.nodup_cons.mpr ⟨hfresh, h⟩)

/-- Where a set of symbols holds all successors of its members and of the root,
everything that can be reached from the root lies in it. -/
theorem mem_of_reached {successors : SymbolId → List SymbolId} {root last : SymbolId}
    {visited : List SymbolId} (hroot : ∀ b ∈ successors root, b ∈ visited)
    (hclosed : ∀ a ∈ visited, ∀ b ∈ successors a, b ∈ visited)
    (h : Relation.TransGen (fun a b => b ∈ successors a) root last) : last ∈ visited := by
  induction h with
  | single h => exact hroot _ h
  | tail _ hstep ih => exact hclosed _ ih _ hstep

def lengthened (successors : SymbolId → List SymbolId) (frontier : List (List SymbolId)) :
    List (List SymbolId) :=
  frontier.flatMap fun path => (successors (pathEnd path)).map fun s => path ++ [s]

theorem end_of_mem_lengthened {successors : SymbolId → List SymbolId}
    {frontier : List (List SymbolId)} {path : List SymbolId}
    (h : path ∈ lengthened successors frontier) :
    ∃ a, pathEnd path ∈ successors a ∧ path.getLast? = some (pathEnd path) := by
  obtain ⟨front, -, hpath⟩ := List.mem_flatMap.mp h
  obtain ⟨b, hb, rfl⟩ := List.mem_map.mp hpath
  exact ⟨pathEnd front, by simpa [pathEnd] using hb, by simp [pathEnd]⟩

theorem exists_lengthened {successors : SymbolId → List SymbolId}
    {frontier : List (List SymbolId)} {a b : SymbolId} (ha : a ∈ frontier.map pathEnd)
    (hb : b ∈ successors a) : ∃ path ∈ lengthened successors frontier, pathEnd path = b := by
  obtain ⟨path, hpath, rfl⟩ := List.mem_map.mp ha
  exact ⟨path ++ [b], List.mem_flatMap.mpr ⟨path, hpath, List.mem_map.mpr ⟨b, hb, rfl⟩⟩,
    by simp [pathEnd]⟩

/-- A search that has not met its target. The successors of every visited symbol
are visited, unless a path of the frontier leads to it. -/
structure Unmet (successors : SymbolId → List SymbolId) (root target : SymbolId)
    (symbols visited : List SymbolId) (frontier : List (List SymbolId)) : Prop where
  nodup : visited.Nodup
  sub : visited ⊆ symbols
  target : target ∉ visited
  done : ∀ a ∈ root :: visited, a ∈ frontier.map pathEnd ∨ ∀ b ∈ successors a, b ∈ visited

theorem unmet_root {successors : SymbolId → List SymbolId} {root : SymbolId}
    {symbols : List SymbolId} : Unmet successors root root symbols [] [[root]] :=
  ⟨.nil, by simp, by simp, by simp [pathEnd]⟩

section Unmet

variable {successors : SymbolId → List SymbolId} {root target : SymbolId}
  {symbols visited : List SymbolId} {frontier : List (List SymbolId)}
  (h : Unmet successors root target symbols visited frontier)

include h in
/-- A round leads to all successors of what was visited before it. -/
theorem Unmet.round {a b : SymbolId} (ha : a ∈ root :: visited) (hb : b ∈ successors a) :
    b ∈ (keepFresh visited (lengthened successors frontier)).2 := by
  obtain ⟨hperm, -, hends, -⟩ := keepFresh_spec visited (lengthened successors frontier)
  rcases h.done a ha with hfrontier | hvisited
  · obtain ⟨path, hpath, rfl⟩ := exists_lengthened hfrontier hb
    exact hends path hpath
  · exact hperm.mem_iff.mpr (List.mem_append_right _ (hvisited b hb))

include h in
theorem Unmet.step (hsymbols : ∀ a b, b ∈ successors a → b ∈ symbols)
    (hfind : (lengthened successors frontier).find? (·.getLast? == some target) = none) :
    Unmet successors root target symbols
      (keepFresh visited (lengthened successors frontier)).2
      (keepFresh visited (lengthened successors frontier)).1 := by
  obtain ⟨hperm, hkept, -, hnodup⟩ := keepFresh_spec visited (lengthened successors frontier)
  constructor
  case nodup => exact hnodup h.nodup
  case sub =>
    intro a ha
    rcases List.mem_append.mp (hperm.mem_iff.mp ha) with hnew | hin
    · obtain ⟨path, hpath, rfl⟩ := List.mem_map.mp hnew
      obtain ⟨a, hb, -⟩ := end_of_mem_lengthened (hkept path hpath)
      exact hsymbols a _ hb
    · exact h.sub hin
  case target =>
    intro hin
    rcases List.mem_append.mp (hperm.mem_iff.mp hin) with hnew | hin
    · obtain ⟨path, hpath, rfl⟩ := List.mem_map.mp hnew
      obtain ⟨-, -, hlast⟩ := end_of_mem_lengthened (hkept path hpath)
      refine (List.find?_eq_none.mp hfind path (hkept path hpath)) ?_
      rw [hlast, beq_self_eq_true]
    · exact h.target hin
  case done =>
    rintro a (_ | ⟨_, ha⟩)
    · exact .inr fun b hb => h.round (by simp) hb
    · rcases List.mem_append.mp (hperm.mem_iff.mp ha) with hnew | hin
      · exact .inl hnew
      · exact .inr fun b hb => h.round (List.mem_cons_of_mem _ hin) hb

end Unmet

/-- The search answers with none only if its target is out of reach. -/
theorem shortestPath_eq_none (successors : SymbolId → List SymbolId) (root target : SymbolId)
    (symbols : List SymbolId) (hsymbols : ∀ a b, b ∈ successors a → b ∈ symbols)
    (steps : Nat) (visited : List SymbolId) (frontier : List (List SymbolId))
    (hunmet : Unmet successors root target symbols visited frontier)
    (hroom : symbols.length < visited.length + steps)
    (h : shortestPath successors target steps visited frontier = none) :
    ¬ Relation.TransGen (fun a b => b ∈ successors a) root target := by
  induction steps generalizing visited frontier with
  | zero =>
      have := (hunmet.nodup.subperm hunmet.sub).length_le
      omega
  | succ steps ih =>
      simp only [shortestPath] at h
      split at h
      · contradiction
      next hfind =>
      change (lengthened successors frontier).find? (·.getLast? == some target) = none at hfind
      change (if (keepFresh visited (lengthened successors frontier)).1.isEmpty then none
        else shortestPath successors target steps
          (keepFresh visited (lengthened successors frontier)).2
          (keepFresh visited (lengthened successors frontier)).1) = none at h
      have hnext := hunmet.step hsymbols hfind
      obtain ⟨hperm, -, -, -⟩ := keepFresh_spec visited (lengthened successors frontier)
      split at h
      · next hempty =>
          -- nothing is new, so that what is visited has all its successors
          have hsame : ∀ a ∈ (keepFresh visited (lengthened successors frontier)).2,
              a ∈ visited := by
            intro a ha
            simpa [List.isEmpty_iff.mp hempty] using hperm.mem_iff.mp ha
          intro hreach
          refine hnext.target (mem_of_reached (fun b hb => hunmet.round (by simp) hb) ?_ hreach)
          exact fun a ha b hb => hunmet.round (List.mem_cons_of_mem _ (hsame a ha)) hb
      · next hmore =>
          refine ih _ _ hnext ?_ h
          have hlength := hperm.length_eq
          have hpos : (keepFresh visited (lengthened successors frontier)).1.length ≠ 0 := by
            simpa [List.isEmpty_iff] using hmore
          simp only [List.length_append, List.length_map] at hlength
          omega

theorem not_unitCycle_of_cycle? {g : Grammar} (hg : g.Numbered) (a : SymbolId)
    (h : g.cycle? g.nullables a = none) : ¬ Relation.TransGen g.UnitStep a a := by
  have hnone := shortestPath_eq_none (g.unitSuccessors g.nullables) a a g.nonterminalIds
    (g.unitSuccessors_mem_nonterminalIds g.nullables) (g.nonterminalCount + 1) [] [[a]]
    unmet_root (by simp [Symbols.nonterminalIds]) h
  exact fun hcycle => hnone (Relation.TransGen.mono (mem_unitSuccessors hg) a a hcycle)

/-- A symbol that is not warned about does not derive itself. -/
theorem not_unitCycle_of_warnings {g : Grammar} (hg : g.Numbered) (a : SymbolId)
    (h : ∀ w ∈ g.warnings, w.kind = .cyclic → w.symbol ≠ a) :
    ¬ Relation.TransGen g.UnitStep a a := by
  intro hcycle
  have ha : g.isNonterminal a = true := by
    cases hcycle with
    | single hstep => exact hstep.nonterminal
    | tail _ hstep => exact hstep.nonterminal
  refine not_unitCycle_of_cycle? hg a ?_ hcycle
  rw [Option.eq_none_iff_forall_ne_some]
  intro cycle hpath
  let names := " => ".intercalate (cycle.map g.symbolName)
  refine h ⟨.cyclic, a, s!"'{g.symbolName a}' derives itself: {names}", cycle⟩ ?_ rfl rfl
  simp only [warnings, List.mem_append]
  refine .inr (List.mem_filterMap.mpr ⟨a, (g.mem_nonterminalIds_iff a).mpr ha, ?_⟩)
  rw [hpath, Option.map_some]

end Grammar
end EarleyChart
