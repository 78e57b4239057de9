import EarleyChart.Grammar.Generating
import EarleyChart.Proofs.Grammar.Derivation
import EarleyChart.Proofs.Grammar.Numbering
import Mathlib.Data.List.Perm.Subperm

/-!
The symbols in reach of the start symbol are those of its sentential forms. The
right-hand side of a rule occurs in a form where its left-hand side does, so what
the search finds occurs. A symbol that is found stays on the stack until its rules
have been looked at; every step takes one from it for good, so that the stack is
empty in the end. The set found is then closed under the rules, and no step of a
derivation leads out of it.
-/

namespace EarleyChart
namespace Grammar

/-- A symbol stands in a form that is derived from the start symbol. -/
def Occurs (g : Grammar) (a : SymbolId) : Prop :=
  ∃ form, g.Derives [g.start] form ∧ a ∈ form

variable {g : Grammar}

theorem occurs_start : g.Occurs g.start :=
  ⟨[g.start], .refl, by simp⟩

theorem occurs_of_rule {r : Rule} (hr : r ∈ g.rules) (h : g.Occurs r.lhs) :
    ∀ s ∈ r.rhs, g.Occurs s := by
  obtain ⟨form, hform, hmem⟩ := h
  obtain ⟨before, after, rfl⟩ := List.append_of_mem hmem
  exact fun s hs => ⟨before ++ r.rhs ++ after, hform.tail (.rule r before after hr), by simp [hs]⟩

/-- A set that holds the start symbol and is closed under the rules holds every
symbol that occurs. -/
theorem mem_of_occurs {found : List SymbolId} (hstart : g.start ∈ found)
    (hclosed : ∀ r ∈ g.rules, r.lhs ∈ found → ∀ s ∈ r.rhs, s ∈ found) {a : SymbolId}
    (h : g.Occurs a) : a ∈ found := by
  obtain ⟨form, hform, hmem⟩ := h
  have hall : ∀ s ∈ form, s ∈ found := by
    clear hmem
    induction hform with
    | refl => simpa using hstart
    | tail _ hstep ih =>
        obtain ⟨r, before, after, hr⟩ := hstep
        intro s hs
        rcases List.mem_append.mp hs with hs | hs
        · rcases List.mem_append.mp hs with hs | hs
          · exact ih s (by simp [hs])
          · exact hclosed r hr (ih r.lhs (by simp)) s hs
        · exact ih s (by simp [hs])
  exact hall a hmem

theorem mem_ids_of_occurs (hg : g.Numbered) {a : SymbolId} (h : g.Occurs a) :
    a ∈ g.terminalIds ++ g.nonterminalIds := by
  have hids : ∀ a, a ∈ g.terminalIds ++ g.nonterminalIds ↔
      g.isTerminal a = true ∨ g.isNonterminal a = true := by
    simp [g.mem_terminalIds_iff, g.mem_nonterminalIds_iff]
  exact mem_of_occurs ((hids _).mpr (.inr hg.start))
    (fun r hr _ s hs => (hids s).mpr (hg.rhs r hr s hs)) h

/-! ### The search -/

namespace Search

def successors (g : Grammar) (a : SymbolId) : List SymbolId :=
  (g.rulesFor a).flatMap fun rule => (g.rule? rule).elim [] (·.rhs)

theorem mem_successors_iff (hg : g.Numbered) (a s : SymbolId) :
    s ∈ successors g a ↔ ∃ r ∈ g.rules, r.lhs = a ∧ s ∈ r.rhs := by
  rw [successors, List.mem_flatMap]
  constructor
  · rintro ⟨rule, hrule, hs⟩
    obtain ⟨r, hr, hlhs⟩ := (mem_rulesFor_iff hg rule a).mp hrule
    rw [hr] at hs
    exact ⟨r, Array.mem_of_getElem? hr, hlhs, hs⟩
  · rintro ⟨r, hr, hlhs, hs⟩
    obtain ⟨rule, hrule⟩ := Array.mem_iff_getElem?.mp hr
    exact ⟨rule, (mem_rulesFor_iff hg rule a).mpr ⟨r, hrule, hlhs⟩, by rwa [rule?, hrule]⟩

theorem expand_eq (g : Grammar) (search : Search) (a : SymbolId) :
    search.expand g a = (successors g a).foldl meet search := by
  rw [expand, successors, List.foldl_flatMap]

/-- Symbols that are met are found, and those that were not found before are on the stack. -/
theorem foldl_meet (symbols : List SymbolId) (search : Search) :
    ∃ fresh : List SymbolId, symbols.foldl meet search =
        ⟨fresh ++ search.found, fresh ++ search.stack⟩ ∧
      (∀ s, s ∈ fresh ++ search.found ↔ s ∈ symbols ∨ s ∈ search.found) ∧
      (search.found.Nodup → (fresh ++ search.found).Nodup) := by
  induction symbols generalizing search with
  | nil => exact ⟨[], by simp⟩
  | cons a symbols ih =>
      rw [List.foldl_cons, meet]
      split
      · next hfound =>
          obtain ⟨fresh, heq, hmem, hnodup⟩ := ih search
          have ha := List.contains_iff_mem.mp hfound
          refine ⟨fresh, heq, fun s => ?_, hnodup⟩
          rw [hmem, List.mem_cons, or_assoc]
          exact ⟨.inr, Or.rec (fun h => .inr (h ▸ ha)) id⟩
      · next hnew =>
          obtain ⟨fresh, heq, hmem, hnodup⟩ := ih ⟨a :: search.found, a :: search.stack⟩
          have ha := mt List.contains_iff_mem.mpr hnew
          refine ⟨fresh ++ [a], by simp [heq], fun s => ?_, fun h => ?_⟩
          · have hs := hmem s
            simp only [List.mem_append, List.mem_cons] at hs ⊢
            tauto
          · simpa using hnodup (h.cons ha)

/-- What the search keeps to: symbols that are found occur and are found once, and those
off the stack have been looked at. -/
structure Sound (g : Grammar) (search : Search) : Prop where
  occurs : ∀ a ∈ search.found, g.Occurs a
  start : g.start ∈ search.found
  nodup : search.found.Nodup
  stack : search.stack ⊆ search.found
  settled : ∀ a ∈ search.found, a ∈ search.stack ∨ ∀ s ∈ successors g a, s ∈ search.found

theorem sound_start : Sound g ⟨[g.start], [g.start]⟩ where
  occurs := by simpa using occurs_start
  start := by simp
  nodup := by simp
  stack := List.Subset.refl _
  settled := by simp

theorem Sound.expand (hg : g.Numbered) {found stack : List SymbolId} {a : SymbolId}
    (h : Sound g ⟨found, a :: stack⟩) : Sound g (expand g ⟨found, stack⟩ a) := by
  obtain ⟨fresh, heq, hmem, hnodup⟩ := foldl_meet (successors g a) ⟨found, stack⟩
  simp only at hmem hnodup heq
  rw [expand_eq, heq]
  constructor
  case occurs =>
    intro s hs
    rcases (hmem s).mp hs with hs | hs
    · obtain ⟨r, hr, rfl, hrhs⟩ := (mem_successors_iff hg a s).mp hs
      exact occurs_of_rule hr (h.occurs _ (h.stack List.mem_cons_self)) s hrhs
    · exact h.occurs s hs
  case start => exact List.mem_append_right _ h.start
  case nodup => exact hnodup h.nodup
  case stack =>
    have hstack : stack ⊆ found := fun s hs => h.stack (List.mem_cons_of_mem a hs)
    exact List.append_subset.mpr
      ⟨List.subset_append_left _ _, List.subset_append_of_subset_right _ hstack⟩
  case settled =>
    intro b hb
    rcases List.mem_append.mp hb with hb | hb
    · exact .inl (List.mem_append_left _ hb)
    · rcases h.settled b hb with hb | hb
      · rcases List.mem_cons.mp hb with rfl | hb
        · exact .inr fun s hs => (hmem s).mpr (.inl hs)
        · exact .inl (List.mem_append_right _ hb)
      · exact .inr fun s hs => List.mem_append_right _ (hb s hs)

theorem Sound.length_le (hg : g.Numbered) {search : Search} (h : Sound g search) :
    search.found.length ≤ g.symbolCount := by
  have hlength : (g.terminalIds ++ g.nonterminalIds).length = g.symbolCount := by
    simp [Symbols.terminalIds, Symbols.nonterminalIds, Symbols.symbolCount]
  rw [← hlength]
  exact (h.nodup.subperm fun a ha => mem_ids_of_occurs hg (h.occurs a ha)).length_le

/-- The search ends with an empty stack: each step takes a symbol from it for good. -/
theorem Sound.run (hg : g.Numbered) (steps looked : Nat) {search : Search}
    (h : Sound g search) (hlooked : search.found.length = looked + search.stack.length)
    (hsteps : g.symbolCount < looked + steps) :
    Sound g (search.run g steps) ∧ (search.run g steps).stack = [] := by
  induction steps generalizing search looked with
  | zero =>
      have := h.length_le hg
      omega
  | succ steps ih =>
      obtain ⟨found, stack⟩ := search
      cases stack with
      | nil => exact ⟨h, rfl⟩
      | cons a stack =>
          obtain ⟨fresh, heq, -⟩ := foldl_meet (successors g a) ⟨found, stack⟩
          refine ih (looked + 1) (h.expand hg) ?_ (by omega)
          rw [expand_eq, heq]
          simp only [List.length_append, List.length_cons] at hlooked ⊢
          omega

end Search

/-- The search finds the symbols that occur. -/
theorem mem_reachable_iff (hg : g.Numbered) (a : SymbolId) : a ∈ g.reachable ↔ g.Occurs a := by
  obtain ⟨hsound, hempty⟩ := Search.sound_start.run hg (g.symbolCount + 1) 0 rfl (by omega)
  refine ⟨hsound.occurs a, mem_of_occurs hsound.start fun r hr hlhs s hs => ?_⟩
  refine (hsound.settled r.lhs hlhs).resolve_left (by simp [hempty]) s ?_
  exact (Search.mem_successors_iff hg r.lhs s).mpr ⟨r, hr, rfl, hs⟩

end Grammar
end EarleyChart
