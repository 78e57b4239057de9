import EarleyChart.Proofs.Grammar.Derivation
import EarleyChart.Proofs.Grammar.Rounds

/-!
What the set found by rounds over the rules is. A rule adds its left-hand side
only if its right-hand side derives a string of given symbols, and since the set
is closed under the rules it covers every row that such a string is derived
from. Where nothing is given the set holds the nonterminals that derive the
empty string.
-/

namespace EarleyChart
namespace Grammar

/-- A symbol derives a string of given symbols. -/
def Generates (g : Grammar) (given : SymbolId → Bool) (a : SymbolId) : Prop :=
  ∃ word, g.Derives [a] word ∧ ∀ s ∈ word, given s = true

variable {g : Grammar} {given : SymbolId → Bool}

theorem derives_of_rule {r : Rule} (hr : r ∈ g.rules) : g.Derives [r.lhs] r.rhs :=
  .single (by simpa using Produces.rule r [] [] hr)

theorem derives_append {u v u' v' : List SymbolId} (h : g.Derives u v) (k : g.Derives u' v') :
    g.Derives (u ++ u') (v ++ v') :=
  (g.derives_append_right u' h).trans (g.derives_append_left v k)

theorem generates_of_given {a : SymbolId} (h : given a = true) : g.Generates given a :=
  ⟨[a], .refl, by simpa using h⟩

theorem derives_of_generates {row : List SymbolId} (h : ∀ s ∈ row, g.Generates given s) :
    ∃ word, g.Derives row word ∧ ∀ s ∈ word, given s = true := by
  induction row with
  | nil => exact ⟨[], .refl, by simp⟩
  | cons a row ih =>
      obtain ⟨first, hfirst, hgiven⟩ := h a (by simp)
      obtain ⟨rest, hrest, hgivens⟩ := ih fun s hs => h s (by simp [hs])
      refine ⟨first ++ rest, derives_append hfirst hrest, fun s hs => ?_⟩
      exact (List.mem_append.mp hs).elim (hgiven s) (hgivens s)

theorem generates_of_rule {r : Rule} (hr : r ∈ g.rules)
    (h : ∀ s ∈ r.rhs, g.Generates given s) : g.Generates given r.lhs := by
  obtain ⟨word, hword, hgiven⟩ := derives_of_generates h
  exact ⟨word, (derives_of_rule hr).trans hword, hgiven⟩

/-! ### Every symbol found derives a string of given symbols -/

theorem generatingStep_sound {found : List SymbolId} (hfound : ∀ a ∈ found, g.Generates given a)
    {r : Rule} (hr : r ∈ g.rules) :
    ∀ a ∈ generatingStep given found r, g.Generates given a := by
  obtain ⟨hcovered, -, hstep⟩ | ⟨-, hstep⟩ := generatingStep_cases given found r
  · rw [hstep]
    rintro a (_ | ⟨_, ha⟩)
    · exact generates_of_rule hr fun s hs => (hcovered s hs).elim generates_of_given (hfound s)
    · exact hfound a ha
  · rwa [hstep]

theorem generating_sound {a : SymbolId} (h : a ∈ g.generating given) : g.Generates given a := by
  rw [generating, generatingFrom_eq] at h
  exact roundsFrom_keeps (fun found => ∀ a ∈ found, g.Generates given a)
    (fun _ hrule _ hfound => generatingStep_sound hfound (by simpa using hrule)) _ (by simp) a h

/-! ### Every symbol that derives such a string is given or found -/

section Numbered

variable (hg : g.Numbered)

include hg in
/-- A step back along a derivation leads to a row that is covered too. -/
theorem covered_of_produces {row next : List SymbolId} (h : g.Produces row next)
    (hnext : ∀ s ∈ next, given s = true ∨ s ∈ g.generating given) :
    ∀ s ∈ row, given s = true ∨ s ∈ g.generating given := by
  obtain ⟨r, before, after, hr⟩ := h
  intro s hs
  rcases List.mem_append.mp hs with hbefore | hs
  · exact hnext s (by simp [hbefore])
  · rcases List.mem_cons.mp hs with rfl | hafter
    · exact .inr (generating_closed hg hr fun s hs => hnext s (by simp [hs]))
    · exact hnext s (by simp [hafter])

include hg in
theorem covered_of_derives {row word : List SymbolId} (h : g.Derives row word)
    (hword : ∀ s ∈ word, given s = true) :
    ∀ s ∈ row, given s = true ∨ s ∈ g.generating given := by
  induction h using Relation.ReflTransGen.head_induction_on with
  | refl => exact fun s hs => .inl (hword s hs)
  | head hstep _ ih => exact covered_of_produces hg hstep ih

include hg in
theorem covered_iff (given : SymbolId → Bool) (a : SymbolId) :
    given a = true ∨ a ∈ g.generating given ↔ g.Generates given a := by
  constructor
  · rintro (ha | ha)
    · exact generates_of_given ha
    · exact generating_sound ha
  · rintro ⟨word, hword, hgiven⟩
    exact covered_of_derives hg hword hgiven a (by simp)

include hg in
theorem generating_nonterminal {a : SymbolId} (h : a ∈ g.generating given) :
    g.isNonterminal a = true := by
  rw [generating, generatingFrom_eq] at h
  exact (g.mem_nonterminalIds_iff a).mp <| roundsFrom_keeps (· ⊆ g.nonterminalIds)
    (g.generatingStep_gathers hg given).within _ (List.nil_subset _) h

/-! ### Nullable symbols -/

include hg in
theorem nullable_iff_derives (a : SymbolId) : g.nullable a = true ↔ g.Derives [a] [] := by
  have hcovered := covered_iff hg (fun _ => false) a
  simp only [Bool.false_eq_true, false_or] at hcovered
  rw [nullable, List.contains_iff_mem, nullables, hcovered]
  constructor
  · rintro ⟨word, hword, hgiven⟩
    rwa [List.eq_nil_iff_forall_not_mem.mpr fun s hs => Bool.false_ne_true (hgiven s hs)]
      at hword
  · exact fun h => ⟨[], h, by simp⟩

include hg in
theorem nullable_nonterminal {a : SymbolId} (h : g.nullable a = true) :
    g.isNonterminal a = true :=
  generating_nonterminal hg (List.contains_iff_mem.mp h)

include hg in
theorem derives_nil_of_nullable {row : List SymbolId} (h : ∀ s ∈ row, g.nullable s = true) :
    g.Derives row [] := by
  induction row with
  | nil => exact .refl
  | cons a row ih =>
      exact derives_append ((nullable_iff_derives hg a).mp (h a (by simp)))
        (ih fun s hs => h s (by simp [hs]))

end Numbered

end Grammar
end EarleyChart
