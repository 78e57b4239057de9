import EarleyChart.Grammar.Generating
import EarleyChart.Proofs.Grammar.Numbering
import Mathlib.Data.List.Nodup
import Mathlib.Data.List.Perm.Subperm

/-!
Sets of symbols that are found by rounds over the rules. A step puts symbols of
a given list in front of those found so far and repeats none. What every step
keeps holds at the end, and with enough rounds the end is a set to which no rule
adds: every round but the last adds a symbol of the list. The set of generating
nonterminals is found so: a rule whose right-hand side is covered has its left-hand
side in it. For the nullable nonterminals this says that a rule of nullable symbols
has a nullable left-hand side.
-/

namespace EarleyChart
namespace Grammar

def roundsFrom (step : List SymbolId → Rule → List SymbolId) (rules : List Rule) :
    Nat → List SymbolId → List SymbolId
  | 0, found => found
  | rounds + 1, found =>
      let more := rules.foldl step found
      if more.length = found.length then found else roundsFrom step rules rounds more

/-- A step adds symbols of a list in front of those found, each of them once. -/
structure Gathers (step : List SymbolId → Rule → List SymbolId) (rules : List Rule)
    (all : List SymbolId) : Prop where
  keeps : ∀ found rule, found <:+ step found rule
  nodup : ∀ found rule, found.Nodup → (step found rule).Nodup
  within : ∀ rule ∈ rules, ∀ found ⊆ all, step found rule ⊆ all

variable {step : List SymbolId → Rule → List SymbolId} {rules : List Rule} {all : List SymbolId}

theorem generatingFrom_eq (g : Grammar) (given : SymbolId → Bool) (rounds : Nat)
    (found : List SymbolId) :
    g.generatingFrom given rounds found =
      roundsFrom (generatingStep given) g.rules.toList rounds found := by
  induction rounds generalizing found with
  | zero => rfl
  | succ rounds ih => simp only [generatingFrom, roundsFrom, generatingRound, ih]

/-- What every step keeps, the rounds keep. -/
theorem roundsFrom_keeps (motive : List SymbolId → Prop)
    (hstep : ∀ rule ∈ rules, ∀ found, motive found → motive (step found rule)) (rounds : Nat)
    {found : List SymbolId} (h : motive found) : motive (roundsFrom step rules rounds found) := by
  induction rounds generalizing found with
  | zero => exact h
  | succ rounds ih =>
      simp only [roundsFrom]
      split
      · exact h
      · exact ih (List.foldlRecOn rules step h fun found h rule hrule => hstep rule hrule found h)

theorem Gathers.foldl_suffix (h : Gathers step rules all) (part : List Rule)
    (found : List SymbolId) : found <:+ part.foldl step found :=
  List.foldlRecOn part step (List.suffix_refl found) fun _ hfound rule _ =>
    hfound.trans (h.keeps _ rule)

theorem Gathers.foldl_nodup (h : Gathers step rules all) {found : List SymbolId}
    (hfound : found.Nodup) : (rules.foldl step found).Nodup :=
  List.foldlRecOn rules step hfound fun _ hfound rule _ => h.nodup _ rule hfound

theorem Gathers.foldl_within (h : Gathers step rules all) {found : List SymbolId}
    (hfound : found ⊆ all) : rules.foldl step found ⊆ all :=
  List.foldlRecOn (motive := (· ⊆ all)) rules step hfound fun _ hfound rule hrule =>
    h.within rule hrule _ hfound

/-- In a round that adds nothing no rule does. -/
theorem Gathers.step_of_foldl (h : Gathers step rules all) {part : List Rule}
    {found : List SymbolId} (hsame : (part.foldl step found).length = found.length) :
    ∀ rule ∈ part, step found rule = found := by
  induction part with
  | nil => simp
  | cons first part ih =>
      have hfirst := h.keeps found first
      have hrest := h.foldl_suffix part (step found first)
      rw [List.foldl_cons] at hsame
      have hstep : step found first = found :=
        (hfirst.eq_of_length (by have := hfirst.length_le; have := hrest.length_le; omega)).symm
      rw [hstep] at hsame
      rintro rule (_ | ⟨_, hrule⟩)
      · exact hstep
      · exact ih hsame rule hrule

/-- With enough rounds no rule adds to the set at the end. -/
theorem Gathers.settled (h : Gathers step rules all) (rounds : Nat) {found : List SymbolId}
    (hnodup : found.Nodup) (hfound : found ⊆ all) (hroom : all.length < found.length + rounds) :
    ∀ rule ∈ rules, step (roundsFrom step rules rounds found) rule =
      roundsFrom step rules rounds found := by
  induction rounds generalizing found with
  | zero =>
      have := (hnodup.subperm hfound).length_le
      omega
  | succ rounds ih =>
      simp only [roundsFrom]
      split
      · next hsame => exact h.step_of_foldl hsame
      · next hmore =>
          have hlength := (h.foldl_suffix rules found).length_le
          exact ih (h.foldl_nodup hnodup) (h.foldl_within hfound) (by omega)

/-- A step adds the left-hand side of a covered rule unless it was found before. -/
theorem generatingStep_cases (given : SymbolId → Bool) (found : List SymbolId) (rule : Rule) :
    ((∀ s ∈ rule.rhs, given s = true ∨ s ∈ found) ∧ rule.lhs ∉ found ∧
        generatingStep given found rule = rule.lhs :: found) ∨
      ((∀ s ∈ rule.rhs, given s = true ∨ s ∈ found) → rule.lhs ∈ found) ∧
        generatingStep given found rule = found := by
  simp only [generatingStep, List.contains_iff_mem]
  split
  · next hfound => exact .inr ⟨fun _ => hfound, rfl⟩
  · next hnew =>
      split
      · next hcovered => exact .inl ⟨by simpa using hcovered, hnew, rfl⟩
      · next hcovered => exact .inr ⟨fun h => absurd (by simpa using h) hcovered, rfl⟩

theorem generatingStep_gathers (g : Grammar) (hg : g.Numbered) (given : SymbolId → Bool) :
    Gathers (generatingStep given) g.rules.toList g.nonterminalIds where
  keeps found rule := by
    obtain ⟨-, -, hstep⟩ | ⟨-, hstep⟩ := generatingStep_cases given found rule
    · exact hstep ▸ List.suffix_cons _ _
    · exact hstep.symm ▸ List.suffix_refl _
  nodup found rule hfound := by
    obtain ⟨-, hnew, hstep⟩ | ⟨-, hstep⟩ := generatingStep_cases given found rule
    · exact hstep ▸ hfound.cons hnew
    · rwa [hstep]
  within rule hrule found hfound := by
    obtain ⟨-, -, hstep⟩ | ⟨-, hstep⟩ := generatingStep_cases given found rule
    · rw [hstep]
      have hlhs := hg.lhs rule (by simpa using hrule)
      exact List.cons_subset.mpr ⟨(g.mem_nonterminalIds_iff _).mpr hlhs, hfound⟩
    · rwa [hstep]

/-- The set found is closed under the rules. -/
theorem generating_closed {g : Grammar} (hg : g.Numbered) {given : SymbolId → Bool} {r : Rule}
    (hr : r ∈ g.rules) (h : ∀ s ∈ r.rhs, given s = true ∨ s ∈ g.generating given) :
    r.lhs ∈ g.generating given := by
  have hsettled := (g.generatingStep_gathers hg given).settled (g.nonterminalCount + 1) .nil
    (List.nil_subset _) (by simp [Symbols.nonterminalIds]) r (by simpa using hr)
  rw [← generatingFrom_eq] at hsettled
  obtain ⟨-, -, hstep⟩ | ⟨hclosed, -⟩ := generatingStep_cases given (g.generating given) r
  · exact absurd (hstep.symm.trans hsettled) (List.cons_ne_self _ _)
  · exact hclosed h

/-- A rule of nullable symbols has a nullable left-hand side. -/
theorem nullable_of_rule (g : Grammar) (hg : g.Numbered) (r : Rule) (hr : r ∈ g.rules)
    (h : ∀ s ∈ r.rhs, g.nullable s = true) : g.nullable r.lhs = true := by
  simp only [nullable, List.contains_iff_mem] at h ⊢
  exact generating_closed hg hr fun s hs => .inr (h s hs)

end Grammar
end EarleyChart
