import EarleyChart.Proofs.Grammar.Numbering
import Mathlib.Logic.Relation

/-!
Derivations of a grammar. `Derives` is the closure of single rewriting steps
between sentential forms. `Spells` reads a row of symbols directly as a string
of terminals, one symbol after another, and is what the recursion of a parser
follows. On strings of terminals the two agree.
-/

namespace EarleyChart
namespace Grammar

/-- One step: the left-hand side of a rule is replaced by its right-hand side. -/
inductive Produces (g : Grammar) : List SymbolId → List SymbolId → Prop
  | rule (r : Rule) (before after : List SymbolId) (hr : r ∈ g.rules) :
      Produces g (before ++ r.lhs :: after) (before ++ r.rhs ++ after)

def Derives (g : Grammar) : List SymbolId → List SymbolId → Prop :=
  Relation.ReflTransGen g.Produces

/-- A row of symbols stands for a string of terminals. -/
inductive Spells (g : Grammar) : List SymbolId → List SymbolId → Prop
  | nil : Spells g [] []
  | terminal {t : SymbolId} {row word : List SymbolId} (ht : g.isTerminal t = true)
      (hrow : Spells g row word) : Spells g (t :: row) (t :: word)
  | rule {r : Rule} {row inner word : List SymbolId} (hr : r ∈ g.rules)
      (hinner : Spells g r.rhs inner) (hrow : Spells g row word) :
      Spells g (r.lhs :: row) (inner ++ word)

theorem derives_cons (g : Grammar) (s : SymbolId) {u v : List SymbolId}
    (h : g.Derives u v) : g.Derives (s :: u) (s :: v) := by
  refine Relation.ReflTransGen.lift (s :: ·) ?_ u v h
  rintro _ _ ⟨r, before, after, hr⟩
  exact .rule r (s :: before) after hr

theorem derives_append_left (g : Grammar) (front : List SymbolId) {u v : List SymbolId}
    (h : g.Derives u v) : g.Derives (front ++ u) (front ++ v) := by
  induction front with
  | nil => exact h
  | cons s front ih => exact g.derives_cons s ih

theorem derives_append_right (g : Grammar) (back : List SymbolId) {u v : List SymbolId}
    (h : g.Derives u v) : g.Derives (u ++ back) (v ++ back) := by
  refine Relation.ReflTransGen.lift (· ++ back) ?_ u v h
  rintro _ _ ⟨r, before, after, hr⟩
  simpa [Function.onFun] using Produces.rule r before (after ++ back) hr

theorem spells_append {g : Grammar} {row back word rest : List SymbolId}
    (h : g.Spells row word) (k : g.Spells back rest) :
    g.Spells (row ++ back) (word ++ rest) := by
  induction h with
  | nil => exact k
  | terminal ht _ ih => exact .terminal ht ih
  | rule hr hinner _ _ ih =>
      rw [List.append_assoc]
      exact .rule hr hinner ih

theorem spells_append_inv {g : Grammar} {row back word : List SymbolId}
    (h : g.Spells (row ++ back) word) :
    ∃ first rest, word = first ++ rest ∧ g.Spells row first ∧ g.Spells back rest := by
  induction row generalizing word with
  | nil => exact ⟨[], word, rfl, .nil, h⟩
  | cons s row ih =>
      rw [List.cons_append] at h
      cases h with
      | terminal ht hrow =>
          obtain ⟨first, rest, rfl, hfirst, hrest⟩ := ih hrow
          exact ⟨s :: first, rest, rfl, .terminal ht hfirst, hrest⟩
      | rule hr hinner hrow =>
          obtain ⟨first, rest, rfl, hfirst, hrest⟩ := ih hrow
          exact ⟨_ ++ first, rest, by simp, .rule hr hinner hfirst, hrest⟩

theorem spells_terminals {g : Grammar} {row word : List SymbolId} (h : g.Spells row word) :
    ∀ t ∈ word, g.isTerminal t = true := by
  induction h with
  | nil => simp
  | terminal ht _ ih => simpa using ⟨ht, ih⟩
  | rule _ _ _ ihinner ihrow =>
      intro t ht
      rcases List.mem_append.mp ht with ht | ht
      · exact ihinner t ht
      · exact ihrow t ht

theorem derives_of_spells {g : Grammar} {row word : List SymbolId} (h : g.Spells row word) :
    g.Derives row word := by
  induction h with
  | nil => exact .refl
  | terminal _ _ ih => exact g.derives_cons _ ih
  | @rule r row inner word hr _ _ ihinner ihrow =>
      have hstep : g.Derives (r.lhs :: row) (r.rhs ++ row) :=
        .single (by simpa using Produces.rule r [] row hr)
      exact hstep.trans ((g.derives_append_right row ihinner).trans
        (g.derives_append_left inner ihrow))

theorem spells_self {g : Grammar} {word : List SymbolId}
    (h : ∀ t ∈ word, g.isTerminal t = true) : g.Spells word word := by
  induction word with
  | nil => exact .nil
  | cons t word ih =>
      exact .terminal (h t (by simp)) (ih fun s hs => h s (by simp [hs]))

/-- What a row stands for after a step, it stands for before the step. -/
theorem spells_of_produces {g : Grammar} {row next word : List SymbolId}
    (h : g.Produces row next) (k : g.Spells next word) : g.Spells row word := by
  obtain ⟨r, before, after, hr⟩ := h
  obtain ⟨front, back, rfl, hfront, hback⟩ := spells_append_inv k
  obtain ⟨first, inner, rfl, hfirst, hinner⟩ := spells_append_inv hfront
  rw [List.append_assoc]
  exact spells_append hfirst (.rule hr hinner hback)

/-- A row stands for a string exactly if it derives it and it is made of terminals. -/
theorem spells_iff_derives {g : Grammar} {row word : List SymbolId} :
    g.Spells row word ↔ g.Derives row word ∧ ∀ t ∈ word, g.isTerminal t = true := by
  constructor
  · exact fun h => ⟨derives_of_spells h, spells_terminals h⟩
  · rintro ⟨h, hterminals⟩
    induction h using Relation.ReflTransGen.head_induction_on with
    | refl => exact spells_self hterminals
    | head hstep _ ih => exact spells_of_produces hstep ih

end Grammar
end EarleyChart
