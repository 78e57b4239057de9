import EarleyChart.Forest.Tree
import EarleyChart.Proofs.Parser.Recognition

/-!
Derivation trees of a grammar, without a chart. A tree for a symbol applies a
rule of it to trees for the right-hand side, or reads a token as it. What the
trees of a row of symbols read is a string that the row stands for.
-/

namespace EarleyChart
namespace ParseTree

mutual

/-- A tree of a grammar for a symbol, without corrections. -/
def Derives (g : Grammar) : ParseTree → SymbolId → Prop
  | .node rule lhs children, symbol =>
      lhs = symbol ∧ ∃ r, g.rule? rule = some r ∧ r.lhs = lhs ∧ DeriveAll g children r.rhs
  | .leaf terminal token, symbol =>
      terminal = symbol ∧ g.terminalForKind? token.kind = some terminal
  | .substituted _ _, _ => False
  | .skipped _, _ => False

def DeriveAll (g : Grammar) : List ParseTree → List SymbolId → Prop
  | [], row => row = []
  | child :: rest, row =>
      ∃ symbol back, row = symbol :: back ∧ Derives g child symbol ∧ DeriveAll g rest back

end

variable {g : Grammar}

theorem deriveAll_cons {child : ParseTree} {rest : List ParseTree} {symbol : SymbolId}
    {row : List SymbolId} : DeriveAll g (child :: rest) (symbol :: row) ↔
      child.Derives g symbol ∧ DeriveAll g rest row := by
  rw [DeriveAll]
  constructor
  · rintro ⟨_, _, ⟨⟩, hchild, hrest⟩
    exact ⟨hchild, hrest⟩
  · rintro ⟨hchild, hrest⟩
    exact ⟨symbol, row, rfl, hchild, hrest⟩

/-- The trees of a row that ends with a symbol end with a tree of that symbol. -/
theorem deriveAll_concat {trees : List ParseTree} {row : List SymbolId} {symbol : SymbolId} :
    DeriveAll g trees (row ++ [symbol]) ↔ ∃ front last, trees = front ++ [last] ∧
      DeriveAll g front row ∧ last.Derives g symbol := by
  induction row generalizing trees with
  | nil =>
      constructor
      · intro h
        cases trees with
        | nil => simp [DeriveAll] at h
        | cons child rest =>
            obtain ⟨hchild, hrest⟩ := deriveAll_cons.mp h
            cases rest with
            | nil => exact ⟨[], child, rfl, rfl, hchild⟩
            | cons other rest => simp [DeriveAll] at hrest
      · rintro ⟨front, last, rfl, hfront, hlast⟩
        cases front with
        | nil => exact deriveAll_cons.mpr ⟨hlast, rfl⟩
        | cons other rest => simp [DeriveAll] at hfront
  | cons first row ih =>
      constructor
      · intro h
        cases trees with
        | nil => simp [DeriveAll] at h
        | cons child rest =>
            obtain ⟨hchild, hrest⟩ := deriveAll_cons.mp h
            obtain ⟨front, last, rfl, hfront, hlast⟩ := ih.mp hrest
            exact ⟨child :: front, last, rfl, deriveAll_cons.mpr ⟨hchild, hfront⟩, hlast⟩
      · rintro ⟨front, last, rfl, hfront, hlast⟩
        cases front with
        | nil => simp [DeriveAll] at hfront
        | cons child front =>
            obtain ⟨hchild, hfront⟩ := deriveAll_cons.mp hfront
            exact deriveAll_cons.mpr ⟨hchild, ih.mpr ⟨front, last, rfl, hfront, hlast⟩⟩

theorem tokensOfAll_append (front back : List ParseTree) :
    tokensOfAll (front ++ back) = tokensOfAll front ++ tokensOfAll back := by
  induction front with
  | nil => rfl
  | cons child front ih => rw [List.cons_append, tokensOfAll, tokensOfAll, ih, List.append_assoc]

theorem tokensOfAll_concat (front : List ParseTree) (last : ParseTree) :
    tokensOfAll (front ++ [last]) = tokensOfAll front ++ last.tokens := by
  rw [tokensOfAll_append, tokensOfAll, tokensOfAll, List.append_nil]

mutual

/-- The tokens of a tree stand for a string that its symbol derives. -/
theorem spells_of_derives (hg : g.Numbered) : (tree : ParseTree) →
    (symbol : SymbolId) → tree.Derives g symbol →
    ∃ word, g.Spells [symbol] word ∧
      tree.tokens.map (fun token => g.terminalForKind? token.kind) = word.map some
  | .node rule lhs children, symbol, h => by
      rw [Derives] at h
      obtain ⟨rfl, r, hr, rfl, hchildren⟩ := h
      obtain ⟨word, hspells, htokens⟩ := spells_of_deriveAll hg children r.rhs hchildren
      refine ⟨word, ?_, by rw [tokens, htokens]⟩
      have := Grammar.Spells.rule (Array.mem_of_getElem? hr) hspells .nil
      rwa [List.append_nil] at this
  | .leaf terminal token, symbol, h => by
      rw [Derives] at h
      obtain ⟨rfl, hkind⟩ := h
      exact ⟨[terminal], .terminal (Symbols.terminalForKind?_isTerminal hg.tabled hkind) .nil,
        by simp [tokens, hkind]⟩
  | .substituted _ _, _, h => by simp [Derives] at h
  | .skipped _, _, h => by simp [Derives] at h

theorem spells_of_deriveAll (hg : g.Numbered) : (trees : List ParseTree) → (row : List SymbolId) →
    DeriveAll g trees row → ∃ word, g.Spells row word ∧
      (tokensOfAll trees).map (fun token => g.terminalForKind? token.kind) = word.map some
  | [], row, h => by
      rw [DeriveAll] at h
      subst h
      exact ⟨[], .nil, rfl⟩
  | child :: rest, row, h => by
      rw [DeriveAll] at h
      obtain ⟨symbol, back, rfl, hchild, hrest⟩ := h
      obtain ⟨word, hspells, htokens⟩ := spells_of_derives hg child symbol hchild
      obtain ⟨word', hspells', htokens'⟩ := spells_of_deriveAll hg rest back hrest
      refine ⟨word ++ word', Grammar.spells_append hspells hspells', ?_⟩
      rw [tokensOfAll, List.map_append, htokens, htokens', List.map_append]

end

end ParseTree

namespace Grammar

def derivations (g : Grammar) (tokens : List Token) (rule : RuleId) : Set ParseTree :=
  {tree | tree.Derives g g.start ∧ tree.tokens = tokens ∧
    ∃ children, tree = .node rule (g.lhs rule) children}

end Grammar
end EarleyChart
