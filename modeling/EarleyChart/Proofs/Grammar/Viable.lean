import EarleyChart.Proofs.Grammar.Derivation

/-!
Beginnings of sentential forms. A row of symbols begins with a string and a
terminal after it if it derives a form that does, whatever the rest of the form
is. The inductive relation follows the row up to that terminal, and passes over
symbols or goes down into one; it is what a chart can follow.
-/

namespace EarleyChart
namespace Grammar

/-- A row of symbols derives a string of terminals followed by a terminal. -/
inductive Begins (g : Grammar) : List SymbolId → List SymbolId → SymbolId → Prop
  | here (t : SymbolId) (row : List SymbolId) : Begins g (t :: row) [] t
  | across {s t : SymbolId} {row inner word : List SymbolId} (hinner : g.Spells [s] inner)
      (hrow : Begins g row word t) : Begins g (s :: row) (inner ++ word) t
  | into {r : Rule} {row word : List SymbolId} {t : SymbolId} (hr : r ∈ g.rules)
      (hrhs : Begins g r.rhs word t) : Begins g (r.lhs :: row) word t

variable {g : Grammar}

theorem begins_self {word rest : List SymbolId} {t : SymbolId}
    (h : ∀ s ∈ word, g.isTerminal s = true) : g.Begins (word ++ t :: rest) word t := by
  induction word with
  | nil => exact .here t rest
  | cons s word ih =>
      have hself : g.Spells [s] [s] := .terminal (h s (by simp)) .nil
      exact .across hself (ih fun other hother => h other (by simp [hother]))

/-- The terminal lies in the first part of a row, or after all that it stands for. -/
theorem begins_append_inv {front back word : List SymbolId} {t : SymbolId}
    (h : g.Begins (front ++ back) word t) :
    g.Begins front word t ∨ ∃ inner rest, word = inner ++ rest ∧ g.Spells front inner ∧
      g.Begins back rest t := by
  induction front generalizing word with
  | nil => exact .inr ⟨[], word, rfl, .nil, h⟩
  | cons s front ih =>
      rw [List.cons_append] at h
      cases h with
      | here => exact .inl (.here t front)
      | @across _ _ _ first word hfirst hrow =>
          rcases ih hrow with hfront | ⟨inner, rest, rfl, hinner, hback⟩
          · exact .inl (.across hfirst hfront)
          · have hspells : g.Spells ([s] ++ front) (first ++ inner) := spells_append hfirst hinner
            exact .inr ⟨first ++ inner, rest, by simp, hspells, hback⟩
      | into hr hrhs => exact .inl (.into hr hrhs)

/-- What a row begins with after a step, it begins with before the step. -/
theorem begins_of_produces {row next word : List SymbolId} {t : SymbolId}
    (h : g.Produces row next) (k : g.Begins next word t) : g.Begins row word t := by
  obtain ⟨r, before, after, hr⟩ := h
  rw [List.append_assoc] at k
  induction before generalizing word with
  | nil =>
      rw [List.nil_append] at k ⊢
      rcases begins_append_inv k with hrhs | ⟨inner, rest, rfl, hinner, hafter⟩
      · exact .into hr hrhs
      · apply Begins.across _ hafter
        have hspells := Spells.rule hr hinner .nil
        rwa [List.append_nil] at hspells
  | cons s before ih =>
      rw [List.cons_append] at k
      cases k with
      | here => exact .here t _
      | across hinner hrow => exact .across hinner (ih hrow)
      | into hr' hrhs => exact .into hr' hrhs

theorem begins_of_derives {row word rest : List SymbolId} {t : SymbolId}
    (h : g.Derives row (word ++ t :: rest)) (hword : ∀ s ∈ word, g.isTerminal s = true) :
    g.Begins row word t := by
  induction h using Relation.ReflTransGen.head_induction_on with
  | refl => exact begins_self hword
  | head hstep _ ih => exact begins_of_produces hstep ih

/-- The start symbol derives a form that begins with the terminals of the tokens. -/
def Viable (g : Grammar) (tokens : List Token) : Prop :=
  ∃ word rest, tokens.map (fun token => g.terminalForKind? token.kind) = word.map some ∧
    g.Derives [g.start] (word ++ rest)

/-- The start symbol derives a form that begins with the terminals of the tokens
and goes on with a terminal. -/
def MayFollow (g : Grammar) (tokens : List Token) (terminal : SymbolId) : Prop :=
  ∃ word rest, tokens.map (fun token => g.terminalForKind? token.kind) = word.map some ∧
    g.Derives [g.start] (word ++ terminal :: rest)

theorem viable_nil (g : Grammar) : g.Viable [] := ⟨[], [g.start], rfl, .refl⟩

/-- Tokens that begin a form do so when the last ones are left out. -/
theorem viable_of_append {front back : List Token} (h : g.Viable (front ++ back)) :
    g.Viable front := by
  obtain ⟨word, rest, hword, hderives⟩ := h
  rw [List.map_append] at hword
  obtain ⟨first, last, rfl, hfirst, -⟩ := List.append_eq_map_iff.mp hword
  rw [List.append_assoc] at hderives
  exact ⟨first, last ++ rest, hfirst.symm, hderives⟩

theorem viable_take {tokens : List Token} {i j : Nat} (hle : i ≤ j)
    (h : g.Viable (tokens.take j)) : g.Viable (tokens.take i) := by
  have hsplit := List.take_append_drop i (tokens.take j)
  rw [List.take_take, Nat.min_eq_left hle] at hsplit
  rw [← hsplit] at h
  exact viable_of_append h

/-- One token more begins a form exactly if its terminal may follow. -/
theorem viable_concat_iff {tokens : List Token} {token : Token} :
    g.Viable (tokens ++ [token]) ↔
      ∃ terminal, g.terminalForKind? token.kind = some terminal ∧
        g.MayFollow tokens terminal := by
  constructor
  · rintro ⟨word, rest, hword, hderives⟩
    rw [List.map_append] at hword
    obtain ⟨first, last, rfl, hfirst, hlast⟩ := List.append_eq_map_iff.mp hword
    obtain ⟨terminal, rfl⟩ : ∃ terminal, last = [terminal] := by
      have hlength := congrArg List.length hlast
      simpa [List.length_eq_one_iff] using hlength
    refine ⟨terminal, ?_, first, rest, hfirst.symm, ?_⟩
    · simpa [eq_comm] using hlast
    · simpa using hderives
  · rintro ⟨terminal, hkind, word, rest, hword, hderives⟩
    exact ⟨word ++ [terminal], rest, by simp [hword, hkind], by simpa using hderives⟩

end Grammar
end EarleyChart
