import EarleyChart.Proofs.Grammar.Derivation
import EarleyChart.Proofs.Parser.Repair

/-!
Without repair a run recognizes the language of its grammar. A derivation of an
identity at no cost spells the symbols before its dot with the tokens since its
origin, and every string that a row of symbols stands for is derived so.
-/

namespace EarleyChart

/-- The tokens from a column on are read as the terminals of a string. -/
def Grammar.Stands (g : Grammar) (tokens : List Token) (column : Nat) (word : List SymbolId) :
    Prop :=
  ∀ i terminal, word[i]? = some terminal →
    ∃ token, tokens[column + i]? = some token ∧ g.terminalForKind? token.kind = some terminal

theorem Grammar.stands_append {g : Grammar} {tokens : List Token} {column : Nat}
    {word rest : List SymbolId} : g.Stands tokens column (word ++ rest) ↔
      g.Stands tokens column word ∧ g.Stands tokens (column + word.length) rest := by
  constructor
  · intro h
    refine ⟨fun i terminal hi => h i terminal ?_, fun i terminal hi => ?_⟩
    · rw [List.getElem?_append_left (List.getElem?_eq_some_iff.mp hi).1, hi]
    · rw [Nat.add_assoc]
      refine h _ terminal ?_
      rw [List.getElem?_append_right (Nat.le_add_right _ _), Nat.add_sub_cancel_left, hi]
  · rintro ⟨h, k⟩ i terminal hi
    rcases Nat.lt_or_ge i word.length with hlt | hge
    · rw [List.getElem?_append_left hlt] at hi
      exact h i terminal hi
    · rw [List.getElem?_append_right hge] at hi
      have := k _ terminal hi
      rwa [Nat.add_assoc, Nat.add_sub_of_le hge] at this

theorem Grammar.stands_singleton {g : Grammar} {tokens : List Token} {column : Nat}
    {terminal : SymbolId} : g.Stands tokens column [terminal] ↔
      ∃ token, tokens[column]? = some token ∧
        g.terminalForKind? token.kind = some terminal := by
  constructor
  · exact fun h => h 0 terminal rfl
  · intro h i other hi
    cases i with
    | zero =>
        obtain rfl := Option.some.inj hi
        exact h
    | succ i => simp at hi

/-- All tokens stand for a string exactly if it is the list of their terminals. -/
theorem Grammar.stands_all_iff {g : Grammar} {tokens : List Token} {word : List SymbolId} :
    tokens.map (fun token => g.terminalForKind? token.kind) = word.map some ↔
      g.Stands tokens 0 word ∧ word.length = tokens.length := by
  constructor
  · intro h
    have hlength := congrArg List.length h
    rw [List.length_map, List.length_map] at hlength
    refine ⟨fun i terminal hi => ?_, hlength.symm⟩
    have := congrArg (·[i]?) h
    simp only [List.getElem?_map, hi, Option.map_some] at this
    rw [Nat.zero_add]
    exact Option.map_eq_some_iff.mp this
  · rintro ⟨h, hlength⟩
    refine List.ext_getElem? fun i => ?_
    rw [List.getElem?_map, List.getElem?_map]
    cases hi : word[i]? with
    | none =>
        rw [List.getElem?_eq_none_iff, hlength, ← List.getElem?_eq_none_iff] at hi
        rw [hi, Option.map_none, Option.map_none]
    | some terminal =>
        obtain ⟨token, htoken, hkind⟩ := h i terminal hi
        rw [Nat.zero_add] at htoken
        rw [htoken, Option.map_some, hkind, Option.map_some]

variable {g : Grammar} {tokens : List Token}

/-- What is derived without repair spells the symbols before the dot. -/
theorem Corrected.spells (hg : g.Numbered) {column : Nat} {key : ItemKey} {cost : Nat}
    (h : Corrected g .none tokens column key cost) :
    ∃ r word, g.rule? key.rule = some r ∧ column = key.origin + word.length ∧
      g.Stands tokens key.origin word ∧ g.Spells (r.rhs.take key.dot) word := by
  induction h with
  | start column rule _ hrule =>
      obtain ⟨r, hr⟩ := Option.isSome_iff_exists.mp hrule
      exact ⟨r, [], hr, rfl, by simp [Grammar.Stands], .nil⟩
  | @scan column key _ token terminal _ htoken hnext hkind ih =>
      obtain ⟨r, word, hr, hcolumn, hstands, hspells⟩ := ih
      have hget : r.rhs[key.dot]? = some terminal := by
        simpa [Grammar.awaits?, Grammar.next?, hr] using hnext
      refine ⟨r, word ++ [terminal], hr, ?_, ?_, ?_⟩
      · rw [List.length_append, List.length_singleton, hcolumn]
        rfl
      · refine Grammar.stands_append.mpr ⟨hstands, Grammar.stands_singleton.mpr ⟨token, ?_, hkind⟩⟩
        exact hcolumn ▸ htoken
      · rw [ItemKey.next, List.take_add_one, hget]
        exact Grammar.spells_append hspells
          (.terminal (Symbols.terminalForKind?_isTerminal hg.tabled hkind) .nil)
  | substitute _ _ _ _ _ hquote | delete _ _ _ _ hquote => contradiction
  | @join column left right _ _ _ _ hnext hend ih ih' =>
      obtain ⟨r, word, hr, hcolumn, hstands, hspells⟩ := ih
      obtain ⟨r', inner, hr', hcolumn', hstands', hspells'⟩ := ih'
      have hlhs : g.lhs right.rule = r'.lhs := by rw [Grammar.lhs, hr', Option.elim_some]
      have hget : r.rhs[left.dot]? = some r'.lhs := by
        simpa [Grammar.awaits?, Grammar.next?, hr, hlhs] using hnext
      have hfull : r'.rhs.take right.dot = r'.rhs := by
        refine List.take_of_length_le ?_
        simpa [Grammar.awaits?, Grammar.next?, hr'] using hend
      rw [hfull] at hspells'
      refine ⟨r, word ++ inner, hr, ?_, ?_, ?_⟩
      · rw [List.length_append, ← Nat.add_assoc]
        exact hcolumn'.trans (by rw [hcolumn]; rfl)
      · exact Grammar.stands_append.mpr ⟨hstands, hcolumn ▸ hstands'⟩
      · rw [ItemKey.next, List.take_add_one, hget]
        refine Grammar.spells_append hspells ?_
        have := Grammar.Spells.rule (Array.mem_of_getElem? hr') hspells' .nil
        rwa [List.append_nil] at this

theorem row_cons {symbol : SymbolId} {row rhs : List SymbolId} {dot : Nat}
    (h : symbol :: row <+: rhs.drop dot) :
    rhs[dot]? = some symbol ∧ row <+: rhs.drop (dot + 1) := by
  obtain ⟨rest, hrest⟩ := h
  constructor
  · rw [← List.head?_drop, ← hrest, List.cons_append, List.head?_cons]
  · rw [← List.tail_drop, ← hrest, List.cons_append, List.tail_cons]
    exact List.prefix_append _ _

/-- A row of symbols after the dot is derived from the tokens that it stands for. -/
theorem Grammar.Spells.corrected {row word : List SymbolId} (h : g.Spells row word)
    {column : Nat} (key : ItemKey) {r : Rule} (hr : g.rule? key.rule = some r)
    (hrow : row <+: r.rhs.drop key.dot) (hstands : g.Stands tokens column word)
    (hroom : column + word.length ≤ tokens.length)
    (hderived : Corrected g .none tokens column key 0) :
    Corrected g .none tokens (column + word.length)
      ⟨key.rule, key.dot + row.length, key.origin⟩ 0 := by
  induction h generalizing column key r with
  | nil => exact hderived
  | @terminal terminal row word _ _ ih =>
      obtain ⟨hfirst, hrest⟩ := row_cons hrow
      obtain ⟨token, htoken, hkind⟩ := hstands 0 terminal rfl
      have hnext : g.awaits? key = some terminal := by
        simp [Grammar.awaits?, Grammar.next?, hr, hfirst]
      have hstep := Corrected.scan hderived htoken hnext hkind
      rw [List.length_cons] at hroom
      have hstands' : g.Stands tokens column ([terminal] ++ word) := hstands
      have := ih key.next hr hrest (Grammar.stands_append.mp hstands').2
        (by rw [List.length_singleton]; omega) hstep
      simpa [ItemKey.next, Nat.add_assoc, Nat.add_comm 1] using this
  | @rule r' row inner word hr' _ _ ihinner ihrow =>
      obtain ⟨hfirst, hrest⟩ := row_cons hrow
      obtain ⟨rule, hrule⟩ := Array.mem_iff_getElem?.mp hr'
      rw [List.length_append] at hroom
      obtain ⟨hstands, hstands'⟩ := Grammar.stands_append.mp hstands
      have hlhs : g.lhs rule = r'.lhs := by rw [Grammar.lhs, Grammar.rule?, hrule, Option.elim_some]
      have hnext : g.awaits? key = some (g.lhs rule) := by
        simp [Grammar.awaits?, Grammar.next?, hr, hfirst, hlhs]
      have hinner := ihinner ⟨rule, 0, column⟩ hrule (List.prefix_refl _) hstands
        (by omega) (.start column rule (by omega) (by simp [Grammar.rule?, hrule]))
      rw [Nat.zero_add] at hinner
      have hstep := Corrected.join hderived hinner hnext (Grammar.next?_length hrule)
      have := ihrow key.next hr hrest hstands' (by omega) hstep
      simpa [ItemKey.next, Nat.add_assoc, Nat.add_comm 1] using this

theorem rule_of_spells {symbol : SymbolId} {word : List SymbolId} (h : g.Spells [symbol] word)
    (hsymbol : g.isNonterminal symbol = true) :
    ∃ r ∈ g.rules, r.lhs = symbol ∧ g.Spells r.rhs word := by
  cases h with
  | terminal ht =>
      rw [g.not_isNonterminal_of_isTerminal symbol ht] at hsymbol
      contradiction
  | @rule r _ inner rest hr hinner hrow =>
      cases hrow with
      | nil => exact ⟨r, hr, rfl, by rwa [List.append_nil]⟩

/-- Free derivations of the whole input are derivations of its terminals. -/
theorem correctsInput_none_iff (hg : g.Numbered) : (∃ cost, CorrectsInput g .none tokens cost) ↔
    ∃ word, tokens.map (fun token => g.terminalForKind? token.kind) = word.map some ∧
      g.Derives [g.start] word := by
  constructor
  · rintro ⟨cost, rule, r, hr, hlhs, hderived⟩
    obtain ⟨r', word, hr', hcolumn, hstands, hspells⟩ := hderived.spells hg
    obtain rfl := Option.some.inj (hr.symm.trans hr')
    rw [List.take_length] at hspells
    have hlength : word.length = tokens.length := by simpa using hcolumn.symm
    refine ⟨word, Grammar.stands_all_iff.mpr ⟨hstands, hlength⟩, ?_⟩
    have := Grammar.Spells.rule (Array.mem_of_getElem? hr) hspells .nil
    rw [List.append_nil, hlhs] at this
    exact (Grammar.spells_iff_derives.mp this).1
  · rintro ⟨word, hword, hderives⟩
    obtain ⟨hstands, hlength⟩ := Grammar.stands_all_iff.mp hword
    have hterminals : ∀ t ∈ word, g.isTerminal t = true := by
      intro t ht
      obtain ⟨i, hi⟩ := List.mem_iff_getElem?.mp ht
      obtain ⟨token, -, hkind⟩ := hstands i t hi
      exact Symbols.terminalForKind?_isTerminal hg.tabled hkind
    obtain ⟨r, hr, hlhs, hspells⟩ := rule_of_spells (Grammar.spells_iff_derives.mpr
      ⟨hderives, hterminals⟩) hg.start
    obtain ⟨rule, hrule⟩ := Array.mem_iff_getElem?.mp hr
    refine ⟨0, rule, r, hrule, hlhs, ?_⟩
    have := hspells.corrected ⟨rule, 0, 0⟩ hrule (List.prefix_refl _) hstands
      (by omega) (.start 0 rule (Nat.zero_le _) (by simp [Grammar.rule?, hrule]))
    simpa [hlength] using this

namespace Parser

/-- Without repair an input is accepted exactly if its tokens stand for terminals
that the start symbol derives. -/
theorem parse_disabled_iff_derives (d : GrammarDef) (g : Grammar) (hd : d.toGrammar = .ok g)
    (hrules : g.rulesFor g.start ≠ []) (config : Config) (hmode : config.recovery = .disabled)
    (costs : CostProvider) (tokens : List Token) :
    let outcome := (fresh g config costs).parse (TokenStream.ofList tokens)
    Stopped config outcome.result ∨
      ∃ verdict, outcome.result = .ok verdict ∧
        (verdict = .accepted ↔
          ∃ word, tokens.map (fun token => g.terminalForKind? token.kind) = word.map some ∧
            g.Derives [g.start] word) := by
  intro outcome
  have hg := d.toGrammar_numbered g hd
  rcases parse_spec hg config costs tokens (.disabled hmode) hrules with
    ⟨verdict, hresult, hfinished⟩ | hstopped
  · refine .inr ⟨verdict, hresult, ?_⟩
    rw [hfinished.accepted_iff hg, ← correctsInput_none_iff hg]
    refine exists_congr fun cost => and_iff_left_of_imp ?_
    rintro ⟨rule, r, -, -, hderived⟩
    rw [hderived.cost_eq_zero]
    exact Nat.zero_le _
  · exact .inl hstopped

def repetitionDef : GrammarDef :=
  (((GrammarDef.empty.terminal "a").rule "S" ["S", "a"]).rule "S" ["S"]).epsilon "S"

def repetition : Grammar where
  terminals := [⟨"a", 0⟩]
  nonterminals := ["S"]
  rules := #[⟨2, [2, 1]⟩, ⟨2, [2]⟩, ⟨2, []⟩]
  start := 2

/-- A run of a left-recursive and cyclic grammar over one token accepts it. -/
theorem parse_disabled_accepts_repetition :
    repetitionDef.toGrammar = .ok repetition ∧ repetition.rulesFor repetition.start ≠ [] ∧
      ((fresh repetition ⟨.disabled, 0, 0, 0, 0, 0⟩ .standard).parse
        (TokenStream.ofList [⟨0, "a", .start⟩])).result = .ok .accepted := by
  have hrules : repetition.rulesFor repetition.start ≠ [] := by decide
  refine ⟨rfl, hrules, ?_⟩
  have hderives : repetition.Derives [2] [1] := by
    refine .tail (.single (.rule ⟨2, [2, 1]⟩ [] [] (by simp [repetition]))) ?_
    exact .rule ⟨2, []⟩ [] [1] (by simp [repetition])
  rcases parse_disabled_iff_derives repetitionDef repetition rfl hrules
    ⟨.disabled, 0, 0, 0, 0, 0⟩ rfl .standard [⟨0, "a", .start⟩] with
    ⟨e, -, hlimit⟩ | ⟨verdict, hresult, hiff⟩
  · exact absurd hlimit (Config.not_limits rfl rfl e)
  · rw [hresult, hiff.mpr ⟨[1], rfl, hderives⟩]

end Parser
end EarleyChart
