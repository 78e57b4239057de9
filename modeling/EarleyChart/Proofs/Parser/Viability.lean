import EarleyChart.Proofs.Grammar.Viable
import EarleyChart.Proofs.Parser.Recognition

/-!
What a column waits for without repair. Soundness goes from the top down: a rule
is called for by an item, so that the start symbol derives what was read before
it, and then its left-hand side. Completeness follows the beginning of a
sentential form through the chart. A terminal is expected exactly if it may
follow.
-/

namespace EarleyChart

variable {g : Grammar} {tokens : List Token}

theorem Grammar.stands_take_iff {n : Nat} (hn : n ≤ tokens.length) {word : List SymbolId} :
    (tokens.take n).map (fun token => g.terminalForKind? token.kind) = word.map some ↔
      g.Stands tokens 0 word ∧ word.length = n := by
  rw [stands_all_iff, List.length_take, Nat.min_eq_left hn]
  refine and_congr_left fun hlength => forall₂_congr fun i terminal => ?_
  refine imp_congr_right fun hi => ?_
  have hlt : i < n := hlength ▸ (List.getElem?_eq_some_iff.mp hi).1
  rw [Nat.zero_add, List.getElem?_take, if_pos hlt]

/-- After the first tokens the start symbol derives a form that goes on with a
symbol. -/
def Grammar.Reaches (g : Grammar) (tokens : List Token) (column : Nat) (symbol : SymbolId) :
    Prop :=
  ∃ word rest, word.length = column ∧ g.Stands tokens 0 word ∧
    g.Derives [g.start] (word ++ symbol :: rest)

theorem Grammar.reaches_iff_mayFollow {n : Nat} (hn : n ≤ tokens.length) {t : SymbolId} :
    g.Reaches tokens n t ↔ g.MayFollow (tokens.take n) t := by
  refine exists₂_congr fun word rest => ?_
  rw [stands_take_iff hn]
  tauto

/-- What an identity waits for is reached where its rule is. -/
theorem Corrected.reaches (hg : g.Numbered) {column : Nat} {key : ItemKey} {cost : Nat}
    (h : Corrected g .none tokens column key cost)
    (hreached : g.Reaches tokens key.origin (g.lhs key.rule)) {symbol : SymbolId}
    (hnext : g.awaits? key = some symbol) : g.Reaches tokens column symbol := by
  obtain ⟨r, inner, hr, hcolumn, hstands', hspells⟩ := h.spells hg
  obtain ⟨word, rest, hlength, hstands, hderives⟩ := hreached
  have hlhs : g.lhs key.rule = r.lhs := by rw [Grammar.lhs, hr, Option.elim_some]
  have hget : r.rhs[key.dot]? = some symbol := by
    simpa [Grammar.awaits?, Grammar.next?, hr] using hnext
  have hsplit : r.rhs = r.rhs.take key.dot ++ symbol :: r.rhs.drop (key.dot + 1) := by
    obtain ⟨hlt, hsymbol⟩ := List.getElem?_eq_some_iff.mp hget
    rw [← hsymbol, List.getElem_cons_drop, List.take_append_drop]
  refine ⟨word ++ inner, r.rhs.drop (key.dot + 1) ++ rest, ?_, ?_, ?_⟩
  · rw [List.length_append, hlength, hcolumn]
  · apply Grammar.stands_append.mpr
    rw [Nat.zero_add, hlength]
    exact ⟨hstands, hstands'⟩
  · -- the rule is applied, and the symbols before the dot are spelled out
    rw [hlhs] at hderives
    have hstep := Grammar.Produces.rule r word rest (Array.mem_of_getElem? hr)
    have hinner := g.derives_append_right (symbol :: r.rhs.drop (key.dot + 1) ++ rest)
      (Grammar.derives_of_spells hspells)
    rw [hsplit] at hstep
    have hspelled := g.derives_append_left word hinner
    simp only [List.append_assoc, List.cons_append] at hstep hspelled ⊢
    exact (hderives.tail hstep).trans hspelled

/-- A rule is called for where its left-hand side is reached. -/
theorem Called.reaches (hg : g.Numbered) {rule : RuleId} {origin : Nat}
    (h : Called g .none tokens rule origin) :
    g.Reaches tokens origin (g.lhs rule) := by
  induction h with
  | start rule hlhs =>
      refine ⟨[], [], rfl, by simp [Grammar.Stands], ?_⟩
      rw [hlhs]
      exact .refl
  | call rule _ hderived hnext ih => exact hderived.reaches hg ih hnext

namespace Chart

def Awaits (g : Grammar) (c : Chart) (symbol : SymbolId) : Prop :=
  ∃ id item, c.item? id = some item ∧ id.column = c.current ∧ g.awaits? item.key = some symbol

/-- The terminals that are expected are those that some item waits for. -/
theorem mem_expectedTerminals {c : Chart} (hc : c.Filed g) (t : SymbolId) :
    t ∈ c.newest?.elim [] (·.expectedTerminals g) ↔ g.isTerminal t = true ∧ c.Awaits g t := by
  rw [newest?, Array.back?_eq_getElem?]
  cases h : c.columns[c.columns.size - 1]? with
  | none =>
      simp only [Option.elim_none, List.not_mem_nil, false_iff]
      rintro ⟨-, id, item, hitem, hid, -⟩
      simp [item?, hid, current, h] at hitem
  | some column =>
      rw [Option.elim_some, Column.expectedTerminals, List.mem_filter, g.mem_terminalIds_iff]
      refine and_congr_right fun hterminal => ?_
      have hrange := (g.isTerminal_iff t).mp hterminal
      have hle : t ≤ g.symbolCount := Nat.le_trans hrange.2 (Nat.le_add_right _ _)
      rw [← Array.isEmpty_toList, Bool.not_eq_true', List.isEmpty_eq_false_iff_exists_mem,
        (hc.column _ _ h).waiting t hle]
      simp only [List.mem_filter, List.mem_range, Option.any_eq_true, beq_iff_eq,
        awaited_eq_iff g _ t (Nat.ne_of_gt hrange.1)]
      constructor
      · rintro ⟨seq, -, item, hitem, hnext⟩
        exact ⟨⟨c.current, seq⟩, item, by rw [c.item?_eq _ column h, hitem], rfl, hnext⟩
      · rintro ⟨⟨_, seq⟩, item, hitem, rfl, hnext⟩
        rw [c.item?_eq _ column h] at hitem
        exact ⟨seq, (c.get?_isSome g hc _ column h seq).mp (by simp [hitem]), item, hitem, hnext⟩

/-- A token is scanned exactly where its terminal is waited for. -/
theorem scans_ne_nil_iff (hg : g.Numbered) {c : Chart} (hc : c.Filed g) (token : Token) :
    c.scans g token ≠ [] ↔
      ∃ terminal, g.terminalForKind? token.kind = some terminal ∧ c.Awaits g terminal := by
  constructor
  · intro hne
    obtain ⟨new, hnew⟩ := List.exists_mem_of_ne_nil _ hne
    obtain ⟨id, item, terminal, hitem, hid, hkind, hnext, -⟩ :=
      (mem_scans g c hc hg token new).mp hnew
    exact ⟨terminal, hkind, id, item, hitem, hid, hnext⟩
  · rintro ⟨terminal, hkind, id, item, hitem, hid, hnext⟩
    apply List.ne_nil_of_mem (a := scanOver item)
    exact (mem_scans g c hc hg token _).mpr ⟨id, item, terminal, hitem, hid, hkind, hnext, rfl⟩

variable {ceiling n : Nat} {c : Chart}

/-- Whatever a column waits for is reached there. -/
theorem Reading.reaches (hg : g.Numbered) (h : c.Reading g .none ceiling tokens n)
    {symbol : SymbolId} (hawaits : c.Awaits g symbol) : g.Reaches tokens n symbol := by
  obtain ⟨id, item, hitem, hid, hnext⟩ := hawaits
  obtain ⟨⟨hderived, -, hcalled⟩, -⟩ := h.sound id item hitem
  rw [hid, h.current] at hderived
  exact hderived.reaches hg (hcalled.reaches hg) hnext

/-- A token that is scanned keeps the input viable. -/
theorem Reading.viable_of_scans (hg : g.Numbered) (h : c.Reading g .none ceiling tokens n)
    {token : Token} (htoken : tokens[n]? = some token) (hscans : c.scans g token ≠ []) :
    g.Viable (tokens.take (n + 1)) := by
  obtain ⟨terminal, hkind, hawaits⟩ := (scans_ne_nil_iff hg h.valid.filed token).mp hscans
  rw [List.take_add_one, htoken, Option.toList_some, Grammar.viable_concat_iff]
  exact ⟨terminal, hkind, (Grammar.reaches_iff_mayFollow h.length).mp (h.reaches hg hawaits)⟩

variable (hg : g.Numbered) (h : c.Reading g .none ceiling tokens n)
  (hlast : ∀ token, tokens[n]? = some token → c.Readings g .none ceiling token [])

include hg h hlast in
/-- The chart follows what a row begins with, from an identity before the row to an
item that waits for the terminal. -/
theorem Reading.awaits_of_begins {row word : List SymbolId} {t : SymbolId}
    (hbegins : g.Begins row word t) {column : Nat} {key : ItemKey} {r : Rule}
    (hr : g.rule? key.rule = some r) (hrow : row <+: r.rhs.drop key.dot)
    (hstands : g.Stands tokens column word) (hcolumn : column + word.length = n)
    (hderived : Corrected g .none tokens column key 0) (hbegun : c.Begun key) :
    c.Awaits g t := by
  have hlength := h.length
  induction hbegins generalizing column key r with
  | here t row =>
      obtain ⟨hfirst, -⟩ := row_cons hrow
      obtain ⟨-, id, item, hitem, hid, rfl, -⟩ :=
        h.contains_of_corrected hg hlast hderived (Nat.zero_le _) hbegun
      refine ⟨id, item, hitem, ?_, ?_⟩
      · rw [hid, h.current, ← hcolumn, List.length_nil, Nat.add_zero]
      · simp [Grammar.awaits?, Grammar.next?, hr, hfirst]
  | @across s t row inner word hinner _ ih =>
      obtain ⟨-, hrest⟩ := row_cons hrow
      obtain ⟨hstands, hstands'⟩ := Grammar.stands_append.mp hstands
      rw [List.length_append] at hcolumn
      have hsingle : [s] <+: r.rhs.drop key.dot := (List.prefix_append [s] row).trans hrow
      have hadvanced := hinner.corrected key hr hsingle hstands (by omega) hderived
      refine ih (r := r) ?_ ?_ hstands' (by omega) hadvanced hbegun
      · exact hr
      · exact hrest
  | @into r' row word t hr' _ ih =>
      obtain ⟨hfirst, -⟩ := row_cons hrow
      obtain ⟨rule, hrule⟩ := Array.mem_iff_getElem?.mp hr'
      obtain ⟨-, id, item, hitem, hid, rfl, -⟩ :=
        h.contains_of_corrected hg hlast hderived (Nat.zero_le _) hbegun
      have hnext : g.next? item.rule item.dot = some r'.lhs := by
        change g.rule? item.rule = some r at hr
        change r.rhs[item.dot]? = some r'.lhs at hfirst
        rw [Grammar.next?, hr, Option.bind_some, hfirst]
      have hpredicted := (h.saturated column (by omega)).predicted id item r'.lhs hitem hid hnext
        (hg.lhs r' hr') rule ((Grammar.mem_rulesFor_iff hg rule r'.lhs).mpr ⟨r', hrule, rfl⟩)
      have hseed : Corrected g .none tokens column ⟨rule, 0, column⟩ 0 :=
        .start column rule (by omega) (by simp [Grammar.rule?, hrule])
      refine ih (r := r') ?_ ?_ hstands hcolumn hseed hpredicted
      · exact hrule
      · exact List.prefix_refl _

include hg h hlast in
/-- A column waits for exactly the terminals that may follow. -/
theorem Reading.awaits_iff {t : SymbolId} (ht : g.isTerminal t = true) :
    c.Awaits g t ↔ g.MayFollow (tokens.take n) t := by
  rw [← Grammar.reaches_iff_mayFollow h.length]
  refine ⟨h.reaches hg, ?_⟩
  rintro ⟨word, rest, hlength, hstands, hderives⟩
  have hterminals : ∀ s ∈ word, g.isTerminal s = true := by
    intro s hs
    obtain ⟨i, hi⟩ := List.mem_iff_getElem?.mp hs
    obtain ⟨token, -, hkind⟩ := hstands i s hi
    exact Symbols.terminalForKind?_isTerminal hg.tabled hkind
  have hbegins := Grammar.begins_of_derives hderives hterminals
  generalize hstart : [g.start] = row at hbegins
  cases hbegins with
  | here =>
      obtain rfl := (List.cons.inj hstart).1
      have := g.not_isNonterminal_of_isTerminal _ ht
      rw [hg.start] at this
      contradiction
  | across _ hrow =>
      rw [← (List.cons.inj hstart).2] at hrow
      cases hrow
  | @into r _ _ _ hr hrhs =>
      obtain ⟨rule, hrule⟩ := Array.mem_iff_getElem?.mp hr
      have hlhs : rule ∈ g.rulesFor _ :=
        (Grammar.mem_rulesFor_iff hg rule _).mpr ⟨r, hrule, (List.cons.inj hstart).1.symm⟩
      have hbegun : c.Begun ⟨rule, 0, 0⟩ := h.start rule hlhs
      have hseed : Corrected g .none tokens 0 ⟨rule, 0, 0⟩ 0 :=
        .start 0 rule (Nat.zero_le _) (by simp [Grammar.rule?, hrule])
      refine h.awaits_of_begins hg hlast (r := r) hrhs ?_ ?_ hstands (by simpa using hlength)
        hseed hbegun
      · exact hrule
      · exact List.prefix_refl _

include hg h hlast in
/-- A token that is not scanned cannot be what goes on. -/
theorem Reading.not_viable_of_scans {token : Token} (htoken : tokens[n]? = some token)
    (hscans : c.scans g token = []) : ¬ g.Viable (tokens.take (n + 1)) := by
  intro hviable
  rw [List.take_add_one, htoken, Option.toList_some, Grammar.viable_concat_iff] at hviable
  obtain ⟨terminal, hkind, hfollows⟩ := hviable
  have hterminal := Symbols.terminalForKind?_isTerminal hg.tabled hkind
  have hawaits := (h.awaits_iff hg hlast hterminal).mpr hfollows
  exact (scans_ne_nil_iff hg h.valid.filed token).mpr ⟨terminal, hkind, hawaits⟩ hscans

end Chart
end EarleyChart
