import EarleyChart.Proofs.Chart.Below
import EarleyChart.Proofs.Grammar.Generating
import EarleyChart.Proofs.Parser.Ceiling
import EarleyChart.Proofs.Parser.Gathering

/-!
Rules that end in the column where they began. What such a rule has before its dot
derives the empty string. The other way round, a column that owes nothing has the
rules of what it waits for, and advances them over every symbol that derives the
empty string, at no cost and so under any ceiling. The set of nullable symbols that is
computed from the grammar and the rules that end in a closed column thus say the same.
-/

namespace EarleyChart
namespace Chart

def FlatAt (c : Chart) (column : Nat) (rule : RuleId) (dot : Nat) : Prop :=
  ∃ id item, c.item? id = some item ∧ id.column = column ∧ item.key = ⟨rule, dot, column⟩

/-- A column has an item at the end of a rule of a nonterminal that began there. -/
def EndsEmpty (g : Grammar) (c : Chart) (column : Nat) (a : SymbolId) : Prop :=
  ∃ rule r, g.rule? rule = some r ∧ r.lhs = a ∧ c.FlatAt column rule r.rhs.length

theorem Holds.flatAt {c : Chart} {column dot cost : Nat} {rule : RuleId} {link : Option Link}
    (h : c.Holds column ⟨rule, dot, column, cost, link⟩) : c.FlatAt column rule dot := by
  obtain ⟨id, item, hitem, hcolumn, hkey, -⟩ := h
  exact ⟨id, item, hitem, hcolumn, hkey⟩

section Saturated

variable {g : Grammar} (hg : g.Numbered) {c : Chart} (hc : c.Valid g) {ceiling column : Nat}
  (h : c.Saturated g ceiling column) (hfree : c.All Free fun _ => True)

include h in
/-- An item that began in its column is advanced over a rule that ends there, since
neither of them costs anything. -/
theorem Saturated.flatAt_advanced (hfree : c.All Free fun _ => True) {rule last : RuleId}
    {dot dot' : Nat} (hleft : c.FlatAt column rule dot) (hright : c.FlatAt column last dot')
    (hnext : g.next? rule dot = some (g.lhs last)) (hend : g.next? last dot' = none) :
    c.FlatAt column rule (dot + 1) := by
  obtain ⟨id, item, hitem, hid, hkey⟩ := hleft
  obtain ⟨id', item', hitem', hid', hkey'⟩ := hright
  obtain ⟨rfl, rfl, horigin⟩ := Item.key_eq_iff.mp hkey
  obtain ⟨rfl, rfl, horigin'⟩ := Item.key_eq_iff.mp hkey'
  have hcost : item.errorCost = 0 :=
    (hfree id item hitem).1.2 (by rw [hid]; exact horigin)
  have hcost' : item'.errorCost = 0 :=
    (hfree id' item' hitem').1.2 (by rw [hid']; exact horigin')
  have hzero : (advanceOver item' item).errorCost = 0 := by
    simp [advanceOver, hcost, hcost', addCost]
  have hholds := h.completed id' item' id item hitem' hid' hend hitem (hid.trans horigin'.symm)
    hnext (by omega)
  obtain ⟨id'', item'', hitem'', hid'', hkey'', -⟩ := hholds
  refine ⟨id'', item'', hitem'', hid'', hkey''.trans ?_⟩
  simp [advanceOver, Candidate.key, horigin]

include hg h in
theorem Saturated.flatAt_seeded {id : ItemId} {item : Item} (hitem : c.item? id = some item)
    (hid : id.column = column) {rule : RuleId} {r : Rule} (hr : g.rule? rule = some r)
    (hnext : g.next? item.rule item.dot = some r.lhs) (hlhs : g.isNonterminal r.lhs = true) :
    c.FlatAt column rule 0 :=
  (h.predicted id item r.lhs hitem hid hnext hlhs rule
    ((Grammar.mem_rulesFor_iff hg rule r.lhs).mpr ⟨r, hr, rfl⟩)).flatAt

include hg hc h hfree in
/-- A dot before symbols that derive the empty string comes to the end of its rule.
The induction is on how they stand for it, and leads over one rule after another. -/
theorem Saturated.flatAt_end {row word : List SymbolId} (hspells : g.Spells row word)
    (hword : word = []) {rule : RuleId} {r : Rule} {dot : Nat} (hr : g.rule? rule = some r)
    (hrow : r.rhs.drop dot = row) (hflat : c.FlatAt column rule dot) :
    c.FlatAt column rule r.rhs.length := by
  induction hspells generalizing rule r dot with
  | nil =>
      obtain ⟨id, item, hitem, hid, hkey⟩ := id hflat
      obtain ⟨r', hr', hle⟩ := (hc.item id item hitem).dot
      obtain ⟨rfl, rfl, -⟩ := Item.key_eq_iff.mp hkey
      obtain rfl := Option.some.inj (hr.symm.trans hr')
      have hge := List.drop_eq_nil_iff.mp hrow
      rwa [Nat.le_antisymm hge hle]
  | terminal => contradiction
  | @rule s row inner word hs hinner hrest ihinner ihrest =>
      obtain ⟨rfl, rfl⟩ := List.append_eq_nil_iff.mp hword
      obtain ⟨last, hlast⟩ := Array.mem_iff_getElem?.mp hs
      have hsymbol : r.rhs[dot]? = some s.lhs := by
        rw [← List.head?_drop, hrow, List.head?_cons]
      have hnext : g.next? rule dot = some s.lhs := by
        rw [Grammar.next?, hr, Option.bind_some, hsymbol]
      have hseed : c.FlatAt column last 0 := by
        obtain ⟨id, item, hitem, hid, hkey⟩ := hflat
        obtain ⟨rfl, rfl, -⟩ := Item.key_eq_iff.mp hkey
        exact h.flatAt_seeded hg hitem hid hlast hnext (hg.lhs s hs)
      have hend := ihinner rfl hlast List.drop_zero hseed
      have hlhs : g.next? rule dot = some (g.lhs last) := by
        rw [hnext, Grammar.lhs, show g.rule? last = some s from hlast, Option.elim_some]
      refine ihrest rfl hr ?_ (h.flatAt_advanced hfree hflat hend hlhs
        (Grammar.next?_length hlast))
      rw [← List.tail_drop, hrow, List.tail_cons]

include hg hc h hfree in
/-- A column that owes nothing ends the rules without extent of exactly the nullable
symbols among those it waits for. -/
theorem Saturated.endsEmpty_iff {id : ItemId} {item : Item} {a : SymbolId}
    (hitem : c.item? id = some item) (hid : id.column = column)
    (hnext : g.next? item.rule item.dot = some a) (ha : g.isNonterminal a = true) :
    c.EndsEmpty g column a ↔ g.nullable a = true := by
  constructor
  · rintro ⟨rule, r, hr, rfl, last, final, hfinal, hcolumn, hkey⟩
    obtain ⟨rfl, hdot, horigin⟩ := Item.key_eq_iff.mp hkey
    change final.dot = r.rhs.length at hdot
    have hend : g.next? final.rule final.dot = none := by
      rw [hdot]
      exact Grammar.next?_length hr
    have hempty := hc.nullableUpTo hg hfinal (hcolumn ▸ horigin)
    have hnullable := hc.nullable_lhs hg hfinal hend hempty
    rwa [Grammar.lhs, show g.rule? final.rule = some r from hr] at hnullable
  · intro hnullable
    have hspells : g.Spells [a] [] :=
      Grammar.spells_iff_derives.mpr ⟨(g.nullable_iff_derives hg a).mp hnullable, by simp⟩
    generalize hrow : [a] = row at hspells
    generalize hword : [] = word at hspells
    cases hspells with
    | nil => contradiction
    | terminal => contradiction
    | @rule r row inner word hr hinner hrest =>
        obtain ⟨rfl, rfl⟩ := List.cons.inj hrow
        obtain ⟨rfl, rfl⟩ := List.append_eq_nil_iff.mp hword.symm
        obtain ⟨rule, hrule⟩ := Array.mem_iff_getElem?.mp hr
        have hseed := h.flatAt_seeded hg hitem hid hrule hnext ha
        exact ⟨rule, r, hrule, rfl,
          h.flatAt_end hg hc hfree hinner rfl hrule List.drop_zero hseed⟩

end Saturated

/-- A closure leaves the columns before the newest one saturated. -/
theorem TakesAll.older_saturated {g : Grammar} (hg : g.Numbered) {ceiling : Nat} {c c' : Chart}
    (h : TakesAll g ceiling c c') (hc : c.Closable g)
    (holder : ∀ column < c.current, ∃ ceiling, c.Saturated g ceiling column) :
    ∀ column < c.current, ∃ ceiling, c'.Saturated g ceiling column := by
  have hprogress := (h.closable hg hc).2
  intro column hcolumn
  obtain ⟨ceiling, hsaturated⟩ := holder column hcolumn
  exact ⟨ceiling, hsaturated.of_items hc.valid hprogress.grows
    fun id hid => hprogress.older id (by omega)⟩

end Chart

namespace Parser

/-- A column that is closed: any but the newest one of a run that an error stopped
while it was being closed. -/
def ClosedColumn (p : Parser) (column : Nat) : Prop :=
  column < p.columnCount ∧ (p.state = .closing → column + 1 < p.columnCount)

def OwesNothing (g : Grammar) (p : Parser) : Prop :=
  ∀ column, p.ClosedColumn column → ∃ ceiling, p.chart.Saturated g ceiling column

variable {g : Grammar} {p next : Parser}

theorem ClosesTo.owesNothing (h : p.ClosesTo next) (hg : p.grammar.Numbered)
    (hclosing : p.chart.Closing p.grammar p.config.maxErrorValue
      fun id => id ∈ p.chart.worklist.toList)
    (holder : ∀ column < p.chart.current, ∃ ceiling,
      p.chart.Saturated p.grammar ceiling column) : next.OwesNothing p.grammar := by
  have hready : p.chart.Closable p.grammar := ⟨hclosing.valid, hclosing.nonempty⟩
  obtain ⟨chart, hall, -, hends⟩ := h.outcome hg hready
  have hbefore := hall.older_saturated hg hready holder
  obtain ⟨hclosable, hprogress⟩ := hall.closable hg hready
  have hsize : p.chart.columns.size = p.chart.current + 1 := by
    have := hready.nonempty
    rw [Chart.current]
    omega
  rintro column ⟨hcolumn, hcut⟩
  rcases hends with ⟨hchart, -, hidle⟩ | ⟨⟨queue, hchart⟩, hstate⟩
  · rw [columnCount, hchart, hprogress.size, hsize] at hcolumn
    rw [hchart]
    rcases Nat.lt_succ_iff_lt_or_eq.mp hcolumn with hlt | rfl
    · exact hbefore column hlt
    · exact ⟨_, hall.saturated hg hclosing hidle⟩
  · have hrequeued := chart.progresses_requeued queue
    have hlt := hcut hstate
    rw [columnCount, hchart, hrequeued.size, hprogress.size, hsize] at hlt
    rw [hchart]
    obtain ⟨ceiling, hsaturated⟩ := hbefore column (by omega)
    exact ⟨ceiling, hsaturated.of_items hclosable.valid hrequeued.grows fun _ _ => rfl⟩

theorem OwesNothing.same (h : p.OwesNothing g) (hchart : next.chart = p.chart)
    (hstate : next.state = p.state ∨ p.state ≠ .closing) : next.OwesNothing g := by
  rintro column ⟨hcolumn, hcut⟩
  rw [columnCount, hchart] at hcolumn hcut
  rw [hchart]
  refine h column ⟨hcolumn, fun hclosing => hcut ?_⟩
  rw [hstate.resolve_right fun hother => hother hclosing, hclosing]

theorem owesNothing_of_columns (hcolumns : p.chart.columns = #[]) : p.OwesNothing g := by
  rintro column ⟨hcolumn, -⟩
  rw [columnCount, hcolumns] at hcolumn
  exact absurd hcolumn (Nat.not_lt_zero column)

section run

variable (hg : g.Numbered)

include hg in
theorem Turn.owesNothing (hp : p.Healthy g) (h : p.Turn g next) (hblank : p.Unbegun)
    (howes : p.OwesNothing g) : next.OwesNothing g := by
  cases h with
  | stays hchart hconfig hstate =>
      apply howes.same hchart
      rcases hstate with hsame | ⟨hscanning, -⟩
      · exact .inl hsame
      · exact .inr (by simp [hscanning])
  | seeds tally hstart herror hcloses =>
      have hprogress := (hp.seeded_progresses hg herror tally).2
      have hclosing := hp.seeded_closing hg herror tally
      obtain rfl := hp.grammar_eq
      apply hcloses.owesNothing hg hclosing
      intro column hcolumn
      rw [hprogress.current, (p.chart.current_openColumn p.grammar none).2, hblank hstart]
        at hcolumn
      exact absurd hcolumn (Nat.not_lt_zero column)
  | @reads hscanning token news hnews price hread requests tally hcloses =>
      have hclosing := hscanning.closing hg hread requests tally
      have hextends := hscanning.opened_extends hg hread requests tally
      have hcurrent := (p.chart.current_openColumn g (some token)).2
      obtain rfl := hp.grammar_eq
      apply hcloses.owesNothing hg hclosing
      intro column hcolumn
      rw [hextends.frame.current, hcurrent] at hcolumn
      obtain ⟨ceiling, hsaturated⟩ := howes column ⟨hcolumn, by simp [hscanning.state_eq]⟩
      refine ⟨ceiling, hsaturated.of_items hp.valid ?_ fun id hid => ?_⟩
      · exact (Chart.grows_openColumn (some token)).trans hextends.grows
      · rw [hextends.older id (by omega), Chart.item?_openColumn]

include hg in
/-- Whatever was done with a parser, its closed columns owe nothing. -/
theorem Reached.owesNothing (h : Reached g p) : p.OwesNothing g := by
  have hboth : p.Unbegun ∧ p.OwesNothing g := by
    apply h.kept hg fun p => p.Unbegun ∧ p.OwesNothing g
    case hturn =>
      intro p next hp hturn ⟨hblank, howes⟩
      exact ⟨hturn.unbegun hg hp hblank, hturn.owesNothing hg hp hblank howes⟩
    case hcreated => exact fun _ => ⟨fun _ => rfl, owesNothing_of_columns rfl⟩
    case hconfig | hcosts => exact fun _ _ howes => howes
    case hreset => exact fun _ _ => ⟨fun _ => rfl, owesNothing_of_columns rfl⟩
  exact hboth.2

end run

/-- The nullable symbols are the nonterminals that derive the empty string, and in a
closed column they are those among the nonterminals that are waited for that have a
rule which began in the column and ends there. -/
theorem nullable_exact (d : GrammarDef) (g : Grammar) (hd : d.toGrammar = .ok g) :
    (∀ a, g.nullable a = true ↔ g.isNonterminal a = true ∧ g.Derives [a] []) ∧
    ∀ p, Reached g p → ∀ column, p.ClosedColumn column → ∀ id item a,
      p.item? id = some item → id.column = column →
      g.next? item.rule item.dot = some a → g.isNonterminal a = true →
      (p.chart.EndsEmpty g column a ↔ g.nullable a = true) := by
  have hg := d.toGrammar_numbered g hd
  constructor
  · intro a
    rw [← Grammar.nullable_iff_derives hg]
    exact ⟨fun h => ⟨Grammar.nullable_nonterminal hg h, h⟩, fun h => h.2⟩
  · intro p hp column hcolumn id item a hitem hid hnext ha
    obtain ⟨ceiling, hsaturated⟩ := hp.owesNothing hg column hcolumn
    exact hsaturated.endsEmpty_iff hg (hp.healthy hg).valid (hp.allFree hg) hitem hid hnext ha

def gapsDef : GrammarDef :=
  ((((GrammarDef.empty.terminal "x").rule "Row" ["Gap", "x", "Gap"]).rule "Gap"
    ["Blank", "Blank"]).rule "Blank" ["Gap"]).rule "Blank" []

def gaps : Grammar where
  terminals := [⟨"x", 0⟩]
  nonterminals := ["Row", "Gap", "Blank"]
  rules := #[⟨2, [3, 1, 3]⟩, ⟨3, [4, 4]⟩, ⟨4, [3]⟩, ⟨4, []⟩]
  start := 2

/-- Where a gap is waited for after a mark, it ends at once. -/
theorem nullable_exact_gaps :
    let p := ((fresh gaps ⟨.continuous, 2, 0, 0, 0, 0⟩ (.uniform ⟨1, 2⟩)).parse
      (TokenStream.ofList [⟨0, "x", .start⟩])).parser
    gapsDef.toGrammar = .ok gaps ∧ gaps.Derives [3] [] ∧ p.ClosedColumn 1 ∧
      p.chart.EndsEmpty gaps 1 3 := by
  intro p
  have hreached : Reached gaps p := .parse (.setCosts (.created _) _) _
  have hrun : p.state = .accepted ∧ p.columnCount = 2 ∧
      p.item? ⟨1, 0⟩ = some ⟨0, 2, 0, 0, 1, 0, [⟨.scanned, ⟨0, 6⟩, none⟩]⟩ := by
    decide +kernel
  obtain ⟨hstate, hcount, hitem⟩ := hrun
  have hclosed : p.ClosedColumn 1 := ⟨by omega, by simp [hstate]⟩
  have hnullable : gaps.nullable 3 = true := by decide +kernel
  obtain ⟨hstatic, hdynamic⟩ := nullable_exact gapsDef gaps rfl
  exact ⟨rfl, ((hstatic 3).mp hnullable).2, hclosed,
    (hdynamic p hreached 1 hclosed _ _ 3 hitem rfl rfl rfl).mpr hnullable⟩

end Parser
end EarleyChart
