import EarleyChart.Proofs.Chart.Below
import EarleyChart.Proofs.Parser.Grounding
import EarleyChart.Proofs.Parser.Integrity
import EarleyChart.Proofs.Parser.Repair

/-!
Two runs over one input that differ in their ceilings. A larger ceiling adds items
and links, and with them the numbers of the items and the order in which they are
processed change. But every item of the run with the smaller ceiling has a derivation
that the run with the larger one finds as well, and none that is cheaper.
-/

namespace EarleyChart
namespace Chart

variable {g : Grammar} (hg : g.Numbered) {quote : Quote} {tokens : List Token}
  {ceiling ceiling' n n' : Nat} (hle : ceiling ≤ ceiling') {c c' : Chart}
  (h : c.Reading g quote ceiling tokens n) (hgrounded : c.Grounded g)
  (h' : c'.Reading g quote ceiling' tokens n')
  (hlast' : ∀ token, tokens[n']? = some token → c'.Readings g quote ceiling' token [])

include hg hle h h' hlast' in
theorem Reading.contains_of_begun {id : ItemId} {item : Item} (hitem : c.item? id = some item)
    (hbegun : c'.Begun item.key) :
    id.column ≤ n' ∧ c'.Contains id.column item.key item.errorCost := by
  have hderived := (h.sound id item hitem).1
  exact h'.contains_of_corrected hg hlast' hderived.corrected
    (Nat.le_trans hderived.within hle) hbegun

include hg hle h hgrounded h' hlast' in
/-- What an item of the one chart began with stands in the other one. -/
theorem Reading.begun_of_item (id : ItemId) (item : Item) (hitem : c.item? id = some item) :
    c'.Begun item.key := by
  induction id using ItemId.wellFounded_before.induction generalizing item with
  | _ id ih =>
  have hfits := h.valid.item id item hitem
  cases hlinks : item.links with
  | nil =>
      obtain ⟨hdot, horigin⟩ := hfits.links.mp hlinks
      obtain ⟨r, hr, -⟩ := hfits.dot
      have hrule : item.rule ∈ g.rulesFor (g.lhs item.rule) :=
        (Grammar.mem_rulesFor_iff hg _ _).mpr ⟨r, hr, by rw [Grammar.lhs, hr, Option.elim_some]⟩
      have hnonterminal := g.lhs_nonterminal hg _ _ hfits.dot
      change c'.Holds item.origin ⟨item.rule, 0, item.origin, 0, none⟩
      rw [horigin]
      cases hgrounded id item hitem hlinks with
      | inl hstart =>
          rw [hstart.1]
          apply h'.start
          rwa [hstart.2] at hrule
      | inr hcalls =>
          -- the item that calls for the rule is older, and the other chart predicts there too
          obtain ⟨other, waiting, hwaiting, hcolumn, hbefore, hnext⟩ := hcalls
          have hbegun := ih other hbefore waiting hwaiting
          obtain ⟨hle', other', waiting', hwaiting', hcolumn', hkey, -⟩ :=
            h.contains_of_begun hg hle h' hlast' hwaiting hbegun
          obtain ⟨hsame, hdot', -⟩ := Item.key_eq_iff.mp hkey
          have hnext' : g.next? waiting'.rule waiting'.dot = some (g.lhs item.rule) := by
            rw [hsame, hdot']
            exact hnext
          rw [← hcolumn]
          exact (h'.saturated other.column hle').predicted other' waiting' _ hwaiting' hcolumn'
            hnext' hnonterminal item.rule hrule
  | cons link links =>
      have hhead : item.links.head? = some link := by rw [hlinks, List.head?_cons]
      obtain ⟨left, hleft, hrule, horigin, -⟩ :=
        (hfits.shape link (by rw [hlinks]; simp)).joins hg h.valid
      have hbegun := ih link.left (hfits.first link hhead).1 left hleft
      rw [Begun, Item.key, hrule, horigin] at hbegun
      exact hbegun

variable (hlast : ∀ token, tokens[n]? = some token → c.Readings g quote ceiling token [])

include hg hle h hgrounded h' hlast' hlast in
/-- Every item of the one chart is in the other one, at the same cost. -/
theorem Reading.item_of_item (id : ItemId) (item : Item) (hitem : c.item? id = some item) :
    id.column ≤ n' ∧ ∃ id' item', c'.item? id' = some item' ∧ id'.column = id.column ∧
      item'.key = item.key ∧ item'.errorCost = item.errorCost := by
  have hbegun' := h.begun_of_item hg hle hgrounded h' hlast' id item hitem
  obtain ⟨hcolumn, id', item', hitem', hid, hkey, hcost⟩ :=
    h.contains_of_begun hg hle h' hlast' hitem hbegun'
  refine ⟨hcolumn, id', item', hitem', hid, hkey, Nat.le_antisymm hcost ?_⟩
  -- a cheaper derivation would be within the smaller ceiling too
  have hbegun := h.begun_of_item hg (Nat.le_refl _) hgrounded h hlast id item hitem
  have hderived := (h'.sound id' item' hitem').1.corrected
  rw [hid, hkey] at hderived
  have hwithin := Nat.le_trans hcost (h.sound id item hitem).1.within
  obtain ⟨-, other, found, hfound, hother, hsame, hleast⟩ :=
    h.contains_of_corrected hg hlast hderived hwithin hbegun
  obtain ⟨-, rfl⟩ := item_unique g c h.valid.filed id other item found hitem hfound hother.symm
    hsame.symm
  exact hleast

include hg hle h hgrounded h' hlast' hlast in
/-- The run with the larger ceiling gets at least as far. -/
theorem Reading.columns_le (hoccupied : c.Occupied) : n ≤ n' := by
  by_contra hless
  obtain ⟨id, item, hitem, hid⟩ := hoccupied (n' + 1) (Nat.succ_pos n') (by rw [h.size]; omega)
  have hcolumn := (h.item_of_item hg hle hgrounded h' hlast' hlast id item hitem).1
  omega

end Chart

namespace Parser

/-- A run has all that another run has: its columns, and its items at their costs. -/
structure Covers (p p' : Parser) : Prop where
  columns : p.columnCount ≤ p'.columnCount
  items : ∀ id item, p.item? id = some item → ∃ id' item', p'.item? id' = some item' ∧
    id'.column = id.column ∧ item'.key = item.key ∧ item'.errorCost = item.errorCost

variable {g : Grammar} {config config' : Config} (costs : CostProvider) (tokens : List Token)

/-- Without rules for the start symbol no column is opened. -/
theorem parse_without_rules_columns (config : Config) (hrules : g.rulesFor g.start = []) :
    ((fresh g config costs).parse (TokenStream.ofList tokens)).parser.chart.columns = #[] := by
  have hseed : ∃ e, (fresh g config costs).seed = (.error e, (fresh g config costs).fail e) := by
    rw [seed]
    exact ⟨_, if_pos (List.isEmpty_iff.mpr hrules)⟩
  obtain ⟨e, hseed⟩ := hseed
  rw [parse_fresh, hseed]
  rfl

theorem parse_fresh_sourced (hg : g.Numbered) (config : Config) :
    ((fresh g config costs).parse (TokenStream.ofList tokens)).parser.Sourced g :=
  Reached.sourced hg (.parse (.setCosts (.created config) costs) _)

variable {costs tokens}

/-- Two runs that came to an end over one input, at the same prices. -/
theorem Finished.covers (hg : g.Numbered) {quote : Quote}
    (hceiling : config.maxErrorValue ≤ config'.maxErrorValue) {p p' : Parser}
    {verdict verdict' : Verdict} (h : p.Finished g config quote tokens verdict)
    (h' : p'.Finished g config' quote tokens verdict') (hsourced : p.Sourced g) : p.Covers p' := by
  obtain ⟨n, hchart, hlast, -⟩ := h.chart
  obtain ⟨n', hchart', hlast', -⟩ := h'.chart
  have hcolumns := hchart.columns_le hg hceiling hsourced.grounded hchart' hlast' hlast
    hsourced.occupied
  constructor
  case columns =>
    rw [columnCount, columnCount, hchart.size, hchart'.size]
    exact Nat.succ_le_succ hcolumns
  case items =>
    intro id item hitem
    exact (hchart.item_of_item hg hceiling hsourced.grounded hchart' hlast' hlast id item hitem).2

/-- A larger ceiling accepts what a smaller one accepts, at the same cost. -/
theorem Finished.accepts (hg : g.Numbered) {quote : Quote}
    (hceiling : config.maxErrorValue ≤ config'.maxErrorValue) {p p' : Parser}
    {verdict verdict' : Verdict} (h : p.Finished g config quote tokens verdict)
    (h' : p'.Finished g config' quote tokens verdict') (hverdict : verdict = .accepted) :
    verdict' = .accepted ∧ ∃ cost, p.acceptedCost = some cost ∧ p'.acceptedCost = some cost := by
  obtain ⟨cost, hcorrects, hwithin⟩ := (h.accepted_iff hg).mp hverdict
  have hverdict' := (h'.accepted_iff hg).mpr ⟨cost, hcorrects, Nat.le_trans hwithin hceiling⟩
  obtain ⟨least, hleast, hcorrects, hmin⟩ := h.acceptedCost_of_accepted hg hverdict
  obtain ⟨least', hleast', hcorrects', hmin'⟩ := h'.acceptedCost_of_accepted hg hverdict'
  have heq := Nat.le_antisymm (hmin least' hcorrects') (hmin' least hcorrects)
  exact ⟨hverdict', least, hleast, heq ▸ hleast'⟩

/-- A run whose ceiling is larger covers the run with the smaller one, and accepts what
that one accepts at the same cost. -/
theorem parse_continuous_monotone (d : GrammarDef) (g : Grammar) (hd : d.toGrammar = .ok g)
    (config config' : Config) (hmode : config.recovery = .continuous)
    (hmode' : config'.recovery = .continuous)
    (hceiling : config.maxErrorValue ≤ config'.maxErrorValue) (costs : CostProvider)
    (price : RuleId → Nat → Nat → SymbolId → Token → CorrectionCost)
    (hcosts : ∀ waiting found, costs g waiting found = waiting.map fun w =>
      price w.rule w.dot w.origin w.expected found) (tokens : List Token) :
    let outcome := (fresh g config costs).parse (TokenStream.ofList tokens)
    let outcome' := (fresh g config' costs).parse (TokenStream.ofList tokens)
    Stopped config outcome.result ∨ Stopped config' outcome'.result ∨
      outcome.parser.Covers outcome'.parser ∧
        (outcome.result = .ok .accepted → outcome'.result = .ok .accepted ∧
          ∃ cost, outcome.parser.acceptedCost = some cost ∧
            outcome'.parser.acceptedCost = some cost) := by
  intro outcome outcome'
  have hg := d.toGrammar_numbered g hd
  by_cases hrules : g.rulesFor g.start = []
  · have hcolumns := parse_without_rules_columns costs tokens config hrules
    obtain ⟨reason, hresult⟩ := parse_without_rules (g := g) config costs tokens hrules
    refine .inr (.inr ⟨⟨?_, ?_⟩, ?_⟩)
    · rw [columnCount, show outcome.parser.chart.columns = #[] from hcolumns]
      exact Nat.zero_le _
    · intro id item hitem
      simp [item?, Chart.item?, show outcome.parser.chart.columns = #[] from hcolumns] at hitem
    · intro haccepted
      rw [show outcome.result = _ from hresult] at haccepted
      contradiction
  have hquotes : ∀ config : Config, config.recovery = .continuous → Quotes g config costs
      fun key expected found => some (price key.rule key.dot key.origin expected found) :=
    fun config hmode => .continuous hmode
      (fun key expected found => price key.rule key.dot key.origin expected found) hcosts
  rcases parse_spec hg config costs tokens (hquotes config hmode) hrules with
    ⟨verdict, hresult, hfinished⟩ | hstopped
  · rcases parse_spec hg config' costs tokens (hquotes config' hmode') hrules with
      ⟨verdict', hresult', hfinished'⟩ | hstopped'
    · refine .inr (.inr ⟨?_, ?_⟩)
      · exact hfinished.covers hg hceiling hfinished' (parse_fresh_sourced costs tokens hg config)
      · rw [show outcome.result = _ from hresult, show outcome'.result = _ from hresult',
          Except.ok.injEq, Except.ok.injEq]
        exact hfinished.accepts hg hceiling hfinished'
    · exact .inr (.inl hstopped')
  · exact .inl hstopped

/-- Over `a a` the run of `pair` with a ceiling of nine covers the one with a ceiling of
two, and both read the second token as `b`. -/
theorem parse_continuous_monotone_pair :
    let tokens : List Token := [⟨0, "a", .start⟩, ⟨0, "a", .start⟩]
    let outcome :=
      (fresh pair ⟨.continuous, 2, 0, 0, 0, 0⟩ (.uniform ⟨2, 5⟩)).parse (TokenStream.ofList tokens)
    let outcome' :=
      (fresh pair ⟨.continuous, 9, 0, 0, 0, 0⟩ (.uniform ⟨2, 5⟩)).parse (TokenStream.ofList tokens)
    outcome.parser.Covers outcome'.parser ∧ outcome'.result = .ok .accepted ∧
      outcome'.parser.acceptedCost = some 2 := by
  intro tokens outcome outcome'
  have hresult : outcome.result = .ok .accepted ∧ outcome.parser.acceptedCost = some 2 := by
    decide +kernel
  have hlimits : ∀ (ceiling : Nat) result, ¬ Stopped ⟨.continuous, ceiling, 0, 0, 0, 0⟩ result := by
    rintro ceiling result ⟨e, -, hlimit⟩
    exact absurd hlimit (Config.not_limits rfl rfl e)
  rcases parse_continuous_monotone pairDef pair rfl ⟨.continuous, 2, 0, 0, 0, 0⟩
    ⟨.continuous, 9, 0, 0, 0, 0⟩ rfl rfl (by decide) (.uniform ⟨2, 5⟩) (fun _ _ _ _ _ => ⟨2, 5⟩)
    (fun _ _ => rfl) tokens with hstopped | hstopped | ⟨hcovers, haccepts⟩
  · exact absurd hstopped (hlimits 2 _)
  · exact absurd hstopped (hlimits 9 _)
  · obtain ⟨haccepted, cost, hcost, hcost'⟩ := haccepts hresult.1
    obtain rfl := Option.some.inj (hresult.2.symm.trans hcost)
    exact ⟨hcovers, haccepted, hcost'⟩

end Parser
end EarleyChart
