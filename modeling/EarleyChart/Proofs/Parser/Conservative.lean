import EarleyChart.Proofs.Parser.Answered
import EarleyChart.Proofs.Parser.Deferred
import EarleyChart.Proofs.Parser.Monotone

/-!
Repair adds to a run and takes nothing from it. A run that repairs only where it has to is
the run without repair up to the first token that fits nowhere. A run that tries
corrections at every token numbers its items in another way; but each item of the run
without repair stands in the same column of the other one, costs nothing there either,
and has its links, whose ends are found by column and identity.
-/

namespace EarleyChart

def Link.renumber (rename : ItemId → ItemId) (link : Link) : Link :=
  ⟨link.step, rename link.left, link.right.map rename⟩

namespace Chart

/-- The position of an item in another chart, by its column and its identity. -/
def counterpart (c c' : Chart) (id : ItemId) : ItemId :=
  ((c.item? id).bind fun item => (c'.columns[id.column]?).bind fun column =>
    (column.find? item.key).map fun seq => ⟨id.column, seq⟩).getD id

theorem counterpart_eq {g : Grammar} {c c' : Chart} (hc : c'.Filed g) {id id' : ItemId}
    {item item' : Item} (hitem : c.item? id = some item) (hitem' : c'.item? id' = some item')
    (hcolumn : id'.column = id.column) (hkey : item'.key = item.key) :
    c.counterpart c' id = id' := by
  obtain ⟨column, hfound, hget⟩ := Option.bind_eq_some_iff.mp hitem'
  have hseq := ((hc.column _ column hfound).found item.key id'.seq).mpr ⟨item', hget, hkey⟩
  rw [counterpart, hitem, Option.bind_some, ← hcolumn, hfound, Option.bind_some, hseq]
  rfl

/-- An item stands in another chart too, in its column, and costs nothing there. -/
def Stands (c c' : Chart) (id : ItemId) : Prop :=
  ∀ item, c.item? id = some item → ∃ item', c'.item? (c.counterpart c' id) = some item' ∧
    (c.counterpart c' id).column = id.column ∧ item'.key = item.key ∧ item'.errorCost = 0

/-- The other chart has all items and all links of the one, and at no cost. -/
structure Embeds (c c' : Chart) : Prop where
  columns : c.columns.size ≤ c'.columns.size
  stands : ∀ id, c.Stands c' id
  free : ∀ id item, c.item? id = some item → item.errorCost = 0
  links : ∀ id item item', c.item? id = some item →
    c'.item? (c.counterpart c' id) = some item' →
      ∀ link ∈ item.links, link.renumber (c.counterpart c') ∈ item'.links

section twin

variable {g : Grammar} (hg : g.Numbered) {tokens : List Token} {ceiling ceiling' n n' : Nat}
  {c c' : Chart} (h : c.Reading g .none ceiling tokens n) (hgrounded : c.Grounded g)
  (h' : c'.Gathers g ceiling' (ReadsAs g .none) tokens n')
  (hlast' : ∀ id item token new, c'.item? id = some item → id.column = n' →
    tokens[n']? = some token → ¬ ReadsAs g .none token id item new)

include h h' hlast' in
/-- Where the ends of a link stand in the other chart, what they are joined to stands
there with the link. -/
theorem holds_link {id : ItemId} {item : Item} (hitem : c.item? id = some item) {link : Link}
    (hlink : link ∈ item.links) (hleft : link.left.column ≤ n' ∧ c.Stands c' link.left)
    (hright : ∀ right, link.right = some right → right.column ≤ n' ∧ c.Stands c' right) :
    id.column ≤ n' ∧ c'.Holds id.column
      ⟨item.rule, item.dot, item.origin, 0, some (link.renumber (c.counterpart c'))⟩ := by
  obtain ⟨hle, hleft⟩ := hleft
  have hstep := Quote.none_allows ((h.sound id item hitem).2 link hlink)
  have hid : ∀ id' item', c'.item? id' = some item' → item'.id = id' :=
    c'.item_id g h'.valid.filed
  cases (h.valid.item id item hitem).shape link hlink with
  | substituted | deleted => rcases hstep with hstep | hstep <;> contradiction
  | scanned other left terminal hother hcolumn hkey hnext htoken =>
      obtain ⟨left', hother', hsame, hkey', hcost⟩ := hleft left hother
      obtain ⟨hrule, hdot, horigin⟩ := Item.key_eq_iff.mp hkey
      obtain ⟨hrule', hdot', horigin'⟩ := Item.key_eq_iff.mp hkey'
      obtain ⟨token, ht, hkind⟩ := Option.bind_eq_some_iff.mp htoken
      have hlt : other.column < n := by
        have := c.column_lt id item hitem
        rw [h.current] at this
        omega
      rw [← hcolumn, h.token _ hlt] at ht
      have hreads : ReadsAs g .none token (c.counterpart c' other) left' (scanOver left') := by
        refine .scan ?_ hkind
        rw [hkey']
        exact hnext
      have hlt' : other.column < n' := by
        refine Nat.lt_of_le_of_ne hle fun hlast => ?_
        exact hlast' _ left' token _ hother' (hsame.trans hlast) (hlast ▸ ht) hreads
      have hholds := h'.read _ left' token _ hother' (by rw [hsame]; exact hlt')
        (by rw [hsame]; exact ht) hreads
      rw [hsame, hcolumn, scanOver, hid _ left' hother', hrule', hdot', horigin', hcost, ← hrule,
        ← hdot, ← horigin] at hholds
      exact ⟨by omega, hholds⟩
  | completed other last left right hother hlast hcolumn hlastcolumn hkey hnext hend =>
      obtain ⟨left', hother', hsame, hkey', hcost⟩ := hleft left hother
      obtain ⟨hle', hright⟩ := hright last rfl
      obtain ⟨right', hlast', hsame', hkey'', hcost'⟩ := hright right hlast
      obtain ⟨hrule, hdot, horigin⟩ := Item.key_eq_iff.mp hkey
      obtain ⟨hrule', hdot', horigin'⟩ := Item.key_eq_iff.mp hkey'
      obtain ⟨hrule'', hdot'', horigin''⟩ := Item.key_eq_iff.mp hkey''
      rw [hlastcolumn] at hle'
      refine ⟨hle', ?_⟩
      have hfree : (advanceOver right' left').errorCost = 0 := by
        rw [advanceOver, hcost, hcost']
        rfl
      have hholds := (h'.saturated id.column hle').completed _ right' _ left' hlast'
        (hsame'.trans hlastcolumn) (by rw [hrule'', hdot'', hend]) hother'
        (by rw [hsame, hcolumn, horigin'']) (by rw [hrule', hdot', hrule'', hnext])
        (by rw [hfree]; exact Nat.zero_le _)
      rw [show advanceOver right' left' = ⟨item.rule, item.dot, item.origin, 0,
        some ⟨.completed, c.counterpart c' other, some (c.counterpart c' last)⟩⟩ by
          rw [← hfree, hrule, hdot, horigin, ← hrule', ← hdot', ← horigin', ← hid _ left' hother',
            ← hid _ right' hlast']
          rfl] at hholds
      exact hholds

include h' in
theorem stands_of_holds {id : ItemId} {item : Item} (hitem : c.item? id = some item)
    {link : Option Link} (hholds : c'.Holds id.column
      ⟨item.rule, item.dot, item.origin, 0, link⟩) : c.Stands c' id := by
  intro found hfound
  obtain rfl := Option.some.inj (hitem.symm.trans hfound)
  obtain ⟨id', item', hitem', hcolumn, hkey, hcost, -⟩ := hholds
  rw [counterpart_eq h'.valid.filed hitem hitem' hcolumn hkey]
  exact ⟨item', hitem', hcolumn, hkey, Nat.le_zero.mp hcost⟩

include hg h hgrounded h' hlast' in
/-- Every item of the chart without corrections stands in the other one. -/
theorem stands_of_item (id : ItemId) (item : Item) (hitem : c.item? id = some item) :
    id.column ≤ n' ∧ c.Stands c' id := by
  -- on older items: a seed is called for by one, and so are the ends of the first link
  induction id using ItemId.wellFounded_before.induction generalizing item with
  | _ id ih =>
  have hfits := h.valid.item id item hitem
  suffices hholds : id.column ≤ n' ∧
      ∃ link, c'.Holds id.column ⟨item.rule, item.dot, item.origin, 0, link⟩ by
    obtain ⟨hle, link, hholds⟩ := hholds
    exact ⟨hle, stands_of_holds h' hitem hholds⟩
  cases hlinks : item.links with
  | nil =>
      obtain ⟨hdot, horigin⟩ := hfits.links.mp hlinks
      obtain ⟨r, hr, -⟩ := hfits.dot
      have hrule : item.rule ∈ g.rulesFor (g.lhs item.rule) :=
        (Grammar.mem_rulesFor_iff hg _ _).mpr ⟨r, hr, by rw [Grammar.lhs, hr, Option.elim_some]⟩
      rw [hdot, horigin]
      cases hgrounded id item hitem hlinks with
      | inl hstart =>
          rw [hstart.1]
          rw [hstart.2] at hrule
          exact ⟨Nat.zero_le _, none, h'.start item.rule hrule⟩
      | inr hcalls =>
          obtain ⟨other, waiting, hwaiting, hcolumn, hbefore, hnext⟩ := hcalls
          obtain ⟨hle, hstands⟩ := ih other hbefore waiting hwaiting
          obtain ⟨waiting', hwaiting', hsame, hkey, -⟩ := hstands waiting hwaiting
          obtain ⟨hsamerule, hsamedot, -⟩ := Item.key_eq_iff.mp hkey
          rw [hcolumn] at hle hsame
          refine ⟨hle, none, (h'.saturated id.column hle).predicted _ waiting' _ hwaiting' hsame
            ?_ (g.lhs_nonterminal hg _ _ hfits.dot) item.rule hrule⟩
          rw [hsamerule, hsamedot, hnext]
  | cons link links =>
      have hhead : item.links.head? = some link := by rw [hlinks, List.head?_cons]
      have hmem : link ∈ item.links := by rw [hlinks]; exact List.mem_cons_self
      obtain ⟨hbefore, hbefore'⟩ := hfits.first link hhead
      obtain ⟨⟨left, hleft⟩, hends⟩ := (hfits.shape link hmem).ends
      have hright : ∀ right, link.right = some right → right.column ≤ n' ∧ c.Stands c' right := by
        intro right hright
        obtain ⟨last, hlast⟩ := hends right hright
        exact ih right (hbefore' right hright) last hlast
      obtain ⟨hle, hholds⟩ := holds_link h h' hlast' hitem hmem (ih link.left hbefore left hleft)
        hright
      exact ⟨hle, _, hholds⟩

include hg h hgrounded h' hlast' in
/-- The run without corrections is part of the other one. -/
theorem embeds (hoccupied : c.Occupied) : c.Embeds c' := by
  have hstands : ∀ id, c.Stands c' id := fun id item hitem =>
    (stands_of_item hg h hgrounded h' hlast' id item hitem).2 item hitem
  constructor
  case columns =>
    rw [h.size, h'.size]
    by_contra hless
    obtain ⟨id, item, hitem, hid⟩ := hoccupied (n' + 1) (Nat.succ_pos n') (by rw [h.size]; omega)
    have hcolumn := (stands_of_item hg h hgrounded h' hlast' id item hitem).1
    omega
  case stands => exact hstands
  case free => exact fun id item hitem => (h.sound id item hitem).1.corrected.cost_eq_zero
  case links =>
    intro id item item' hitem hitem' link hlink
    obtain ⟨⟨left, hleft⟩, hends⟩ := ((h.valid.item id item hitem).shape link hlink).ends
    obtain ⟨-, other, found, hfound, hcolumn, hkey, -, hlinks⟩ := holds_link h h' hlast' hitem hlink
      (stands_of_item hg h hgrounded h' hlast' link.left left hleft) fun right hright => by
        obtain ⟨last, hlast⟩ := hends right hright
        exact stands_of_item hg h hgrounded h' hlast' right last hlast
    rw [counterpart_eq h'.valid.filed hitem hfound hcolumn hkey] at hitem'
    obtain rfl := Option.some.inj (hitem'.symm.trans hfound)
    exact hlinks _ rfl

end twin

theorem embeds_of_no_columns {c c' : Chart} (h : c.columns = #[]) : c.Embeds c' where
  columns := by simp [h]
  stands id item hitem := by simp [item?, h] at hitem
  free id item hitem := by simp [item?, h] at hitem
  links id item item' hitem := by simp [item?, h] at hitem

end Chart

namespace Parser

section accept

variable {g : Grammar} (hg : g.Numbered) {config config' : Config} {tokens : List Token}
  {p p' : Parser} {verdict verdict' : Verdict}

include hg in
/-- What is accepted without repair costs nothing. -/
theorem Finished.acceptedCost_none (h : p.Finished g config .none tokens verdict)
    (hverdict : verdict = .accepted) : p.acceptedCost = some 0 := by
  obtain ⟨cost, hcost, ⟨rule, r, -, -, hcorrected⟩, -⟩ := h.acceptedCost_of_accepted hg hverdict
  rw [hcost, hcorrected.cost_eq_zero]

include hg in
/-- A run that scans every token wherever it can has all of the run without repair. -/
theorem GatheredAll.embeds (h' : p'.GatheredAll g config' tokens verdict')
    (h : p.Finished g config .none tokens verdict) (hsourced : p.Sourced g) :
    p.chart.Embeds p'.chart := by
  obtain ⟨n, hchart, -⟩ := h.chart
  obtain ⟨n', hchart', hlast', -⟩ := h'.chart
  exact Chart.embeds hg hchart hsourced.grounded hchart' hlast' hsourced.occupied

include hg in
/-- A root of the run without repair is a root of the other run, at no cost. -/
theorem GatheredAll.accepts (h' : p'.GatheredAll g config' tokens verdict')
    (h : p.Finished g config .none tokens verdict) (hsourced : p.Sourced g)
    (hverdict : verdict = .accepted) : verdict' = .accepted ∧ p'.acceptedCost = some 0 := by
  have hembeds := h'.embeds hg h hsourced
  obtain ⟨n, hchart, -, hiff⟩ := h.chart
  obtain ⟨n', hchart', -, hiff'⟩ := h'.chart
  obtain ⟨rfl, hcompleted⟩ := hiff.mp hverdict
  have hn : n' = tokens.length := by
    have := hembeds.columns
    rw [hchart.size, hchart'.size] at this
    have := hchart'.length
    omega
  obtain ⟨id, item, hitem, hid, horigin, hlhs, hend⟩ :=
    (Forest.completed_iff ⟨g, p.chart⟩ hchart.valid.filed).mp hcompleted
  obtain ⟨item', hitem', hcolumn, hkey, hcost⟩ := hembeds.stands id item hitem
  obtain ⟨hrule, hdot, horigin'⟩ := Item.key_eq_iff.mp hkey
  have hroot : Forest.IsRoot ⟨g, p'.chart⟩ (p.chart.counterpart p'.chart id) item' := by
    refine ⟨hitem', ?_, horigin'.trans horigin, by rw [hrule, hlhs], by rw [hrule, hdot, hend]⟩
    rw [hcolumn, hid, hchart'.current, hn]
    exact hchart.current
  have hverdict' : verdict' = .accepted :=
    hiff'.mpr ⟨hn, (Forest.completed_iff ⟨g, p'.chart⟩ hchart'.valid.filed).mpr ⟨_, _, hroot⟩⟩
  have hforest : p'.forest? = some ⟨g, p'.chart⟩ := by
    rw [forest?, if_pos (h'.state_iff.mpr hverdict'), h'.grammar_eq]
  obtain ⟨least, found, -, hmin, hle⟩ :=
    Forest.minCost_of_root ⟨g, p'.chart⟩ hg hchart'.valid.filed ⟨_, _, hroot⟩
  have hfree : found.errorCost = 0 := Nat.le_zero.mp (hcost ▸ hle _ _ hroot)
  exact ⟨hverdict', by rw [acceptedCost, hforest, Option.bind_some, hmin, hfree]⟩

include hg in
theorem parse_disabled_acceptedCost (hmode : config.recovery = .disabled) (costs : CostProvider)
    (tokens : List Token)
    (h : ((fresh g config costs).parse (TokenStream.ofList tokens)).result = .ok .accepted) :
    ((fresh g config costs).parse (TokenStream.ofList tokens)).parser.acceptedCost = some 0 := by
  by_cases hrules : g.rulesFor g.start = []
  · obtain ⟨reason, hresult⟩ := parse_without_rules (g := g) config costs tokens hrules
    rw [h] at hresult
    contradiction
  rcases parse_spec hg config costs tokens (.disabled hmode) hrules with
    ⟨verdict, hresult, hfinished⟩ | ⟨e, hresult, -⟩
  · exact hfinished.acceptedCost_none hg (Except.ok.inj (hresult.symm.trans h))
  · rw [h] at hresult
    contradiction

end accept

/-- Repair is conservative. A run that repairs only where it has to does step by step what
the run without repair does, and asks for no price, until that one rejects a token that
fits nowhere; an accepted input it accepts with the same chart. A run with corrections at
every token, and a price for each waiting item, has all items and links of the run without
repair and accepts at no cost what that one accepts. -/
theorem parse_repair_conservative (d : GrammarDef) (g : Grammar) (hd : d.toGrammar = .ok g)
    (config : Config) (hmode : config.recovery = .disabled) (costs costs' : CostProvider)
    (tokens : List Token) :
    let source := TokenStream.ofList tokens
    let plain := fresh g config costs
    let deferred := fresh g { config with recovery := .onFailure } costs'
    let repairing := fresh g { config with recovery := .continuous } costs'
    (∀ n, (∀ verdict : Verdict, (advances n plain source).1.verdict = some verdict →
        ¬ verdict.Unexpected) →
      (advances n deferred source).1.requests = [] ∧ advances n deferred source =
        ((advances n plain source).1.withRepair .onFailure costs', (advances n plain source).2)) ∧
    ((plain.parse source).result = .ok .accepted →
      (plain.parse source).parser.acceptedCost = some 0 ∧
      (deferred.parse source).parser.requests = [] ∧
      deferred.parse source =
        ⟨.ok .accepted, (plain.parse source).parser.withRepair .onFailure costs',
          (plain.parse source).source⟩) ∧
    (costs'.Answers g →
      Stopped config (plain.parse source).result ∨
      Stopped { config with recovery := .continuous } (repairing.parse source).result ∨
      (plain.parse source).parser.chart.Embeds (repairing.parse source).parser.chart ∧
      ((plain.parse source).result = .ok .accepted →
        (repairing.parse source).result = .ok .accepted ∧
        (repairing.parse source).parser.acceptedCost = some 0)) := by
  intro source plain deferred repairing
  have hg := d.toGrammar_numbered g hd
  have hplain : plain.Plain := ⟨hmode, rfl⟩
  refine ⟨fun n hfits => ?_, fun haccepted => ?_, fun hcosts => ?_⟩
  · obtain ⟨hrequests, heq⟩ := advances_deferred hplain costs' n source hfits
    exact ⟨(congrArg (·.1.requests) heq).trans hrequests, heq⟩
  · rcases parse_deferred hplain costs' rfl source with
      ⟨_, ⟨_, _, _, rfl⟩, hresult⟩ | ⟨hended, heq⟩
    · rw [haccepted] at hresult
      simp at hresult
    · rw [haccepted] at heq
      have hcost := parse_disabled_acceptedCost hg hmode costs tokens haccepted
      exact ⟨hcost, (congrArg (·.parser.requests) heq).trans hended.requests, heq⟩
  · by_cases hrules : g.rulesFor g.start = []
    · obtain ⟨reason, hresult⟩ := parse_without_rules (g := g) config costs tokens hrules
      refine .inr (.inr ⟨?_, fun haccepted => ?_⟩)
      · exact Chart.embeds_of_no_columns (parse_without_rules_columns costs tokens config hrules)
      · rw [haccepted] at hresult
        contradiction
    rcases parse_spec hg config costs tokens (.disabled hmode) hrules with
      ⟨verdict, hresult, hfinished⟩ | hstopped
    · rcases parse_gathered hg { config with recovery := .continuous } costs' hcosts tokens hrules
        with ⟨verdict', hresult', hgathered⟩ | hstopped'
      · have hsourced := parse_fresh_sourced costs tokens hg config
        refine .inr (.inr ⟨hgathered.embeds hg hfinished hsourced, fun haccepted => ?_⟩)
        have hverdict := Except.ok.inj (hresult.symm.trans haccepted)
        obtain ⟨rfl, hcost⟩ := hgathered.accepts hg hfinished hsourced hverdict
        exact ⟨hresult', hcost⟩
      · exact .inr (.inl hstopped')
    · exact .inl hstopped

/-- Over `a b` of `pair` repair that waits asks for no price, and repair at every token has
the chart of the run without repair. -/
theorem parse_repair_conservative_pair :
    let source := TokenStream.ofList [⟨0, "a", .start⟩, ⟨1, "b", .start⟩]
    let plain := fresh pair ⟨.disabled, 5, 0, 0, 0, 0⟩ (.uniform ⟨1, 1⟩)
    let deferred := fresh pair ⟨.onFailure, 5, 0, 0, 0, 0⟩ (.uniform ⟨0, 3⟩)
    let repairing := fresh pair ⟨.continuous, 5, 0, 0, 0, 0⟩ (.uniform ⟨0, 3⟩)
    (deferred.parse source).parser.requests = [] ∧
      (deferred.parse source).result = .ok .accepted ∧
      (plain.parse source).parser.chart.Embeds (repairing.parse source).parser.chart ∧
      (repairing.parse source).parser.acceptedCost = some 0 := by
  intro source plain deferred repairing
  have haccepted : (plain.parse source).result = .ok .accepted := by decide +kernel
  have hlimits : ∀ (mode : RecoveryMode) result, ¬ Stopped ⟨mode, 5, 0, 0, 0, 0⟩ result := by
    rintro mode result ⟨e, -, hlimit⟩
    exact absurd hlimit (Config.not_limits rfl rfl e)
  obtain ⟨-, hdeferred, hrepairing⟩ := parse_repair_conservative pairDef pair rfl
    ⟨.disabled, 5, 0, 0, 0, 0⟩ rfl (.uniform ⟨1, 1⟩) (.uniform ⟨0, 3⟩)
    [⟨0, "a", .start⟩, ⟨1, "b", .start⟩]
  -- with the settings in one form no run is evaluated to compare two of them
  subst source plain deferred repairing
  dsimp only at hdeferred hrepairing
  obtain ⟨-, hrequests, heq⟩ := hdeferred haccepted
  rcases hrepairing fun waiting found => List.length_map _ with
    hstopped | hstopped | ⟨hembeds, haccepts⟩
  · exact absurd hstopped (hlimits _ _)
  · exact absurd hstopped (hlimits _ _)
  · exact ⟨hrequests, congrArg (·.result) heq, hembeds, (haccepts haccepted).2⟩

end Parser
end EarleyChart
