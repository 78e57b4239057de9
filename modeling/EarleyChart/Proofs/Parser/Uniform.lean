import EarleyChart.Proofs.Parser.Accounts
import EarleyChart.Proofs.Parser.AppendOnly

/-!
Runs with one price for all corrections. Every column is closed at this price when
it is the newest one, and stays as it is from then on, so that in the whole chart
the cost of an item is the least of its links.
-/

namespace EarleyChart
namespace Chart

/-- In all columns the cost of an item is the least of its links, with the same price
for every correction. -/
def LeastCosts (c : Chart) (cost : CorrectionCost) : Prop :=
  ∀ id item, c.item? id = some item →
    (item.links = [] → item.errorCost = 0) ∧
    (item.links ≠ [] → ∃ costs : List Nat,
      item.links.map (c.stepCost? fun _ => some cost) = costs.map some ∧
        costs.min? = some item.errorCost)

variable {g : Grammar} {c c' : Chart} {cost : CorrectionCost}

theorem leastCosts_of_no_columns (h : c.columns = #[]) : c.LeastCosts cost := by
  intro id item hitem
  have := item?_lt hitem
  rw [h] at this
  contradiction

/-- The steps of older items cost what they did. -/
theorem Keeps.stepCost? (h : c.Keeps c') (hc : c.Valid g) {id : ItemId} {item : Item}
    (hitem : c.item? id = some item) {link : Link} (hlink : link ∈ item.links)
    (price : ItemId → Option CorrectionCost) :
    c'.stepCost? price link = c.stepCost? price link := by
  obtain ⟨⟨left, hleft⟩, hright⟩ := ((hc.item id item hitem).shape link hlink).ends
  have hsame : ∀ other next, c.item? other = some next → c'.item? other = c.item? other :=
    fun other next hnext => h.item other (item?_lt hnext)
  rw [Chart.stepCost?, Chart.stepCost?, hsame _ left hleft]
  cases hother : link.right with
  | none => rfl
  | some other =>
      obtain ⟨last, hlast⟩ := hright other hother
      rw [Option.bind_some, Option.bind_some, hsame other last hlast]

/-- A price that is the same wherever one is given prices the steps alike. -/
theorem stepCost?_of_price {price : ItemId → Option CorrectionCost}
    (h : ∀ id other, price id = some other → other = cost) {link : Link} {step : Nat}
    (hstep : c.stepCost? price link = some step) :
    c.stepCost? (fun _ => some cost) link = some step := by
  rw [stepCost?] at hstep ⊢
  cases hkind : link.step with
  | scanned | completed =>
      rw [hkind] at hstep
      exact hstep
  | deleted | substituted =>
      rw [hkind] at hstep
      obtain ⟨left, hleft, hcost⟩ := Option.bind_eq_some_iff.mp hstep
      obtain ⟨other, hother, rfl⟩ := Option.map_eq_some_iff.mp hcost
      obtain rfl := h _ other hother
      simp only [hleft, Option.bind_some, Option.map_some]

/-- A chart with one more column, which is closed. -/
theorem LeastCosts.closed (h : c.LeastCosts cost) (hc : c.Valid g) (hkeeps : c.Keeps c')
    (hsize : c'.columns.size = c.columns.size + 1) {g' : Grammar}
    {price : ItemId → Option CorrectionCost} {ceiling : Nat}
    (hclosed : c'.Closed g' price ceiling)
    (hprice : ∀ id other, price id = some other → other = cost) : c'.LeastCosts cost := by
  intro id item hitem
  rcases Nat.lt_or_ge id.column c.columns.size with hold | hnew
  · rw [hkeeps.item id hold] at hitem
    obtain ⟨hseed, hleast⟩ := h id item hitem
    refine ⟨hseed, fun hne => ?_⟩
    obtain ⟨costs, hcosts, hmin⟩ := hleast hne
    refine ⟨costs, ?_, hmin⟩
    rw [← hcosts]
    exact List.map_congr_left fun link hlink => hkeeps.stepCost? hc hitem hlink _
  · have hlt := item?_lt hitem
    obtain ⟨hseed, hleast⟩ := hclosed.cost id item hitem (by rw [current]; omega)
    refine ⟨hseed, fun hne => ?_⟩
    obtain ⟨costs, hcosts, hmin⟩ := hleast hne
    refine ⟨costs, ?_, hmin⟩
    rw [← hcosts]
    refine List.map_congr_left fun link hlink => ?_
    have hmem : c'.stepCost? price link ∈ costs.map some :=
      hcosts ▸ List.mem_map_of_mem hlink
    obtain ⟨step, -, hstep⟩ := List.mem_map.mp hmem
    rw [← hstep]
    exact stepCost?_of_price hprice hstep.symm

end Chart

namespace CostProvider

/-- The only price that is ever quoted. -/
theorem price?_uniform {cost other : CorrectionCost} {g : Grammar} {request : CostRequest}
    {id : ItemId} (h : (uniform cost).price? g request id = some other) : other = cost := by
  obtain ⟨⟨w, price⟩, hfind, rfl⟩ := Option.map_eq_some_iff.mp h
  obtain ⟨-, hprice⟩ := List.of_mem_zip (List.mem_of_find?_eq_some hfind)
  obtain ⟨-, -, rfl⟩ := List.mem_map.mp hprice
  rfl

end CostProvider

namespace Parser

variable {g : Grammar} {p : Parser} {cost : CorrectionCost}

/-- As long as no error stops a run with one price, all costs are least. -/
def Tariffed (cost : CorrectionCost) (p : Parser) : Prop :=
  p.costs = .uniform cost → p.error = none ∨ p.state = .accepted → p.chart.LeastCosts cost

theorem quoted?_uniform (hcosts : p.costs = .uniform cost) (id : ItemId) (other : CorrectionCost)
    (h : p.quoted? id = some other) : other = cost := by
  obtain ⟨request, -, hprice⟩ := Option.bind_eq_some_iff.mp h
  rw [hcosts] at hprice
  exact CostProvider.price?_uniform hprice

/-- An operation that leaves the chart, and the run, as it was. -/
theorem Tariffed.same {next : Parser} (h : p.Tariffed cost) (herror : p.error = none)
    (hchart : next.chart = p.chart) (hcosts : next.costs = p.costs) : next.Tariffed cost := by
  intro huniform _
  rw [hchart]
  exact h (hcosts ▸ huniform) (.inl herror)

/-- What closing a column leaves behind is not an accepted run. -/
theorem closeColumn_running {q : Parser} (hg : q.grammar.Numbered)
    (hc : q.chart.Closable q.grammar)
    (h : q.closeColumn.2.error = none ∨ q.closeColumn.2.state = .accepted) :
    q.closeColumn.1 = .ok () ∧ q.closeColumn.2.costs = q.costs := by
  obtain ⟨-, -, -, hend⟩ := closeColumn_frame hg hc
  rcases closeColumn_spec q hg hc with ⟨chart, tally, heq, -⟩ | ⟨e, next, heq, -⟩
  · rw [heq]
    exact ⟨rfl, rfl⟩
  · have herror := closeColumn_error q e (by rw [heq])
    rcases hend with ⟨hstate, -⟩ | ⟨hstate, -⟩ <;>
      rw [hstate, herror] at h <;> simp at h

variable (hg : g.Numbered)

include hg in
theorem begin_tariffed (hp : p.Healthy g) (hblank : p.Unbegun) (h : p.Tariffed cost) :
    p.begin.2.Tariffed cost := by
  have hturn := begin_turn hg hp
  rcases begin_cases p with ⟨e, -, heq⟩ | ⟨herror, hstart, heq⟩ | ⟨-, -, heq⟩
  · rwa [heq]
  · rw [heq] at hturn ⊢
    rcases seed_cases p with ⟨reason, hseed⟩ | ⟨tally, hseed⟩
    · rw [hseed]
      exact h.same herror rfl rfl
    · have hready := hp.seeded_closable hg herror tally
      obtain rfl := hp.grammar_eq
      intro hcosts hrunning
      rw [hseed] at hcosts hrunning
      obtain ⟨hok, hsame⟩ := closeColumn_running (q := p.seeded tally) hg hready hrunning
      obtain ⟨hsize, -⟩ := closeColumn_frame (p := p.seeded tally) hg hready
      obtain ⟨-, hprogress⟩ := hp.seeded_progresses hg herror tally
      have hclosed := seed_closed hg hp herror (hseed ▸ hok)
      rw [hseed] at hturn hclosed ⊢
      refine (h (hsame ▸ hcosts) (.inl herror)).closed hp.valid (hturn.keeps hg hp hblank) ?_
        hclosed (quoted?_uniform hcosts)
      rw [hsize, hprogress.size, (p.chart.current_openColumn p.grammar none).1]
  · rwa [heq]

include hg in
theorem feedToken_tariffed (hp : p.Scanning g) (hblank : p.Unbegun) (h : p.Tariffed cost)
    (token : Token) : (p.feedToken token).2.Tariffed cost := by
  have hkeeps : p.chart.Keeps (p.feedToken token).2.chart :=
    (feed_turn hg hp (.ok (some token))).keeps hg hp.healthy hblank
  have hclosed := feedToken_closed hg hp token
  have hfeeds := hp.feeds hg token
  generalize p.feedToken token = outcome at hkeeps hclosed hfeeds
  cases hfeeds with
  | failed | rejected => exact h.same hp.error_eq rfl rfl
  | stopped news requests tally hread e next hclose =>
      intro _ hrunning
      have hready := hp.opened_closable hg hread requests tally
      obtain rfl := hp.grammar_eq
      obtain ⟨hok, -⟩ := closeColumn_running (q := p.opened token news requests tally) hg hready
        (by rwa [hclose])
      rw [hclose] at hok
      contradiction
  | closed news requests tally hread next hclose =>
      intro hcosts hrunning
      have hready := hp.opened_closable hg hread requests tally
      have hextends := hp.opened_extends hg hread requests tally
      have hvalid := hp.valid
      obtain rfl := hp.grammar_eq
      obtain ⟨-, hsame⟩ := closeColumn_running (q := p.opened token news requests tally) hg hready
        (by rwa [hclose])
      obtain ⟨hsize, -⟩ := closeColumn_frame (p := p.opened token news requests tally) hg hready
      rw [hclose] at hsame hsize
      refine (h (hsame ▸ hcosts) (.inl hp.error_eq)).closed hvalid hkeeps ?_ (hclosed rfl)
        (quoted?_uniform hcosts)
      rw [hsize, hextends.progresses.size,
        (p.chart.current_openColumn p.grammar (some token)).1]

include hg in
theorem tariffed_carried : Carried g fun p => p.Unbegun ∧ p.Tariffed cost where
  begun hp h := ⟨(begin_turn hg hp).unbegun hg hp h.1, begin_tariffed hg hp h.1 h.2⟩
  fed := by
    intro p answer hp h
    refine ⟨(feed_turn hg hp answer).unbegun hg hp.healthy h.1, ?_⟩
    rcases answer with cause | ⟨⟩ | token
    · exact h.2.same hp.error_eq rfl rfl
    · refine h.2.same hp.error_eq ?_ ?_ <;>
        simp only [feed, finish] <;> split <;> rfl
    · exact feedToken_tariffed hg hp h.1 h.2 token

include hg in
/-- Where settings and costs are replaced between runs only, a run with one price has
least costs. -/
theorem Steady.tariffed (h : Steady g p) : p.Tariffed cost := by
  have hcarried : Carried g fun p => p.Unbegun ∧ p.Tariffed cost := tariffed_carried hg
  induction h with
  | created => exact fun _ _ => Chart.leastCosts_of_no_columns rfl
  | setConfig _ _ _ ih => exact ih
  | setCosts h hstart =>
      have hblank := h.reached.unbegun hg hstart
      exact fun _ _ => Chart.leastCosts_of_no_columns hblank
  | reset => exact fun _ _ => Chart.leastCosts_of_no_columns rfl
  | begin h ih =>
      exact (hcarried.begun (h.reached.healthy hg) ⟨h.reached.unbegun hg, ih⟩).2
  | advance h source ih =>
      exact (hcarried.advance (h.reached.healthy hg) ⟨h.reached.unbegun hg, ih⟩ source).2
  | parse h source ih =>
      exact (hcarried.parse hg (h.reached.healthy hg) ⟨h.reached.unbegun hg, ih⟩ source).2
  | timedOut _ hfills steps elapsed =>
      rintro - (herror | hstate)
      · exact absurd herror (Option.some_ne_none _)
      · rw [hfills.timedOut_state] at hstate
        contradiction

end Parser
end EarleyChart
