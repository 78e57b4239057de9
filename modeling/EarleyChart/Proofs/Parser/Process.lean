import EarleyChart.Parser.Closure
import EarleyChart.Proofs.Chart.Extension

/-!
What one item leads to within its column, on the chart alone: the rules of a
nonterminal are added, or the items that wait for a completed one are advanced.
Older columns stay as they are.
-/

namespace EarleyChart
namespace Chart

def predict (c : Chart) (g : Grammar) (symbol : SymbolId) : Chart :=
  match c.marked? c.current symbol with
  | some false =>
      (c.modifyNewest (·.markPredicted symbol)).insertAll g (c.predictions g symbol)
  | _ => c

def process (c : Chart) (g : Grammar) (ceiling : Nat) (item : Item) : Chart :=
  match g.next? item.rule item.dot with
  | none => c.insertAll g (c.completions g ceiling item)
  | some symbol => if g.isNonterminal symbol then c.predict g symbol else c

structure Progresses (c c' : Chart) : Prop where
  size : c'.columns.size = c.columns.size
  token : ∀ i, c'.token? i = c.token? i
  marked : ∀ i symbol, i ≠ c.current → c'.marked? i symbol = c.marked? i symbol
  grows : c.Grows c'
  older : ∀ id, id.column ≠ c.current → c'.item? id = c.item? id

theorem Progresses.current {c c' : Chart} (h : c.Progresses c') : c'.current = c.current := by
  rw [Chart.current, Chart.current, h.size]

theorem Progresses.refl (c : Chart) : c.Progresses c :=
  ⟨rfl, fun _ => rfl, fun _ _ _ => rfl, .refl c, fun _ _ => rfl⟩

theorem Progresses.trans {a b c : Chart} (h : a.Progresses b) (k : b.Progresses c) :
    a.Progresses c where
  size := k.size.trans h.size
  token i := (k.token i).trans (h.token i)
  marked i symbol hi := (k.marked i symbol (h.current ▸ hi)).trans (h.marked i symbol hi)
  grows := h.grows.trans k.grows
  older id hid := (k.older id (h.current ▸ hid)).trans (h.older id hid)

theorem Extends.progresses {g : Grammar} {c c' : Chart} (h : c.Extends g c') :
    c.Progresses c' :=
  ⟨h.frame.size, h.frame.token, fun i symbol _ => h.frame.marked i symbol, h.grows, h.older⟩

section markNewest

variable (g : Grammar) (c : Chart) (symbol : SymbolId)

theorem progresses_markNewest : c.Progresses (c.modifyNewest (·.markPredicted symbol)) where
  size := (c.current_markNewest symbol).1
  token := c.token?_markNewest symbol
  marked i other hi := by rw [marked_markNewest, if_neg (fun h => hi h.1)]
  grows := .of_items (fun id item h => by rw [item?_markNewest, h])
    fun i token h => by rw [token?_markNewest, h]
  older id _ := c.item?_markNewest symbol id

theorem valid_markNewest (hc : c.Valid g) :
    (c.modifyNewest (·.markPredicted symbol)).Valid g := by
  refine ⟨filed_markNewest g c hc.filed symbol, fun id item hitem => ?_⟩
  rw [item?_markNewest] at hitem
  exact (hc.item id item hitem).grows (c.progresses_markNewest symbol).grows

end markNewest

variable {g : Grammar} (hg : g.Numbered) {c : Chart} (hc : c.Valid g)

include hg in
theorem predictions_fit (symbol : SymbolId) (new : Candidate)
    (h : new ∈ c.predictions g symbol) : c.Fits g new := by
  obtain ⟨rule, hrule, rfl⟩ := List.mem_map.mp h
  obtain ⟨r, hr, -⟩ := (Grammar.mem_rulesFor_iff hg rule symbol).mp hrule
  exact ⟨⟨r, hr, Nat.zero_le _⟩, Nat.le_refl _, by simp, fun _ => ⟨rfl, rfl⟩, by simp⟩

theorem addCost_le (a b : Nat) : addCost a b ≤ maxCost := Nat.min_le_right _ _

theorem addCost_mono {a b c d : Nat} (h : a ≤ c) (k : b ≤ d) : addCost a b ≤ addCost c d := by
  simp only [addCost]
  omega

include hc in
/-- Advancing what waits for a completed item of the newest column. -/
theorem advanceOver_fits (id other : ItemId) (last item : Item) (hlast : c.item? id = some last)
    (hid : id.column = c.current) (hend : g.next? last.rule last.dot = none)
    (hitem : c.item? other = some item) (hcolumn : other.column = last.origin)
    (hnext : g.next? item.rule item.dot = some (g.lhs last.rule)) :
    c.Fits g (advanceOver last item) := by
  constructor
  case dot => exact (g.hasDot_next _ _ _ hnext).2
  case origin =>
    refine Nat.le_trans (hc.item other item hitem).origin ?_
    exact c.column_lt other item hitem
  case cost => exact addCost_le _ _
  case seed => simp [advanceOver]
  case link =>
    rintro _ ⟨⟩
    rw [item_id g c hc.filed other item hitem, item_id g c hc.filed id last hlast]
    exact .completed other id item last hitem hlast hcolumn hid rfl hnext hend

include hg hc in
theorem completions_fit (ceiling : Nat) (id : ItemId) (last : Item)
    (hlast : c.item? id = some last) (hid : id.column = c.current)
    (hend : g.next? last.rule last.dot = none) (new : Candidate)
    (h : new ∈ c.completions g ceiling last) : c.Fits g new := by
  obtain ⟨other, item, hitem, hcolumn, hnext, rfl, -⟩ :=
    (mem_completions g c hc.filed hg ceiling last (hc.item id last hlast).dot new).mp h
  exact advanceOver_fits hc id other last item hlast hid hend hitem hcolumn hnext

include hg hc in
theorem predict_valid (hne : 0 < c.columns.size) (symbol : SymbolId) :
    (c.predict g symbol).Valid g ∧ c.Progresses (c.predict g symbol) := by
  rw [predict]
  split
  · have hmark := valid_markNewest g c symbol hc
    obtain ⟨hsize, hcurrent⟩ := c.current_markNewest symbol
    obtain ⟨hvalid, hextends, -⟩ := insertAll_extends g hg (c.predictions g symbol) _ hmark
      (by rwa [hsize]) fun new hnew =>
        (predictions_fit hg symbol new hnew).grows (c.progresses_markNewest symbol).grows hcurrent
    exact ⟨hvalid, (c.progresses_markNewest symbol).trans hextends.progresses⟩
  · exact ⟨hc, .refl c⟩

include hg hc in
/-- Processing an item keeps the chart well formed and the other columns as they are. -/
theorem process_valid (hne : 0 < c.columns.size) (ceiling : Nat) (id : ItemId) (item : Item)
    (hitem : c.item? id = some item) (hid : id.column = c.current) :
    (c.process g ceiling item).Valid g ∧ c.Progresses (c.process g ceiling item) := by
  rw [process]
  cases hnext : g.next? item.rule item.dot with
  | none =>
      obtain ⟨hvalid, hextends, -⟩ := insertAll_extends g hg (c.completions g ceiling item) c
        hc hne (completions_fit hg hc ceiling id item hitem hid hnext)
      exact ⟨hvalid, hextends.progresses⟩
  | some symbol =>
      simp only
      split
      · exact predict_valid hg hc hne symbol
      · exact ⟨hc, .refl c⟩

end Chart

namespace Parser

theorem insertAll_eq (p : Parser) (news : List Candidate) : ∃ tally,
    p.insertAll news =
      { p with chart := p.chart.insertAll p.grammar news, tally := tally } := by
  induction news generalizing p with
  | nil => exact ⟨p.tally, rfl⟩
  | cons new news ih =>
      obtain ⟨tally, h⟩ := ih (p.insert new)
      exact ⟨tally, h⟩

def marking (p : Parser) (symbol : SymbolId) : Parser :=
  { p with
    chart := p.chart.modifyNewest (·.markPredicted symbol)
    tally := { p.tally with predictions := p.tally.predictions + 1 } }

theorem predict_def (p : Parser) (symbol : SymbolId) : p.predict symbol =
    match p.chart.marked? p.chart.current symbol with
    | some false => (p.marking symbol).insertAll (p.chart.predictions p.grammar symbol)
    | _ => p := by
  have hmarked : p.chart.newest?.bind (·.isPredicted? symbol) =
      p.chart.marked? p.chart.current symbol := by
    rw [Chart.newest?, Array.back?_eq_getElem?, Chart.marked?, Chart.current]
  rw [predict, hmarked]
  rfl

theorem predict_eq (p : Parser) (symbol : SymbolId) : ∃ tally,
    p.predict symbol = { p with chart := p.chart.predict p.grammar symbol, tally := tally } := by
  rw [predict_def, Chart.predict]
  cases p.chart.marked? p.chart.current symbol with
  | none => exact ⟨p.tally, rfl⟩
  | some marked =>
      cases marked with
      | false => exact insertAll_eq (p.marking symbol) _
      | true => exact ⟨p.tally, rfl⟩

theorem process_eq (p : Parser) (item : Item) : ∃ tally, p.process item =
    { p with
      chart := p.chart.process p.grammar p.config.maxErrorValue item
      tally := tally } := by
  rw [process, Chart.process]
  cases p.grammar.next? item.rule item.dot with
  | none => exact insertAll_eq _ _
  | some symbol =>
      simp only
      split
      · exact predict_eq p symbol
      · exact ⟨p.tally, rfl⟩

end Parser
end EarleyChart
