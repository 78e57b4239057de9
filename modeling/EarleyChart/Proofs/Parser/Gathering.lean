import EarleyChart.Proofs.Parser.Closing

/-!
A chart from one token to the next. Every column owes nothing, the rules of the start
symbol are in the first column, and every token is read in certain ways at least; what
else is in the chart plays no part. The column that is opened for the next token with
its readings, and closed, brings the chart on.
-/

namespace EarleyChart
namespace Chart

/-- What a saturated column owes depends on the items up to it only. -/
theorem Saturated.of_items {g : Grammar} {ceiling column : Nat} {c c' : Chart}
    (h : c.Saturated g ceiling column) (hc : c.Valid g) (hgrows : c.Grows c')
    (hsame : ∀ id, id.column ≤ column → c'.item? id = c.item? id) :
    c'.Saturated g ceiling column where
  predicted id item symbol hitem hid hnext hsymbol rule hrule := by
    rw [hsame id (Nat.le_of_eq hid)] at hitem
    exact (h.predicted id item symbol hitem hid hnext hsymbol rule hrule).grows hgrows
  completed id last other item hlast hid hend hitem hcolumn hnext hcost := by
    rw [hsame id (Nat.le_of_eq hid)] at hlast
    have horigin := (hc.item id last hlast).origin
    rw [hsame other (by omega)] at hitem
    exact (h.completed id last other item hlast hid hend hitem hcolumn hnext hcost).grows hgrows

/-- A chart that holds what a number of tokens lead to when they are read in certain
ways. -/
structure Gathers (g : Grammar) (ceiling : Nat)
    (reads : Token → ItemId → Item → Candidate → Prop) (tokens : List Token) (n : Nat)
    (c : Chart) : Prop where
  valid : c.Valid g
  size : c.columns.size = n + 1
  length : n ≤ tokens.length
  idle : c.worklist.toList = []
  saturated : ∀ column ≤ n, c.Saturated g ceiling column
  start : ∀ rule ∈ g.rulesFor g.start, c.Holds 0 ⟨rule, 0, 0, 0, none⟩
  read : ∀ id item token new, c.item? id = some item → id.column < n →
    tokens[id.column]? = some token → reads token id item new → c.Holds (id.column + 1) new

section step

variable {g : Grammar} (hg : g.Numbered) {ceiling n : Nat}
  {reads : Token → ItemId → Item → Candidate → Prop} {tokens : List Token} {c : Chart}

theorem Gathers.current (h : c.Gathers g ceiling reads tokens n) : c.current = n := by
  rw [Chart.current, h.size, Nat.add_sub_cancel]

theorem Gathers.nonempty (h : c.Gathers g ceiling reads tokens n) : 0 < c.columns.size := by
  rw [h.size]
  exact Nat.succ_pos n

include hg in
/-- A column opened with the readings of the next token, and closed. -/
theorem Gathers.step (h : c.Gathers g ceiling reads tokens n) {token : Token}
    (htoken : tokens[n]? = some token) {news : List Candidate}
    (hfits : ∀ new ∈ news, (c.openColumn g (some token)).Fits g new)
    (hnews : ∀ id item new, c.item? id = some item → id.column = n → reads token id item new →
      new ∈ news)
    {c' : Chart} (hclose : TakesAll g ceiling ((c.openColumn g (some token)).insertAll g news) c')
    (hidle : c'.worklist.toList = []) : c'.Gathers g ceiling reads tokens (n + 1) := by
  have hlength : n + 1 ≤ tokens.length := (List.getElem?_eq_some_iff.mp htoken).1
  obtain ⟨hsize, hcurrent⟩ := c.current_openColumn g (some token)
  rw [h.size] at hsize hcurrent
  have hopened := closing_openColumn ceiling (some token) h.valid h.idle
  obtain ⟨hvalid, hextends, hholds⟩ := insertAll_extends g hg news _ hopened.valid
    hopened.nonempty hfits
  have hclosing := closing_opened hg ceiling (some token) h.valid h.idle hfits
  generalize (c.openColumn g (some token)).insertAll g news = entered at *
  have hclosable : entered.Closable g := ⟨hvalid, hclosing.nonempty⟩
  obtain ⟨hfinal, hprogress⟩ := TakesAll.closable hg hclose hclosable
  have hgrows : c.Grows c' :=
    ((grows_openColumn (some token)).trans hextends.grows).trans hprogress.grows
  have hcur : entered.current = n + 1 := by rw [hextends.frame.current, hcurrent]
  have hsame : ∀ id : ItemId, id.column ≤ n → c'.item? id = c.item? id := by
    intro id hid
    rw [hprogress.older id (by omega), hextends.older id (by omega), item?_openColumn]
  have hsaturated : c'.Saturated g ceiling (n + 1) := by
    rw [← hcur]
    exact hclose.saturated hg hclosing hidle
  constructor
  case valid => exact hfinal.valid
  case size => rw [hprogress.size, hextends.frame.size, hsize]
  case length => exact hlength
  case idle => exact hidle
  case saturated =>
    intro column hcolumn
    rcases Nat.lt_or_eq_of_le hcolumn with hlt | rfl
    · exact (h.saturated column (by omega)).of_items h.valid hgrows
        fun id hid => hsame id (by omega)
    · exact hsaturated
  case start => exact fun rule hrule => (h.start rule hrule).grows hgrows
  case read =>
    intro id item found new hitem hid hfound hreads
    rw [hsame id (by omega)] at hitem
    by_cases hlast : id.column = n
    · rw [hlast, htoken, Option.some.injEq] at hfound
      subst hfound
      have hnew := hholds new (hnews id item new hitem hlast hreads)
      rw [hcurrent] at hnew
      rw [hlast]
      exact hnew.grows hprogress.grows
    · exact (h.read id item found new hitem (by omega) hfound hreads).grows hgrows

theorem valid_empty (arena : Arena) (h : arena.free = []) : (empty arena).Valid g :=
  ⟨filed_empty g arena h, fun id item hitem => by simp [empty, item?] at hitem⟩

include hg in
/-- The first column, filled with the rules of the start symbol and closed. -/
theorem Gathers.first (arena : Arena) (harena : arena.free = []) {c' : Chart}
    (hclose : TakesAll g ceiling (((empty arena).openColumn g none).predict g g.start) c')
    (hidle : c'.worklist.toList = []) : c'.Gathers g ceiling reads tokens 0 := by
  have hopened := closing_openColumn (g := g) ceiling none (valid_empty arena harena) rfl
  obtain ⟨hclosing, hmarked, -⟩ := closing_predict hg hopened g.start
    ((g.isNonterminal_iff g.start).mp hg.start).2
  obtain ⟨hvalid, hprogress⟩ := predict_valid hg hopened.valid hopened.nonempty g.start
  generalize ((empty arena).openColumn g none).predict g g.start = seeded at *
  have hsize : seeded.columns.size = 1 := by
    rw [hprogress.size, (current_openColumn g _ none).1]
    rfl
  have hcurrent : seeded.current = 0 := by rw [Chart.current, hsize]
  have hsaturated := hclose.saturated hg (by simpa using hclosing) hidle
  obtain ⟨hfinal, hprogress'⟩ := TakesAll.closable hg hclose ⟨hvalid, hclosing.nonempty⟩
  constructor
  case valid => exact hfinal.valid
  case size => rw [hprogress'.size, hsize]
  case length => exact Nat.zero_le _
  case idle => exact hidle
  case saturated =>
    intro column hcolumn
    obtain rfl : column = 0 := by omega
    rwa [hcurrent] at hsaturated
  case start =>
    intro rule hrule
    have hseed := hclosing.marks g.start hmarked rule hrule
    rw [hcurrent] at hseed
    exact hseed.grows hprogress'.grows
  case read => exact fun id item token new _ hid => absurd hid (Nat.not_lt_zero _)

end step

end Chart
end EarleyChart
