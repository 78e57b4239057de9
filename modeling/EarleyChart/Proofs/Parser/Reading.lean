import EarleyChart.Proofs.Parser.Corrected
import EarleyChart.Proofs.Parser.Gathering
import EarleyChart.Proofs.Parser.Soundness

/-!
The chart of a run over the first tokens of an input, at a fixed ceiling. Every
column is saturated, every token is read in all ways within the ceiling, and
every item is derived. A column that is opened with the readings of its token
and closed brings the chart from one token to the next.
-/

namespace EarleyChart
namespace Chart

/-- What is known of an identity in the chart of a run: it is derived within the
ceiling, and its rule was called for. -/
structure Derived (g : Grammar) (quote : Quote) (ceiling : Nat) (tokens : List Token)
    (column : Nat) (key : ItemKey) (cost : Nat) : Prop where
  corrected : Corrected g quote tokens column key cost
  within : cost ≤ ceiling
  called : Called g quote tokens key.rule key.origin

/-- A chart that holds what a number of tokens lead to. -/
structure Reading (g : Grammar) (quote : Quote) (ceiling : Nat) (tokens : List Token) (n : Nat)
    (c : Chart) : Prop where
  valid : c.Valid g
  size : c.columns.size = n + 1
  length : n ≤ tokens.length
  idle : c.worklist.toList = []
  token : ∀ i < n, c.token? (i + 1) = tokens[i]?
  saturated : ∀ column ≤ n, c.Saturated g ceiling column
  start : ∀ rule ∈ g.rulesFor g.start, c.Holds 0 ⟨rule, 0, 0, 0, none⟩
  read : ∀ id item token new, c.item? id = some item → id.column < n →
    tokens[id.column]? = some token → ReadsAs g quote token id item new →
    new.errorCost ≤ ceiling → c.Holds (id.column + 1) new
  sound : c.All (Derived g quote ceiling tokens) quote.Allows

/-- The readings of a token within the ceiling are all there. -/
theorem Reading.gathers {g : Grammar} {quote : Quote} {ceiling n : Nat} {tokens : List Token}
    {c : Chart} (h : c.Reading g quote ceiling tokens n) :
    c.Gathers g ceiling (fun token id item new =>
      ReadsAs g quote token id item new ∧ new.errorCost ≤ ceiling) tokens n where
  valid := h.valid
  size := h.size
  length := h.length
  idle := h.idle
  saturated := h.saturated
  start := h.start
  read id item token new hitem hid htoken hreads :=
    h.read id item token new hitem hid htoken hreads.1 hreads.2

/-- With the tokens in their columns and no other items, this is all there is to know. -/
theorem Gathers.reading {g : Grammar} {quote : Quote} {ceiling n : Nat} {tokens : List Token}
    {c : Chart} (h : c.Gathers g ceiling (fun token id item new =>
      ReadsAs g quote token id item new ∧ new.errorCost ≤ ceiling) tokens n)
    (htoken : ∀ i < n, c.token? (i + 1) = tokens[i]?)
    (hsound : c.All (Derived g quote ceiling tokens) quote.Allows) :
    c.Reading g quote ceiling tokens n where
  valid := h.valid
  size := h.size
  length := h.length
  idle := h.idle
  token := htoken
  saturated := h.saturated
  start := h.start
  read id item token new hitem hid htoken hreads hcost :=
    h.read id item token new hitem hid htoken ⟨hreads, hcost⟩
  sound := hsound

theorem Reading.current {g : Grammar} {quote : Quote} {ceiling n : Nat} {tokens : List Token}
    {c : Chart} (h : c.Reading g quote ceiling tokens n) : c.current = n := by
  rw [Chart.current, h.size, Nat.add_sub_cancel]

section step

variable {g : Grammar} (hg : g.Numbered) {quote : Quote} {ceiling n : Nat} {tokens : List Token}
  {c : Chart}

/-- A reading of a token may enter the column that the token opens. -/
theorem ReadsAs.fits (hc : c.Valid g) (hne : 0 < c.columns.size) {token : Token} {id : ItemId}
    {item : Item} {new : Candidate} (h : ReadsAs g quote token id item new)
    (hitem : c.item? id = some item) (hid : id.column = c.current) :
    (c.openColumn g (some token)).Fits g new := by
  obtain ⟨-, hcurrent⟩ := c.current_openColumn g (some token)
  have hold := hc.item id item hitem
  have hitem' : (c.openColumn g (some token)).item? id = some item := by
    rw [item?_openColumn, hitem]
  have hcolumn : id.column + 1 = c.columns.size := by
    rw [hid, current]
    omega
  have htoken : (c.openColumn g (some token)).token? c.columns.size = some token := by
    rw [token?_openColumn, if_pos rfl]
  have horigin : item.origin ≤ (c.openColumn g (some token)).current := by
    have := hold.origin
    rw [hcurrent]
    omega
  cases h with
  | scan hnext hkind =>
      refine ⟨(g.hasDot_next _ _ _ hnext).2, horigin, hold.cost, by simp [scanOver], ?_⟩
      rintro _ ⟨⟩
      rw [item_id g c hc.filed id item hitem, hcurrent]
      refine .scanned id item _ hitem' hcolumn rfl hnext ?_
      rw [terminal?, htoken, Option.bind_some, hkind]
  | substitute hnext hterminal hkind hquote =>
      refine ⟨(g.hasDot_next _ _ _ hnext).2, horigin, addCost_le _ _,
        by simp [WaitingItem.substituting], ?_⟩
      rintro _ ⟨⟩
      rw [hcurrent]
      exact .substituted id item _ token hitem' hcolumn rfl hnext hterminal htoken hkind
  | delete hnext hterminal hquote =>
      refine ⟨(g.hasDot_next _ _ _ hnext).1, horigin, addCost_le _ _,
        by simp [WaitingItem.deleting], ?_⟩
      rintro _ ⟨⟩
      rw [hcurrent]
      exact .deleted id item _ token hitem' hcolumn rfl hnext hterminal htoken

/-- A rule that is called for begins in its column at no cost. -/
theorem derived_seed (hg : g.Numbered) {column : Nat} (hcolumn : column ≤ tokens.length)
    {symbol : SymbolId} {rule : RuleId} (hrule : rule ∈ g.rulesFor symbol)
    (hcalled : g.lhs rule = symbol → Called g quote tokens rule column) :
    Derived g quote ceiling tokens column ⟨rule, 0, column⟩ 0 := by
  obtain ⟨r, hr, hlhs⟩ := (Grammar.mem_rulesFor_iff hg rule symbol).mp hrule
  refine ⟨.start column rule hcolumn (by simp [hr]), Nat.zero_le _, hcalled ?_⟩
  rw [Grammar.lhs, hr, Option.elim_some, hlhs]

/-- Derived identities within the ceiling are closed under prediction and
completion. -/
theorem derived_passedOn (hg : g.Numbered) (quote : Quote) (ceiling : Nat) (tokens : List Token)
    (column : Nat) (hcolumn : column ≤ tokens.length) :
    PassedOn g ceiling column (Derived g quote ceiling tokens) quote.Allows where
  seed key cost symbol rule h hnext hrule := by
    refine derived_seed hg hcolumn hrule fun hlhs => ?_
    exact .call rule h.called h.corrected (hlhs ▸ hnext)
  join _ _ _ _ hleft hright hnext hend hcost :=
    ⟨.join hleft.corrected hright.corrected hnext hend, hcost, hleft.called⟩
  completed := by simp [Quote.Allows]

/-- What a token is read as, within the ceiling, in the newest column. -/
def Readings (g : Grammar) (quote : Quote) (ceiling : Nat) (token : Token) (c : Chart)
    (news : List Candidate) : Prop :=
  ∀ new, new ∈ news ↔ ∃ id item, c.item? id = some item ∧ id.column = c.current ∧
    ReadsAs g quote token id item new ∧ new.errorCost ≤ ceiling

theorem Readings.fits {token : Token} {news : List Candidate}
    (hnews : c.Readings g quote ceiling token news) (hc : c.Valid g) (hne : 0 < c.columns.size) :
    ∀ new ∈ news, (c.openColumn g (some token)).Fits g new := by
  intro new hnew
  obtain ⟨id, item, hitem, hid, hreads, -⟩ := (hnews new).mp hnew
  exact ReadsAs.fits hc hne hreads hitem hid

include hg in
/-- The readings of the next token are derived in the column that it opens. -/
theorem Reading.derived_opened (h : c.Reading g quote ceiling tokens n) {token : Token}
    (htoken : tokens[n]? = some token) {news : List Candidate}
    (hnews : c.Readings g quote ceiling token news) (hne : 0 < c.columns.size) :
    ((c.openColumn g (some token)).insertAll g news).All (Derived g quote ceiling tokens)
      quote.Allows := by
  have hopened := closing_openColumn ceiling (some token) h.valid h.idle
  obtain ⟨-, hcurrent⟩ := c.current_openColumn g (some token)
  refine insertAll_all hg news hopened.valid hopened.nonempty (hnews.fits h.valid hne) ?_ ?_
  · intro id item hitem
    rw [item?_openColumn] at hitem
    exact h.sound id item hitem
  · intro new hnew
    obtain ⟨id, item, hitem, hid, hreads, hcost⟩ := (hnews new).mp hnew
    rw [h.current] at hid
    subst hid
    rw [hcurrent, h.size]
    obtain ⟨hcorrected, -, hcalled⟩ := (h.sound id item hitem).1
    exact ⟨⟨hreads.corrected hcorrected htoken, hcost, hreads.called hcalled⟩, hreads.allows⟩

include hg in
/-- A column opened with the readings of the next token, and closed. -/
theorem Reading.step (h : c.Reading g quote ceiling tokens n) {token : Token}
    (htoken : tokens[n]? = some token) {news : List Candidate}
    (hnews : c.Readings g quote ceiling token news) {c' : Chart}
    (hclose : TakesAll g ceiling ((c.openColumn g (some token)).insertAll g news) c')
    (hidle : c'.worklist.toList = []) : c'.Reading g quote ceiling tokens (n + 1) := by
  have hne := h.gathers.nonempty
  have hlength : n + 1 ≤ tokens.length := (List.getElem?_eq_some_iff.mp htoken).1
  have hfits := hnews.fits h.valid hne
  have hopened := closing_openColumn ceiling (some token) h.valid h.idle
  obtain ⟨hvalid, hextends, -⟩ := insertAll_extends g hg news _ hopened.valid hopened.nonempty
    hfits
  have hclosable : ((c.openColumn g (some token)).insertAll g news).Closable g :=
    ⟨hvalid, by rw [hextends.frame.size]; exact hopened.nonempty⟩
  have hprogress := (TakesAll.closable hg hclose hclosable).2
  have hgathers := h.gathers.step hg htoken hfits (fun id item new hitem hid hreads =>
    (hnews new).mpr ⟨id, item, hitem, hid.trans h.current.symm, hreads⟩) hclose hidle
  apply hgathers.reading
  case htoken =>
    intro i hi
    rw [hprogress.token, hextends.frame.token, token?_openColumn, h.size]
    split
    · next heq =>
        obtain rfl : i = n := by omega
        exact htoken.symm
    · exact h.token i (by omega)
  case hsound =>
    have hpassed := derived_passedOn hg quote ceiling tokens (n + 1) hlength
    have hcurrent : ((c.openColumn g (some token)).insertAll g news).current = n + 1 := by
      rw [hextends.frame.current, (c.current_openColumn g (some token)).2, h.size]
    exact TakesAll.all hg hclose hclosable (h.derived_opened hg htoken hnews hne)
      (hcurrent ▸ hpassed)

include hg in
/-- The first column, filled with the rules of the start symbol and closed. -/
theorem Reading.first (arena : Arena) (harena : arena.free = []) {c' : Chart}
    (hclose : TakesAll g ceiling (((empty arena).openColumn g none).predict g g.start) c')
    (hidle : c'.worklist.toList = []) : c'.Reading g quote ceiling tokens 0 := by
  have hopened := closing_openColumn (g := g) ceiling none (valid_empty arena harena) rfl
  obtain ⟨hvalid, hprogress⟩ := predict_valid hg hopened.valid hopened.nonempty g.start
  have hpassed := derived_passedOn hg quote ceiling tokens 0 (Nat.zero_le _)
  have hall : (((empty arena).openColumn g none).predict g g.start).All
      (Derived g quote ceiling tokens) quote.Allows := by
    apply predict_all hg hopened.valid hopened.nonempty g.start _ hpassed
    · exact fun rule hrule => derived_seed hg (Nat.zero_le _) hrule (.start rule)
    · intro id item hitem
      rw [item?_openColumn] at hitem
      simp [empty, item?] at hitem
  have hcurrent : (((empty arena).openColumn g none).predict g g.start).current = 0 := by
    rw [hprogress.current, (current_openColumn g _ none).2]
    rfl
  have hclosable : (((empty arena).openColumn g none).predict g g.start).Closable g :=
    ⟨hvalid, by rw [hprogress.size]; exact hopened.nonempty⟩
  apply (Gathers.first hg arena harena hclose hidle).reading
  case htoken => exact fun i hi => absurd hi (Nat.not_lt_zero i)
  case hsound => exact TakesAll.all hg hclose hclosable hall (hcurrent ▸ hpassed)

end step

end Chart
end EarleyChart
