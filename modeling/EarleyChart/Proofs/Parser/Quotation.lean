import EarleyChart.Proofs.Parser.Questions
import EarleyChart.Proofs.Parser.Readings

/-!
The prices of an answer. A question names every waiting item once, so that the
answer has one price for it. Whatever a token is read as, its corrections are made
at the prices of the latest answer.
-/

namespace EarleyChart

def CostProvider.price? (costs : CostProvider) (g : Grammar) (request : CostRequest)
    (id : ItemId) : Option CorrectionCost :=
  ((request.waiting.zip (costs g request.waiting request.found)).find?
    fun answer => answer.1.id == id).map (·.2)

theorem find?_of_nodup {α β : Type} [BEq β] [LawfulBEq β] (key : α → β) (xs : List α)
    (h : (xs.map key).Nodup) (x : α) (hx : x ∈ xs) :
    xs.find? (fun y => key y == key x) = some x := by
  cases hfind : xs.find? (fun y => key y == key x) with
  | none =>
      have := List.find?_eq_none.mp hfind x hx
      simp at this
  | some y =>
      have hkey := List.find?_some hfind
      rw [List.inj_on_of_nodup_map h (List.mem_of_find?_eq_some hfind) hx (eq_of_beq hkey)]

/-- With one price for each item, the price of an item is the one beside it. -/
theorem CostProvider.price?_eq_some (costs : CostProvider) (g : Grammar) (request : CostRequest)
    (hnodup : (request.waiting.map (·.id)).Nodup)
    (hlength : (costs g request.waiting request.found).length = request.waiting.length)
    {w : WaitingItem} {cost : CorrectionCost}
    (h : (w, cost) ∈ request.waiting.zip (costs g request.waiting request.found)) :
    costs.price? g request w.id = some cost := by
  have hfirst := List.map_fst_zip (Nat.le_of_eq hlength.symm)
  rw [← hfirst, List.map_map] at hnodup
  rw [price?, find?_of_nodup (·.1.id) _ hnodup _ h, Option.map_some]

namespace Chart

theorem nodup_waitingItems {g : Grammar} {c : Chart} (hc : c.Filed g) :
    ((c.waitingItems g).map (·.id)).Nodup := by
  rw [waitingItems, newest?, Array.back?_eq_getElem?]
  cases h : c.columns[c.columns.size - 1]? with
  | none => exact List.nodup_nil
  | some column =>
      have hle : ∀ terminal ∈ g.terminalIds, 0 < terminal ∧ terminal ≤ g.symbolCount := by
        intro terminal hterminal
        obtain ⟨hpos, hle⟩ :=
          (g.isTerminal_iff terminal).mp ((g.mem_terminalIds_iff terminal).mp hterminal)
        exact ⟨hpos, Nat.le_trans hle (Nat.le_add_right _ _)⟩
      refine ((List.mergeSort_perm _ _).map _).nodup_iff.mpr ?_
      rw [List.map_flatMap, List.nodup_flatMap]
      simp only [List.map_map]
      constructor
      · intro terminal hterminal
        exact nodup_waitingFor g c hc _ column h terminal (hle terminal hterminal).2
      · refine List.Pairwise.imp_of_mem ?_ (List.nodup_range' (s := 1) (n := g.terminalCount))
        intro first second hfirst hsecond hne
        obtain ⟨hpos, hsymbol⟩ := hle first hfirst
        obtain ⟨hpos', hsymbol'⟩ := hle second hsecond
        refine List.disjoint_left.mpr ?_
        intro id hid hid'
        obtain ⟨item, hmem, rfl⟩ := List.mem_map.mp hid
        obtain ⟨item', hmem', heq⟩ := List.mem_map.mp hid'
        -- one position is one item, and an item waits for one symbol
        obtain ⟨id, hitem, -, hnext⟩ :=
          (mem_waitingFor_symbol g c hc _ column h first hpos hsymbol item).mp hmem
        obtain ⟨id', hitem', -, hnext'⟩ :=
          (mem_waitingFor_symbol g c hc _ column h second hpos' hsymbol' item').mp hmem'
        have hid := item_id g c hc id item hitem
        have hid' := item_id g c hc id' item' hitem'
        obtain rfl : id' = id := by rw [← hid, ← hid']; exact heq
        obtain rfl := Option.some.inj (hitem.symm.trans hitem')
        exact hne (Option.some.inj (hnext.symm.trans hnext'))

end Chart

namespace Parser

def quoted? (p : Parser) (id : ItemId) : Option CorrectionCost :=
  p.requests.head?.bind fun request => p.costs.price? p.grammar request id

/-- A token is read where an item of the newest column waits, at the price of that
item. -/
def Read (p : Parser) (price : ItemId → Option CorrectionCost) (token : Token)
    (new : Candidate) : Prop :=
  ∃ id item, p.chart.item? id = some item ∧ id.column = p.chart.current ∧
    ReadsAs p.grammar (fun _ _ _ => price id) token id item new

variable {p : Parser}

theorem read_scans (hg : p.grammar.Numbered) (hc : p.chart.Filed p.grammar)
    (price : ItemId → Option CorrectionCost)
    (token : Token) (new : Candidate) (hnew : new ∈ p.chart.scans p.grammar token) :
    p.Read price token new := by
  obtain ⟨id, item, terminal, hitem, hid, hkind, hnext, rfl⟩ :=
    (p.chart.mem_scans p.grammar hc hg token new).mp hnew
  exact ⟨id, item, hitem, hid, .scan hnext hkind⟩

/-- Corrections are made at the prices of the answer to the question about the token. -/
theorem read_proposals (hc : p.chart.Filed p.grammar) {token : Token}
    (hanswered : p.Answered token) (new : Candidate) (hnew : new ∈ p.proposals token) :
    p.Read (p.asking token).quoted? token new := by
  obtain ⟨⟨w, cost⟩, hpair, hnew⟩ := List.mem_flatMap.mp hnew
  have hprice := p.costs.price?_eq_some p.grammar (p.question token)
    (Chart.nodup_waitingItems hc) hanswered.priced hpair
  obtain ⟨id, item, terminal, hitem, hid, hnext, hterminal, rfl⟩ :=
    (Chart.mem_waitingItems p.grammar p.chart hc w).mp (List.of_mem_zip hpair).1
  obtain ⟨hkind, -⟩ := (WaitingItem.mem_corrections _ _ _ _ new).mp hnew
  refine ⟨id, item, hitem, hid, ?_⟩
  rcases hkind with rfl | ⟨hkind, rfl⟩
  · exact .delete hnext hterminal hprice
  · exact .substitute hnext hterminal hkind hprice

/-- Reading a token changes the counts and the questions only, and finds readings of it at
the prices of the latest answer. -/
theorem readings_read (hg : p.grammar.Numbered) (hc : p.chart.Filed p.grammar) (token : Token) :
    ∃ result requests tally, p.readings token =
        (result, { p with requests := requests, tally := tally }) ∧
      ∀ news, result = .ok (.ok news) →
        ∀ new ∈ news, p.Read (quoted? { p with requests := requests }) token new := by
  have hinterprets := p.readings_interprets token
  generalize p.readings token = outcome at hinterprets
  cases hinterprets with
  | refused | exhausted => exact ⟨_, p.requests, p.tally, rfl, by simp⟩
  | unpriced | overBudget => exact ⟨_, _, p.tally, rfl, by simp⟩
  | scanned =>
      refine ⟨_, p.requests, p.tally, rfl, ?_⟩
      rintro news ⟨⟩
      exact read_scans hg hc _ token
  | scannedAsking =>
      refine ⟨_, _, p.tally, rfl, ?_⟩
      rintro news ⟨⟩
      exact read_scans hg hc _ token
  | corrected hmode hwhen hanswered hproposals =>
      refine ⟨_, _, _, rfl, ?_⟩
      rintro news ⟨⟩ new hnew
      rcases List.mem_append.mp hnew with hscan | hcorrection
      · exact read_scans hg hc _ token new hscan
      · exact read_proposals hc hanswered new hcorrection

/-- Reading a token fails only where the cost provider does not answer as it should. -/
theorem readings_error (token : Token) (e : ParseError) (h : (p.readings token).1 = .error e) :
    ∃ reason, e = .collaborator reason := by
  have hinterprets := p.readings_interprets token
  generalize p.readings token = outcome at hinterprets h
  cases hinterprets with
  | unpriced hmode hwaiting hprices reason => exact ⟨reason, (Except.error.inj h).symm⟩
  | refused | scanned | scannedAsking | exhausted | overBudget | corrected => contradiction

/-- A token is rejected by name. -/
theorem readings_rejection (token : Token) (why : Rejection)
    (h : (p.readings token).1 = .ok (.error why)) : why.token? = some token := by
  have hinterprets := p.readings_interprets token
  generalize p.readings token = outcome at hinterprets h
  cases hinterprets with
  | refused | exhausted | overBudget =>
      obtain rfl := Except.error.inj (Except.ok.inj h)
      rfl
  | scanned | scannedAsking | corrected => simp at h
  | unpriced => contradiction

end Parser
end EarleyChart
