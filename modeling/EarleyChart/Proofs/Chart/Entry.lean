import EarleyChart.Proofs.Chart.Filing

/-!
Entering an item whose identity is new to a column. Each table of the column is
looked at in turn: it says of the items that were there what it said before, and
of the new one what it should.
-/

namespace EarleyChart
namespace Column

def filing (c : Column) (g : Grammar) (slot : Slot) (new : Candidate) : Column :=
  match g.next? new.rule new.dot with
  | none => (c.enter slot new.key).fileEnd g (g.lhs new.rule) new.origin c.size
  | some symbol => (c.enter slot new.key).fileWaiting symbol c.size

theorem add_eq (c : Column) (g : Grammar) (arena : Arena) (w : Worklist) (new : Candidate) :
    c.add g arena w new =
      (c.filing g arena.allocate.1 new,
        arena.allocate.2.modify arena.allocate.1 fun _ => new.toItem ⟨c.index, c.size⟩,
        (g.next? new.rule new.dot).elim (w.push ⟨c.index, c.size⟩)
          fun symbol => c.requeue g symbol (w.push ⟨c.index, c.size⟩)) := by
  obtain ⟨index, token, slots, bySymbol, predicted, emptyEnds, keys, completed⟩ := c
  cases h : g.next? new.rule new.dot <;> simp only [add, filing, h] <;> rfl

theorem filing_fields (c : Column) (g : Grammar) (slot : Slot) (new : Candidate) :
    (c.filing g slot new).index = c.index ∧ (c.filing g slot new).token = c.token ∧
      (c.filing g slot new).slots = c.slots.push slot ∧
      (c.filing g slot new).predicted = c.predicted ∧
      (c.filing g slot new).keys = c.keys.insert new.key c.size ∧
      (c.filing g slot new).bySymbol =
        c.bySymbol.modify ((g.next? new.rule new.dot).getD 0) (·.push c.size) := by
  obtain ⟨index, token, slots, bySymbol, predicted, emptyEnds, keys, completed⟩ := c
  cases h : g.next? new.rule new.dot <;> simp only [filing, h] <;>
    exact ⟨rfl, rfl, rfl, rfl, rfl, rfl⟩

theorem filing_emptyEnds (c : Column) (g : Grammar) (slot : Slot) (new : Candidate) :
    (c.filing g slot new).emptyEnds =
      if (g.next? new.rule new.dot).isNone ∧ new.origin = c.index then
        c.emptyEnds.modify (g.nonterminalIndex (g.lhs new.rule)) (·.push c.size)
      else c.emptyEnds := by
  obtain ⟨index, token, slots, bySymbol, predicted, emptyEnds, keys, completed⟩ := c
  cases h : g.next? new.rule new.dot with
  | none =>
      by_cases ho : new.origin = index <;>
        simp [filing, h, ho, fileEnd, fileWaiting, enter, size]
  | some symbol => simp [filing, h, fileWaiting, enter, size]

theorem filing_completed (c : Column) (g : Grammar) (slot : Slot) (new : Candidate) :
    (c.filing g slot new).completed =
      (c.completed || ((g.next? new.rule new.dot).isNone && g.lhs new.rule == g.start &&
        new.origin == 0)) := by
  obtain ⟨index, token, slots, bySymbol, predicted, emptyEnds, keys, completed⟩ := c
  cases h : g.next? new.rule new.dot <;> simp [filing, h, fileEnd, fileWaiting, enter, size]

/-- A list of numbers below a bound is extended by the bound or not at all. -/
theorem filter_range_succ (n : Nat) (p q : Nat → Bool) (h : ∀ k < n, q k = p k) :
    (List.range (n + 1)).filter q =
      (List.range n).filter p ++ if q n = true then [n] else [] := by
  rw [List.range_succ, List.filter_append]
  congr 1
  · exact List.filter_congr fun k hk => h k (List.mem_range.mp hk)
  · simp [List.filter_singleton]

theorem filing_size (c : Column) (g : Grammar) (slot : Slot) (new : Candidate) :
    (c.filing g slot new).size = c.size + 1 := by
  obtain ⟨-, -, hslots, -⟩ := filing_fields c g slot new
  rw [size, hslots, Array.size_push, size]

section filing

variable {g : Grammar} {arena arena' : Arena} {i : Nat} {c : Column} {slot : Slot}
  {new : Candidate} (hc : c.Filed g arena i)
  (hold : ∀ seq < c.size, (c.filing g slot new).get? arena' seq = c.get? arena seq)
  (hnew : (c.filing g slot new).get? arena' c.size = some (new.toItem ⟨i, c.size⟩))

include hold hnew in
/-- The items are those from before and the new one. -/
theorem filing_get?_iff (seq : Nat) (item : Item) :
    (c.filing g slot new).get? arena' seq = some item ↔
      c.get? arena seq = some item ∨ seq = c.size ∧ item = new.toItem ⟨i, c.size⟩ := by
  have hnone : ∀ seq, c.size ≤ seq → c.get? arena seq = none := fun seq hseq => by
    simp [get?, Array.getElem?_eq_none hseq]
  rcases Nat.lt_trichotomy seq c.size with hlt | rfl | hgt
  · simp [hold seq hlt, Nat.ne_of_lt hlt]
  · simp [hnew, hnone c.size (Nat.le_refl _), eq_comm]
  · have hbeyond : (c.filing g slot new).slots.size ≤ seq := by
      have := filing_size c g slot new
      rw [size] at this
      omega
    have : (c.filing g slot new).get? arena' seq = none := by
      simp [get?, Array.getElem?_eq_none hbeyond]
    simp [this, hnone seq (by omega), Nat.ne_of_gt hgt]

include hold hnew in
/-- A list of the items with a property gains the new one if it has it. -/
theorem filing_filter (p : Item → Bool) :
    ((List.range (c.filing g slot new).size).filter fun seq =>
        ((c.filing g slot new).get? arena' seq).any p) =
      ((List.range c.size).filter fun seq => (c.get? arena seq).any p) ++
        if p (new.toItem ⟨i, c.size⟩) = true then [c.size] else [] := by
  have hlist := filter_range_succ c.size (fun seq => (c.get? arena seq).any p)
    (fun seq => ((c.filing g slot new).get? arena' seq).any p)
    (fun seq hseq => by rw [hold seq hseq])
  rw [filing_size, hlist, hnew, Option.any_some]

include hc hold hnew in
theorem filing_found (habsent : ∀ seq item, c.get? arena seq = some item → item.key ≠ new.key)
    (key : ItemKey) (seq : Nat) : (c.filing g slot new).find? key = some seq ↔
      ∃ item, (c.filing g slot new).get? arena' seq = some item ∧ item.key = key := by
  obtain ⟨-, -, -, -, hkeys, -⟩ := filing_fields c g slot new
  simp only [filing_get?_iff hold hnew, or_and_right, exists_or, ← hc.found]
  rw [find?, hkeys, Std.TreeMap.getElem?_insert]
  split
  · next hsame =>
      obtain rfl : new.key = key := by simpa using hsame
      have hnone : ¬ ∃ item, c.get? arena seq = some item ∧ item.key = new.key := by
        rintro ⟨item, hitem, hkey⟩
        exact habsent seq item hitem hkey
      rw [hc.found, or_iff_right hnone]
      constructor
      · intro hseq
        exact ⟨_, ⟨(Option.some.inj hseq).symm, rfl⟩, rfl⟩
      · rintro ⟨item, ⟨rfl, rfl⟩, -⟩
        rfl
  · next hother =>
      rw [find?, or_iff_left]
      rintro ⟨item, ⟨-, rfl⟩, hkey⟩
      exact hother (Std.compare_eq_iff_eq.mpr hkey)

include hc hold hnew in
theorem filing_waiting {symbol : SymbolId} (hsymbol : symbol ≤ g.symbolCount) :
    ((c.filing g slot new).waitingOn symbol).toList =
      (List.range (c.filing g slot new).size).filter fun seq =>
        ((c.filing g slot new).get? arena' seq).any fun item => item.awaited g == symbol := by
  obtain ⟨-, -, -, -, -, hbySymbol⟩ := filing_fields c g slot new
  have hsome : c.bySymbol[symbol]? = some (c.waitingOn symbol) := by
    have hlt : symbol < c.bySymbol.size := hc.bySymbol_size ▸ Nat.lt_succ_of_le hsymbol
    rw [waitingOn, Array.getElem?_eq_getElem hlt]
    rfl
  rw [filing_filter hold hnew, ← hc.waiting symbol hsymbol]
  simp only [waitingOn, hbySymbol, Array.getElem?_modify, beq_iff_eq]
  by_cases hs : (g.next? new.rule new.dot).getD 0 = symbol
  · simp [hs, hsome, Item.awaited, Candidate.toItem]
  · simp [hs, hsome, Item.awaited, Candidate.toItem]

include hc hold hnew in
theorem filing_emptyEndsOf (hg : g.Numbered) (hdot : g.HasDot new.rule new.dot)
    {symbol : SymbolId} (hsymbol : g.isNonterminal symbol = true) :
    ((c.filing g slot new).emptyEndsOf g symbol).toList =
      (List.range (c.filing g slot new).size).filter fun seq =>
        ((c.filing g slot new).get? arena' seq).any (·.ends g symbol i) := by
  have hlt : g.nonterminalIndex symbol < c.emptyEnds.size := by
    rw [hc.emptyEnds_size]
    exact g.nonterminalIndex_lt symbol hsymbol
  have hsome : c.emptyEnds[g.nonterminalIndex symbol]? = some (c.emptyEndsOf g symbol) := by
    rw [emptyEndsOf, if_pos hsymbol, Array.getElem?_eq_getElem hlt]
    rfl
  have hinj := g.nonterminalIndex_inj _ symbol (g.lhs_nonterminal hg _ _ hdot) hsymbol
  rw [filing_filter hold hnew, ← hc.emptyEnds symbol hsymbol, emptyEndsOf, if_pos hsymbol,
    filing_emptyEnds]
  by_cases hend : (g.next? new.rule new.dot).isNone ∧ new.origin = c.index
  · rw [if_pos hend, Array.getElem?_modify]
    simp only [hinj]
    by_cases hs : g.lhs new.rule = symbol
    · simp [hs, hsome, Item.ends, Candidate.toItem, hend.1, hend.2, hc.index]
    · simp [hs, hsome, Item.ends, Candidate.toItem]
  · rw [if_neg hend, hsome]
    have hnot : (new.toItem ⟨i, c.size⟩).ends g symbol i = false := by
      rw [hc.index] at hend
      simp only [Item.ends, Candidate.toItem]
      by_contra htrue
      simp only [Bool.not_eq_false, Bool.and_eq_true, beq_iff_eq] at htrue
      exact hend ⟨htrue.1.1, htrue.2⟩
    simp [hnot]

include hc hold hnew in
theorem filing_completed_iff : (c.filing g slot new).completed = true ↔
    ∃ seq item, (c.filing g slot new).get? arena' seq = some item ∧
      item.ends g g.start 0 = true := by
  rw [filing_completed]
  simp only [Bool.or_eq_true, hc.completed, filing_get?_iff hold hnew, or_and_right, exists_or]
  refine or_congr Iff.rfl ⟨fun h => ?_, ?_⟩
  · exact ⟨_, _, ⟨rfl, rfl⟩, by simpa [Item.ends, Candidate.toItem] using h⟩
  · rintro ⟨_, _, ⟨rfl, rfl⟩, h⟩
    simpa [Item.ends, Candidate.toItem] using h

include hc hold hnew in
/-- Entering an item whose identity is new keeps the tables in step with the
items. The slot is one that the column did not use. -/
theorem filed_filing (hg : g.Numbered)
    (habsent : ∀ seq item, c.get? arena seq = some item → item.key ≠ new.key)
    (hdot : g.HasDot new.rule new.dot) : (c.filing g slot new).Filed g arena' i := by
  obtain ⟨hindex, -, -, hpredicted, -, hbySymbol⟩ := filing_fields c g slot new
  constructor
  case index => rw [hindex, hc.index]
  case position =>
    intro seq item hitem
    rcases (filing_get?_iff hold hnew seq item).mp hitem with hitem | ⟨rfl, rfl⟩
    · exact hc.position seq item hitem
    · rfl
  case found => exact filing_found hc hold hnew habsent
  case bySymbol_size => rw [hbySymbol, Array.size_modify, hc.bySymbol_size]
  case waiting => exact fun symbol hsymbol => filing_waiting hc hold hnew hsymbol
  case predicted_size => rw [hpredicted, hc.predicted_size]
  case emptyEnds_size =>
    rw [filing_emptyEnds]
    split
    · rw [Array.size_modify, hc.emptyEnds_size]
    · exact hc.emptyEnds_size
  case emptyEnds => exact fun symbol hsymbol => filing_emptyEndsOf hc hold hnew hg hdot hsymbol
  case completed => exact filing_completed_iff hc hold hnew

end filing

end Column
end EarleyChart
