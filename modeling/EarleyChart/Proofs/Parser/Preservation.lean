import EarleyChart.Proofs.Parser.Closing

/-!
What the closure of a column keeps. A property of charts is told together with
what it asks of a candidate. It has to survive the entry of an entitled candidate,
and it has to entitle the candidates that an item of the newest column leads to.
Then it survives the whole closure, whatever is queued.
-/

namespace EarleyChart
namespace Chart

structure Admits (g : Grammar) (inv : Chart → Prop) (may : Chart → Candidate → Prop) :
    Prop where
  enter : ∀ {c c' : Chart} {new : Candidate}, c.Valid g → c.Fits g new →
    c.Entered g new c' → c.Progresses c' → inv c → may c new → inv c'
  later : ∀ {c c' : Chart} {new : Candidate}, c.Valid g → c.Fits g new →
    c.Progresses c' → may c new → may c' new

/-- A property of charts that every step of the closure preserves. -/
structure Preserved (g : Grammar) (ceiling : Nat) (inv : Chart → Prop)
    (may : Chart → Candidate → Prop) : Prop extends Admits g inv may where
  same : ∀ {c c' : Chart}, c.Progresses c' → (∀ id, c'.item? id = c.item? id) → inv c → inv c'
  predict : ∀ {c : Chart} {id : ItemId} {item : Item} {symbol rule : Nat}, c.Valid g → inv c →
    c.item? id = some item → id.column = c.current →
    g.next? item.rule item.dot = some symbol → rule ∈ g.rulesFor symbol →
    may c ⟨rule, 0, c.current, 0, none⟩
  complete : ∀ {c : Chart} {id other : ItemId} {last item : Item}, c.Valid g → inv c →
    c.item? id = some last → id.column = c.current → g.next? last.rule last.dot = none →
    c.item? other = some item → other.column = last.origin →
    g.next? item.rule item.dot = some (g.lhs last.rule) →
    (advanceOver last item).errorCost ≤ ceiling → may c (advanceOver last item)

variable {g : Grammar} (hg : g.Numbered) {ceiling : Nat} {inv : Chart → Prop}
  {may : Chart → Candidate → Prop} {c : Chart}

include hg in
theorem Admits.insertAll (h : Admits g inv may) (news : List Candidate) (hc : c.Valid g)
    (hne : 0 < c.columns.size) (hfits : ∀ new ∈ news, c.Fits g new) (hinv : inv c)
    (hmay : ∀ new ∈ news, may c new) : inv (c.insertAll g news) := by
  induction news generalizing c with
  | nil => exact hinv
  | cons new news ih =>
      have hnew := hfits new (by simp)
      obtain ⟨hentered, hfiled, hframe⟩ := c.insert_entered g hg hc.filed hne new hnew.dot
      have hvalid := hentered.valid hc hnew hframe hfiled
      have hprogress := (hentered.extends hg hc hframe).progresses
      have hinv' := h.enter hc hnew hentered hprogress hinv (hmay new (by simp))
      apply ih hvalid (by rwa [hframe.size]) _ hinv'
      · intro other hother
        exact h.later hc (hfits other (by simp [hother])) hprogress (hmay other (by simp [hother]))
      · intro other hother
        exact (hfits other (by simp [hother])).grows hprogress.grows hframe.current

namespace Preserved

variable (h : Preserved g ceiling inv may)

include hg h in
theorem predicted (hc : c.Valid g) (hne : 0 < c.columns.size) (symbol : SymbolId)
    (hinv : inv c)
    (hmay : ∀ rule ∈ g.rulesFor symbol, may c ⟨rule, 0, c.current, 0, none⟩) :
    inv (c.predict g symbol) := by
  rw [Chart.predict]
  split
  · have hmark := c.progresses_markNewest symbol
    obtain ⟨hsize, hcurrent⟩ := c.current_markNewest symbol
    have hfits := predictions_fit hg (c := c) symbol
    apply h.insertAll hg _ (valid_markNewest g c symbol hc) (by rwa [hsize])
    · intro new hnew
      exact (hfits new hnew).grows hmark.grows hcurrent
    · exact h.same hmark (c.item?_markNewest symbol) hinv
    · intro new hnew
      have hfit := hfits new hnew
      obtain ⟨rule, hrule, rfl⟩ := List.mem_map.mp hnew
      exact h.later hc hfit hmark (hmay rule hrule)
  · exact hinv

include hg h in
theorem process (hc : c.Valid g) (hne : 0 < c.columns.size) (id : ItemId) (item : Item)
    (hitem : c.item? id = some item) (hid : id.column = c.current) (hinv : inv c) :
    inv (c.process g ceiling item) := by
  rw [Chart.process]
  cases hnext : g.next? item.rule item.dot with
  | none =>
      apply h.insertAll hg _ hc hne (completions_fit hg hc ceiling id item hitem hid hnext) hinv
      intro new hnew
      obtain ⟨other, waiting, hwaiting, hcolumn, hawaits, rfl, hcost⟩ :=
        (mem_completions g c hc.filed hg ceiling item (hc.item id item hitem).dot new).mp hnew
      exact h.complete hc hinv hitem hid hnext hwaiting hcolumn hawaits hcost
  | some symbol =>
      simp only
      split
      · apply h.predicted hg hc hne symbol hinv
        intro rule hrule
        exact h.predict hc hinv hitem hid hnext hrule
      · exact hinv

include hg h in
/-- The items that are still queued play no part: whatever is processed next keeps
the property. -/
theorem takesAll {c' : Chart} (hall : TakesAll g ceiling c c') (hc : c.Closable g)
    (hinv : inv c) : inv c' := by
  induction hall with
  | refl => exact hinv
  | @tail mid last hmid hstep ih =>
      obtain ⟨hclosable, -⟩ := TakesAll.closable hg hmid hc
      cases hstep with
      | intro id item hpop hitem =>
          apply h.process hg (popped_valid hclosable.valid id hpop) hclosable.nonempty id item
            hitem (popped_item hclosable.valid.filed id hpop).1
          exact h.same mid.progresses_popped (fun _ => rfl) ih

end Preserved

end Chart
end EarleyChart
