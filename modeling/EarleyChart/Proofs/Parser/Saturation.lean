import EarleyChart.Proofs.Parser.Process

/-!
Saturation of a column. While the column is being closed, an obligation that is
not met yet belongs to an item that is still pending, that is, queued or just
being looked at: a nonterminal that is waited for has its rules in the column,
and a completed item has advanced whatever waits for it. Processing an item
meets its own obligations, so that nothing is owed when the queue is empty.
-/

namespace EarleyChart
namespace Chart

/-- The rules of a symbol marked as predicted are in the newest column. -/
def MarksHold (g : Grammar) (c : Chart) : Prop :=
  ∀ symbol, c.marked? c.current symbol = some true → ∀ rule ∈ g.rulesFor symbol,
    c.Holds c.current ⟨rule, 0, c.current, 0, none⟩

/-- What the newest column waits for is predicted, but for the pending items. -/
def Predicts (g : Grammar) (pending : ItemId → Prop) (c : Chart) : Prop :=
  ∀ id item symbol, c.item? id = some item → id.column = c.current →
    g.next? item.rule item.dot = some symbol → g.isNonterminal symbol = true →
    ¬ pending id → c.marked? c.current symbol = some true

/-- The completed items of the newest column have advanced what waits for them,
but for the pending ones. -/
def Completes (g : Grammar) (ceiling : Nat) (pending : ItemId → Prop) (c : Chart) : Prop :=
  ∀ id last other item, c.item? id = some last → id.column = c.current →
    g.next? last.rule last.dot = none → c.item? other = some item →
    other.column = last.origin → g.next? item.rule item.dot = some (g.lhs last.rule) →
    (advanceOver last item).errorCost ≤ ceiling → ¬ pending id →
    c.Holds c.current (advanceOver last item)

structure Closing (g : Grammar) (ceiling : Nat) (pending : ItemId → Prop) (c : Chart) :
    Prop where
  valid : c.Valid g
  nonempty : 0 < c.columns.size
  marks : c.MarksHold g
  predicts : c.Predicts g pending
  completes : c.Completes g ceiling pending

/-- A column that owes nothing: predictions and completions are all there. -/
structure Saturated (g : Grammar) (ceiling : Nat) (c : Chart) (column : Nat) : Prop where
  predicted : ∀ id item symbol, c.item? id = some item → id.column = column →
    g.next? item.rule item.dot = some symbol → g.isNonterminal symbol = true →
    ∀ rule ∈ g.rulesFor symbol, c.Holds column ⟨rule, 0, column, 0, none⟩
  completed : ∀ id last other item, c.item? id = some last → id.column = column →
    g.next? last.rule last.dot = none → c.item? other = some item →
    other.column = last.origin → g.next? item.rule item.dot = some (g.lhs last.rule) →
    (advanceOver last item).errorCost ≤ ceiling → c.Holds column (advanceOver last item)

/-- Advancing looks at identity, position and cost only. -/
theorem advanceOver_congr {last last' item item' : Item} (hid : last.id = last'.id)
    (hcost : last.errorCost = last'.errorCost) (hid' : item.id = item'.id)
    (hkey : item.key = item'.key) (hcost' : item.errorCost = item'.errorCost) :
    advanceOver last item = advanceOver last' item' := by
  obtain ⟨hrule, hdot, horigin⟩ := Item.key_eq_iff.mp hkey
  simp only [advanceOver, hid, hid', hrule, hdot, horigin, hcost, hcost']

/-- An item of an extended chart whose cost is unchanged, as it was before. -/
theorem Extends.before {g : Grammar} {c c' : Chart} (h : c.Extends g c') (id : ItemId)
    (item item' : Item) (hitem : c.item? id = some item) (hitem' : c'.item? id = some item') :
    item'.rule = item.rule ∧ item'.dot = item.dot ∧ item'.origin = item.origin := by
  obtain ⟨next, hnext, hkey, -⟩ := h.grows.item id item hitem
  obtain rfl := Option.some.inj (hnext.symm.trans hitem')
  exact Item.key_eq_iff.mp hkey

section Extends

variable {g : Grammar} {ceiling : Nat} {c c' : Chart} (h : c.Extends g c') (hc : c.Filed g)
  (hc' : c'.Filed g)

include h hc hc' in
/-- A completion that is not queued finds all it advances as it was before. -/
theorem Extends.advanceOver_before (id other : ItemId) (last' item' : Item)
    (hlast' : c'.item? id = some last') (hid : id.column = c.current)
    (hend : g.next? last'.rule last'.dot = none) (hqueue : id ∉ c'.worklist.toList)
    (hitem' : c'.item? other = some item') (hcolumn : other.column = last'.origin)
    (hnext : g.next? item'.rule item'.dot = some (g.lhs last'.rule)) :
    ∃ last item, c.item? id = some last ∧ g.next? last.rule last.dot = none ∧
      c.item? other = some item ∧ other.column = last.origin ∧
      g.next? item.rule item.dot = some (g.lhs last.rule) ∧
      advanceOver last item = advanceOver last' item' := by
  obtain ⟨item, hitem, hcost⟩ :=
    h.waiting id last' hlast' hid hend hqueue other item' hitem' hcolumn hnext
  obtain ⟨last, hlast, hcost'⟩ := (h.fresh id last' hlast' hid).resolve_left hqueue
  obtain ⟨hrule, hdot, horigin⟩ := h.before id last last' hlast hlast'
  obtain ⟨hrule', hdot', horigin'⟩ := h.before other item item' hitem hitem'
  refine ⟨last, item, hlast, by rw [← hrule, ← hdot, hend], hitem, by rw [hcolumn, horigin],
    by rw [← hrule', ← hdot', hnext, hrule], advanceOver_congr ?_ hcost' ?_ ?_ hcost⟩
  · rw [item_id g c hc id last hlast, item_id g c' hc' id last' hlast']
  · rw [item_id g c hc other item hitem, item_id g c' hc' other item' hitem']
  · exact Item.key_eq_iff.mpr ⟨hrule'.symm, hdot'.symm, horigin'.symm⟩

include h in
theorem Extends.marksHold (hmarks : c.MarksHold g) : c'.MarksHold g := by
  intro symbol hsymbol rule hrule
  rw [h.frame.current] at hsymbol ⊢
  rw [h.frame.marked] at hsymbol
  exact (hmarks symbol hsymbol rule hrule).grows h.grows

include h in
/-- Entering items leaves open what was open, and what the queued items owe. -/
theorem Extends.predicts {pending : ItemId → Prop} (hpredicts : c.Predicts g pending) :
    c'.Predicts g (fun id => pending id ∨ id ∈ c'.worklist.toList) := by
  intro id item' symbol hitem' hid hnext hsymbol hpending
  rw [h.frame.current] at hid ⊢
  rw [h.frame.marked]
  obtain ⟨item, hitem, -⟩ := (h.fresh id item' hitem' hid).resolve_left
    fun hqueue => hpending (.inr hqueue)
  obtain ⟨hrule, hdot, -⟩ := h.before id item item' hitem hitem'
  rw [hrule, hdot] at hnext
  exact hpredicts id item symbol hitem hid hnext hsymbol fun hp => hpending (.inl hp)

include h hc hc' in
theorem Extends.completes {pending : ItemId → Prop}
    (hcompletes : c.Completes g ceiling pending) :
    c'.Completes g ceiling (fun id => pending id ∨ id ∈ c'.worklist.toList) := by
  intro id last' other item' hlast' hid hend hitem' hcolumn hnext hcost hpending
  rw [h.frame.current] at hid ⊢
  obtain ⟨last, item, hlast, hend, hitem, hcolumn, hnext, heq⟩ :=
    h.advanceOver_before hc hc' id other last' item' hlast' hid hend
      (fun hqueue => hpending (.inr hqueue)) hitem' hcolumn hnext
  rw [← heq] at hcost ⊢
  exact (hcompletes id last other item hlast hid hend hitem hcolumn hnext hcost
    fun hp => hpending (.inl hp)).grows h.grows

end Extends

/-- A column without pending items is saturated. -/
theorem Closing.saturated {g : Grammar} {ceiling : Nat} {pending : ItemId → Prop} {c : Chart}
    (h : c.Closing g ceiling pending) (hnone : ∀ id, ¬ pending id) :
    c.Saturated g ceiling c.current where
  predicted id item symbol hitem hid hnext hsymbol :=
    h.marks symbol (h.predicts id item symbol hitem hid hnext hsymbol (hnone id))
  completed id last other item hlast hid hend hitem hcolumn hnext hcost :=
    h.completes id last other item hlast hid hend hitem hcolumn hnext hcost (hnone id)

section process

variable {g : Grammar} (hg : g.Numbered) {ceiling : Nat} {c : Chart} (id : ItemId) (item : Item)
  (h : c.Closing g ceiling fun other => other = id ∨ other ∈ c.worklist.toList)
  (hitem : c.item? id = some item) (hid : id.column = c.current)

include hg h hitem hid in
/-- Completing an item leaves nothing of its own open. -/
theorem closing_complete (hend : g.next? item.rule item.dot = none) :
    (c.insertAll g (c.completions g ceiling item)).Closing g ceiling
      fun other => other ∈ (c.insertAll g (c.completions g ceiling item)).worklist.toList := by
  obtain ⟨hvalid, hextends, hholds⟩ := insertAll_extends g hg _ c h.valid h.nonempty
    (completions_fit hg h.valid ceiling id item hitem hid hend)
  have hcurrent := hextends.frame.current
  refine ⟨hvalid, by rw [hextends.frame.size]; exact h.nonempty, hextends.marksHold h.marks,
    ?_, ?_⟩
  · intro other item' symbol hitem' hcolumn hnext hsymbol hqueue
    refine hextends.predicts h.predicts other item' symbol hitem' hcolumn hnext hsymbol ?_
    rintro ((rfl | hold) | hnew)
    · obtain ⟨hrule, hdot, -⟩ := hextends.before other item item' hitem hitem'
      rw [hrule, hdot, hend] at hnext
      contradiction
    · exact hqueue (hextends.queue other hold)
    · exact hqueue hnew
  · intro last last' other item' hlast' hcolumn hend' hitem' horigin hnext hcost hqueue
    by_cases hsame : last = id
    · subst hsame
      rw [hcurrent]
      obtain ⟨before, waiting, hbefore, -, hwaiting, horigin', hnext', heq⟩ :=
        hextends.advanceOver_before h.valid.filed hvalid.filed last other last' item' hlast'
          hid hend' hqueue hitem' horigin hnext
      obtain rfl := Option.some.inj (hitem.symm.trans hbefore)
      rw [← heq] at hcost ⊢
      refine hholds _ ((mem_completions g c h.valid.filed hg ceiling item
        (h.valid.item last item hitem).dot _).mpr ?_)
      exact ⟨other, waiting, hwaiting, horigin', hnext', rfl, hcost⟩
    · refine hextends.completes h.valid.filed hvalid.filed h.completes last last' other item'
        hlast' hcolumn hend' hitem' horigin hnext hcost ?_
      rintro ((heq | hold) | hnew)
      · exact hsame heq
      · exact hqueue (hextends.queue last hold)
      · exact hqueue hnew

end process

section predict

variable {g : Grammar} (hg : g.Numbered) {ceiling : Nat} {pending : ItemId → Prop} {c : Chart}
  (h : c.Closing g ceiling pending)

theorem predicts_markNewest (symbol : SymbolId) (h : c.Predicts g pending) :
    (c.modifyNewest (·.markPredicted symbol)).Predicts g pending := by
  intro id item other hitem hid hnext hother hpending
  rw [item?_markNewest] at hitem
  rw [(c.current_markNewest symbol).2] at hid ⊢
  have := h id item other hitem hid hnext hother hpending
  rw [marked_markNewest, this]
  split <;> rfl

theorem completes_markNewest (symbol : SymbolId) (h : c.Completes g ceiling pending) :
    (c.modifyNewest (·.markPredicted symbol)).Completes g ceiling pending := by
  intro id last other item hlast hid hend hitem hcolumn hnext hcost hpending
  rw [item?_markNewest] at hlast hitem
  rw [(c.current_markNewest symbol).2] at hid ⊢
  exact (h id last other item hlast hid hend hitem hcolumn hnext hcost hpending).grows
    (c.progresses_markNewest symbol).grows

include hg h in
/-- Once a nonterminal is predicted, it is marked and its rules are there. -/
theorem closing_predict (symbol : Nat) (hsymbol : symbol ≤ g.symbolCount) :
    (c.predict g symbol).Closing g ceiling
        (fun id => pending id ∨ id ∈ (c.predict g symbol).worklist.toList) ∧
      (c.predict g symbol).marked? (c.predict g symbol).current symbol = some true ∧
      ∀ id ∈ c.worklist.toList, id ∈ (c.predict g symbol).worklist.toList := by
  obtain ⟨column, hcolumn⟩ := c.newest_of_size h.nonempty
  have hsome : ∃ mark, c.marked? c.current symbol = some mark := by
    have hlt : symbol < column.predicted.size := by
      rw [(h.valid.filed.column _ _ hcolumn).predicted_size]
      omega
    exact ⟨column.predicted[symbol], by simp [marked?, hcolumn, Column.isPredicted?, hlt]⟩
  obtain ⟨mark, hmark⟩ := hsome
  cases mark with
  | true =>
      have hsame : c.predict g symbol = c := by rw [predict, hmark]
      rw [hsame]
      exact ⟨{ h with
        predicts := fun id item other hitem hid hnext hother hpending =>
          h.predicts id item other hitem hid hnext hother fun hp => hpending (.inl hp)
        completes := fun id last other item hlast hid hend hitem hcol hnext hcost hpending =>
          h.completes id last other item hlast hid hend hitem hcol hnext hcost
            fun hp => hpending (.inl hp) }, hmark, fun _ hid => hid⟩
  | false =>
      obtain ⟨hsize, hcurrent⟩ := c.current_markNewest symbol
      have hvalid := valid_markNewest g c symbol h.valid
      have hgrows := (c.progresses_markNewest symbol).grows
      obtain ⟨hvalid', hextends, hholds⟩ := insertAll_extends g hg (c.predictions g symbol) _
        hvalid (by rw [hsize]; exact h.nonempty) fun new hnew =>
          (predictions_fit hg symbol new hnew).grows hgrows hcurrent
      rw [predict, hmark]
      have hmarked : (c.modifyNewest (·.markPredicted symbol)).marked? c.current symbol =
          some true := by
        rw [marked_markNewest, if_pos ⟨rfl, rfl⟩, hmark]
        rfl
      refine ⟨⟨hvalid', by rw [hextends.frame.size, hsize]; exact h.nonempty, ?_,
        hextends.predicts (predicts_markNewest symbol h.predicts),
        hextends.completes hvalid.filed hvalid'.filed
          (completes_markNewest symbol h.completes)⟩, ?_, hextends.queue⟩
      · intro other hother rule hrule
        rw [hextends.frame.current, hcurrent] at hother ⊢
        rw [hextends.frame.marked, marked_markNewest] at hother
        by_cases hsame : symbol = other
        · subst hsame
          rw [hcurrent] at hholds
          exact hholds _ (List.mem_map.mpr ⟨rule, hrule, rfl⟩)
        · rw [if_neg (fun h => hsame h.2)] at hother
          exact ((h.marks other hother rule hrule).grows hgrows).grows hextends.grows
      · rw [hextends.frame.current, hcurrent, hextends.frame.marked, hmarked]

end predict

/-- Processing the item taken out of the queue leaves open what is queued. -/
theorem closing_process {g : Grammar} (hg : g.Numbered) {ceiling : Nat} {c : Chart}
    (id : ItemId) (item : Item)
    (h : c.Closing g ceiling fun other => other = id ∨ other ∈ c.worklist.toList)
    (hitem : c.item? id = some item) (hid : id.column = c.current) :
    (c.process g ceiling item).Closing g ceiling
      fun other => other ∈ (c.process g ceiling item).worklist.toList := by
  rw [process]
  cases hnext : g.next? item.rule item.dot with
  | none => exact closing_complete hg id item h hitem hid hnext
  | some symbol =>
      simp only
      split
      · next hsymbol =>
          have hle := ((g.isNonterminal_iff symbol).mp hsymbol).2
          obtain ⟨hclosing, hmarked, hqueue⟩ := closing_predict hg h symbol hle
          have hgrows := (predict_valid hg h.valid h.nonempty symbol).2.grows
          obtain ⟨item', hitem', hkey, -⟩ := hgrows.item id item hitem
          obtain ⟨hrule, hdot, -⟩ := Item.key_eq_iff.mp hkey
          refine { hclosing with predicts := ?_, completes := ?_ }
          · intro other next symbol' hother hcolumn hnext' hsymbol' hpending
            by_cases hsame : other = id
            · subst hsame
              obtain rfl := Option.some.inj (hitem'.symm.trans hother)
              rw [hrule, hdot, hnext] at hnext'
              exact Option.some.inj hnext' ▸ hmarked
            · refine hclosing.predicts other next symbol' hother hcolumn hnext' hsymbol' ?_
              rintro ((heq | hold) | hnew)
              · exact hsame heq
              · exact hpending (hqueue other hold)
              · exact hpending hnew
          · intro last last' other next hlast' hcolumn hend hother horigin hnext' hcost hpending
            refine hclosing.completes last last' other next hlast' hcolumn hend hother horigin
              hnext' hcost ?_
            rintro ((rfl | hold) | hnew)
            · obtain rfl := Option.some.inj (hitem'.symm.trans hlast')
              rw [hrule, hdot, hnext] at hend
              contradiction
            · exact hpending (hqueue last hold)
            · exact hpending hnew
      · next hsymbol =>
          refine { h with predicts := ?_, completes := ?_ }
          · intro other item' symbol' hitem' hcolumn hnext' hsymbol' hpending
            refine h.predicts other item' symbol' hitem' hcolumn hnext' hsymbol' ?_
            rintro (rfl | hold)
            · obtain rfl := Option.some.inj (hitem.symm.trans hitem')
              obtain rfl := Option.some.inj (hnext.symm.trans hnext')
              exact hsymbol hsymbol'
            · exact hpending hold
          · intro last last' other item' hlast' hcolumn hend hitem' horigin hnext' hcost hpending
            refine h.completes last last' other item' hlast' hcolumn hend hitem' horigin hnext'
              hcost ?_
            rintro (rfl | hold)
            · obtain rfl := Option.some.inj (hitem.symm.trans hlast')
              rw [hend] at hnext
              contradiction
            · exact hpending hold

/-- A column without items owes nothing. -/
theorem closing_openColumn {g : Grammar} {c : Chart} (ceiling : Nat) (token : Option Token)
    (hc : c.Valid g) (h : c.worklist.toList = []) :
    (c.openColumn g token).Closing g ceiling fun _ => False where
  valid := valid_openColumn token hc h
  nonempty := by rw [(c.current_openColumn g token).1]; exact Nat.succ_pos _
  marks := by
    intro symbol hmarked
    rw [marked?, columns_openColumn, (c.current_openColumn g token).2, if_pos rfl,
      Option.bind_some, Column.isPredicted?, Column.new, Array.getElem?_replicate] at hmarked
    split at hmarked <;> contradiction
  predicts := fun id item _ hitem hid =>
    absurd hid (column_ne_openColumn token id item hitem)
  completes := fun id last _ _ hlast hid =>
    absurd hid (column_ne_openColumn token id last hlast)

/-- A column opened with candidates that may enter it is ready to be closed. -/
theorem closing_opened {g : Grammar} (hg : g.Numbered) {c : Chart} (ceiling : Nat)
    (token : Option Token) (hc : c.Valid g) (hidle : c.worklist.toList = [])
    {news : List Candidate} (hfits : ∀ new ∈ news, (c.openColumn g token).Fits g new) :
    ((c.openColumn g token).insertAll g news).Closing g ceiling fun id =>
      id ∈ ((c.openColumn g token).insertAll g news).worklist.toList := by
  have hopened := closing_openColumn ceiling token hc hidle
  obtain ⟨hvalid, hextends, -⟩ := insertAll_extends g hg news _ hopened.valid
    hopened.nonempty hfits
  refine ⟨hvalid, ?_, hextends.marksHold hopened.marks, ?_, ?_⟩
  · rw [hextends.frame.size]
    exact hopened.nonempty
  · simpa using hextends.predicts hopened.predicts
  · simpa using hextends.completes hopened.valid.filed hvalid.filed hopened.completes

end Chart
end EarleyChart
