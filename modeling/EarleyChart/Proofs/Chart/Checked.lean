import EarleyChart.Proofs.Chart.Extension
import EarleyChart.Proofs.Chart.Ownership

/-!
The chart with its lookups checked. Rules, symbols, slots and columns are found in tables
by their numbers. Here a lookup beyond the end of a table gives nothing at all, as does a
slot that is given back twice. Where the tables of a chart agree with its items no lookup
fails, and the results are the ones without the checks.
-/

namespace EarleyChart

namespace Grammar

def checkedNext (g : Grammar) (rule : RuleId) (dot : Nat) : Option (Option SymbolId) :=
  (g.rules[rule]?).map (·.rhs[dot]?)

def checkedLhs (g : Grammar) (rule : RuleId) : Option SymbolId := (g.rules[rule]?).map (·.lhs)

def checkedIndex (g : Grammar) (symbol : SymbolId) : Option Nat :=
  if g.isNonterminal symbol then some (g.nonterminalIndex symbol) else none

def checkedRulesFor (g : Grammar) (symbol : SymbolId) : Option (List RuleId) :=
  if g.isNonterminal symbol then (g.checkedIndex symbol).bind (g.productions[·]?) else some []

variable {g : Grammar} {rule : RuleId} {dot : Nat} {symbol : SymbolId}

theorem checkedNext_eq (h : g.HasDot rule dot) :
    g.checkedNext rule dot = some (g.next? rule dot) := by
  obtain ⟨r, hr, -⟩ := h
  rw [rule?] at hr
  rw [checkedNext, next?, rule?, hr]
  rfl

theorem checkedLhs_eq (h : g.HasDot rule dot) : g.checkedLhs rule = some (g.lhs rule) := by
  obtain ⟨r, hr, -⟩ := h
  rw [rule?] at hr
  rw [checkedLhs, lhs, rule?, hr]
  rfl

theorem checkedIndex_eq (h : g.isNonterminal symbol = true) :
    g.checkedIndex symbol = some (g.nonterminalIndex symbol) := if_pos h

/-- The table of the rules has an entry for every nonterminal. -/
theorem checkedRulesFor_eq (hg : g.Numbered) (h : g.isNonterminal symbol = true) :
    g.checkedRulesFor symbol = some (g.rulesFor symbol) := by
  rw [checkedRulesFor, rulesFor, if_pos h, if_pos h, checkedIndex_eq h, Option.bind_some,
    hg.productions, productionsOf_getElem? _ h, Option.getD_some]

end Grammar

namespace Arena

/-- Hands out a slot; one that was given back must be in the table of the slots. -/
def checkedAllocate (a : Arena) : Option (Slot × Arena) :=
  match a.free with
  | [] => some a.allocate
  | slot :: _ => (a.inUse[slot.index]?).map fun _ => a.allocate

def checkedModify (a : Arena) (slot : Slot) (f : Item → Item) : Option Arena :=
  (a.items[slot.index]?).map fun _ => a.modify slot f

def checkedRelease (a : Arena) (slot : Slot) : Option Arena :=
  match a.inUse[slot.index]?, a.items[slot.index]? with
  | some true, some _ => some (a.release slot)
  | _, _ => none

variable {a : Arena} {slot : Slot}

theorem checkedAllocate_eq (h : a.free = []) : a.checkedAllocate = some a.allocate := by
  rw [checkedAllocate, h]

theorem checkedModify_eq (h : slot.index < a.items.size) (f : Item → Item) :
    a.checkedModify slot f = some (a.modify slot f) := by
  rw [checkedModify, Array.getElem?_eq_getElem h]
  rfl

/-- A slot just handed out is in the table. -/
theorem allocate_lt (h : a.free = []) : a.allocate.1.index < a.allocate.2.items.size := by
  obtain ⟨items, inUse, free, live, peak, capacity⟩ := a
  subst h
  simp [allocate]

theorem checkedRelease_eq (hinUse : a.inUse[slot.index]? = some true)
    (hitems : slot.index < a.items.size) : a.checkedRelease slot = some (a.release slot) := by
  rw [checkedRelease, hinUse, Array.getElem?_eq_getElem hitems]

theorem release_size (a : Arena) (slot : Slot) :
    (a.release slot).items.size = a.items.size := by
  rw [release]
  split
  · exact Array.size_setIfInBounds
  · rfl

/-- Slots that are handed out are taken back one after another without a failure. -/
theorem foldlM_checkedRelease (slots : List Slot) (hnodup : slots.Nodup)
    (hinUse : ∀ slot ∈ slots, a.inUse[slot.index]? = some true)
    (hitems : ∀ slot ∈ slots, slot.index < a.items.size) :
    slots.foldlM checkedRelease a = some (slots.foldl release a) := by
  induction slots generalizing a with
  | nil => rfl
  | cons slot slots ih =>
      obtain ⟨hfresh, hrest⟩ := List.nodup_cons.mp hnodup
      have hslot := checkedRelease_eq (hinUse slot List.mem_cons_self)
        (hitems slot List.mem_cons_self)
      rw [List.foldlM_cons, hslot, List.foldl_cons]
      refine ih hrest ?_ ?_
      · intro other hother
        rw [release_inUse a slot other fun heq => hfresh (heq ▸ hother)]
        exact hinUse other (List.mem_cons_of_mem slot hother)
      · intro other hother
        rw [release_size]
        exact hitems other (List.mem_cons_of_mem slot hother)

end Arena

namespace Column

def checkedGet (c : Column) (arena : Arena) (seq : Nat) : Option (Option Item) :=
  match c.slots[seq]? with
  | none => some none
  | some slot => (arena.items[slot.index]?).map some

def checkedRequeue (c : Column) (g : Grammar) (symbol : SymbolId) (worklist : Worklist) :
    Option Worklist :=
  if g.isNonterminal symbol then do
    let ends ← c.emptyEnds[← g.checkedIndex symbol]?
    return ends.foldl (fun w seq => w.pushUnique ⟨c.index, seq⟩) worklist
  else some worklist

def checkedFileWaiting (c : Column) (symbol : SymbolId) (seq : Nat) : Option Column :=
  (c.bySymbol[symbol]?).map fun _ => c.fileWaiting symbol seq

def checkedFileEnd (c : Column) (g : Grammar) (lhs : SymbolId) (origin seq : Nat) :
    Option Column := do
  let _ ← c.checkedFileWaiting 0 seq
  if origin = c.index then
    let _ ← c.emptyEnds[← g.checkedIndex lhs]?
  return c.fileEnd g lhs origin seq

def checkedAdd (c : Column) (g : Grammar) (arena : Arena) (worklist : Worklist)
    (new : Candidate) : Option (Column × Arena × Worklist) := do
  let id : ItemId := ⟨c.index, c.size⟩
  let (slot, arena) ← arena.checkedAllocate
  let arena ← arena.checkedModify slot fun _ => new.toItem id
  let c := c.enter slot new.key
  let worklist := worklist.push id
  match ← g.checkedNext new.rule new.dot with
  | none =>
      let c ← c.checkedFileEnd g (← g.checkedLhs new.rule) new.origin id.seq
      return (c, arena, worklist)
  | some symbol =>
      let c ← c.checkedFileWaiting symbol id.seq
      let worklist ← c.checkedRequeue g symbol worklist
      return (c, arena, worklist)

def checkedTeardown (c : Column) (arena : Arena) : Option Arena :=
  c.slots.toList.foldlM Arena.checkedRelease arena

variable {g : Grammar} {c : Column} {symbol : SymbolId}

theorem checkedRequeue_eq (hsize : c.emptyEnds.size = g.nonterminalCount) (worklist : Worklist) :
    c.checkedRequeue g symbol worklist = some (c.requeue g symbol worklist) := by
  rw [checkedRequeue, requeue, emptyEndsOf]
  split
  · next hsymbol =>
      have hindex := g.nonterminalIndex_lt symbol hsymbol
      rw [← hsize] at hindex
      rw [Grammar.checkedIndex_eq hsymbol]
      simp only [Option.bind_eq_bind, Option.bind_some, Array.getElem?_eq_getElem hindex,
        Option.getD_some, Option.pure_def]
  · simp

theorem checkedFileWaiting_eq (h : symbol < c.bySymbol.size) (seq : Nat) :
    c.checkedFileWaiting symbol seq = some (c.fileWaiting symbol seq) := by
  rw [checkedFileWaiting, Array.getElem?_eq_getElem h]
  rfl

theorem checkedFileEnd_eq (hsymbols : 0 < c.bySymbol.size)
    (hsize : c.emptyEnds.size = g.nonterminalCount) (hlhs : g.isNonterminal symbol = true)
    (origin seq : Nat) :
    c.checkedFileEnd g symbol origin seq = some (c.fileEnd g symbol origin seq) := by
  have hindex := g.nonterminalIndex_lt symbol hlhs
  rw [← hsize] at hindex
  rw [checkedFileEnd, checkedFileWaiting_eq hsymbols, Grammar.checkedIndex_eq hlhs]
  simp only [Option.bind_eq_bind, Option.bind_some, Array.getElem?_eq_getElem hindex,
    Option.pure_def, ite_self]

/-- A new item finds its rule, its slot and the lists it is filed in. -/
theorem checkedAdd_eq (hg : g.Numbered) (hsymbols : c.bySymbol.size = g.symbolCount + 1)
    (hsize : c.emptyEnds.size = g.nonterminalCount) {arena : Arena} (hfree : arena.free = [])
    (worklist : Worklist) {new : Candidate} (hdot : g.HasDot new.rule new.dot) :
    c.checkedAdd g arena worklist new = some (c.add g arena worklist new) := by
  have hmodify := Arena.checkedModify_eq (Arena.allocate_lt hfree)
    fun _ => new.toItem ⟨c.index, c.size⟩
  rw [checkedAdd, add, Arena.checkedAllocate_eq hfree, Grammar.checkedNext_eq hdot]
  simp only [Option.bind_eq_bind, Option.bind_some, hmodify]
  cases hnext : g.next? new.rule new.dot with
  | none =>
      have hend := checkedFileEnd_eq (c := c.enter arena.allocate.1 new.key)
        (by rw [enter, hsymbols]; exact Nat.succ_pos _) hsize
        (g.lhs_nonterminal hg new.rule new.dot hdot) new.origin c.size
      simp only [Grammar.checkedLhs_eq hdot, Option.bind_some, hend]
      rfl
  | some symbol =>
      have hsymbol : symbol < (c.enter arena.allocate.1 new.key).bySymbol.size := by
        rw [enter, hsymbols]
        exact Nat.lt_succ_of_le (g.next?_range hg _ _ _ hnext).2
      have hwaiting := checkedFileWaiting_eq hsymbol c.size
      have hrequeue := @checkedRequeue_eq g
        ((c.enter arena.allocate.1 new.key).fileWaiting symbol c.size) symbol hsize
        (worklist.push ⟨c.index, c.size⟩)
      simp only [hwaiting, Option.bind_some, hrequeue]
      rfl

theorem checkedGet_eq {arena : Arena} (h : ∀ (seq : Nat) (slot : Slot),
    c.slots[seq]? = some slot → slot.index < arena.items.size) (seq : Nat) :
    c.checkedGet arena seq = some (c.get? arena seq) := by
  rw [checkedGet, get?]
  cases hslot : c.slots[seq]? with
  | none => rfl
  | some slot =>
      rw [Option.bind_some, Arena.get?]
      simp only [Array.getElem?_eq_getElem (h seq slot hslot), Option.map_some]

theorem foldlM_checkedTeardown (columns : List Column) (arena : Arena) :
    columns.foldlM (fun arena column => column.checkedTeardown arena) arena =
      (columns.flatMap (·.slots.toList)).foldlM Arena.checkedRelease arena := by
  induction columns generalizing arena with
  | nil => rfl
  | cons column columns ih =>
      rw [List.foldlM_cons, List.flatMap_cons, List.foldlM_append, checkedTeardown]
      simp only [ih]

end Column

namespace Chart

def checkedItem (c : Chart) (id : ItemId) : Option (Option Item) :=
  match c.columns[id.column]? with
  | none => some none
  | some column => column.checkedGet c.arena id.seq

def checkedInsert (c : Chart) (g : Grammar) (new : Candidate) : Option (Chart × Insertion) := do
  let column ← c.columns[c.current]?
  match column.find? new.key with
  | none =>
      let (column, arena, worklist) ← column.checkedAdd g c.arena c.worklist new
      return (⟨c.columns.pop.push column, arena, worklist⟩, .created)
  | some seq =>
      match column.slots[seq]? with
      | none => return (c, .merged false false)
      | some slot =>
          let item ← c.arena.items[slot.index]?
          let arena ← c.arena.checkedModify slot (mergeInto new)
          if new.errorCost < item.errorCost then
            let worklist := c.worklist.pushUnique ⟨column.index, seq⟩
            let worklist ← match ← g.checkedNext new.rule new.dot with
              | none => some worklist
              | some symbol => column.checkedRequeue g symbol worklist
            return (⟨c.columns, arena, worklist⟩, mergeOutcome new item)
          else return (⟨c.columns, arena, c.worklist⟩, mergeOutcome new item)

def checkedWaitingFor (c : Chart) (column : Column) (symbol : SymbolId) : Option (List Item) :=
  ((column.waitingOn symbol).toList.mapM (column.checkedGet c.arena)).map (·.filterMap id)

def checkedPredictions (c : Chart) (g : Grammar) (symbol : SymbolId) : Option (List Candidate) :=
  (g.checkedRulesFor symbol).map (·.map fun rule => ⟨rule, 0, c.current, 0, none⟩)

def checkedCompletions (c : Chart) (g : Grammar) (ceiling : Nat) (completed : Item) :
    Option (List Candidate) := do
  let lhs ← g.checkedLhs completed.rule
  let origin ← c.columns[completed.origin]?
  let waiting ← c.checkedWaitingFor origin lhs
  return (waiting.map (advanceOver completed)).filter (·.errorCost ≤ ceiling)

def checkedScans (c : Chart) (g : Grammar) (token : Token) : Option (List Candidate) :=
  match g.terminalForKind? token.kind, c.newest? with
  | some terminal, some column => (c.checkedWaitingFor column terminal).map (·.map scanOver)
  | _, _ => some []

def checkedWaitingItems (c : Chart) (g : Grammar) : Option (List WaitingItem) :=
  match c.newest? with
  | none => some []
  | some column => do
      let waiting ← g.terminalIds.mapM fun terminal =>
        (c.checkedWaitingFor column terminal).map (·.map fun item =>
          ⟨item.id, item.rule, item.dot, item.origin, terminal, item.errorCost⟩)
      return waiting.flatten.mergeSort fun a b => a.id.le b.id

def checkedClear (c : Chart) : Option Chart := do
  let arena ← c.columns.toList.reverse.foldlM
    (fun arena column => column.checkedTeardown arena) c.arena
  if arena.live = 0 then some (empty arena.reset) else none

section filed

variable {g : Grammar} {c : Chart} (hc : c.Filed g)

include hc in
theorem checkedItem_eq (id : ItemId) : c.checkedItem id = some (c.item? id) := by
  rw [checkedItem, item?]
  cases hcolumn : c.columns[id.column]? with
  | none => rfl
  | some column => exact Column.checkedGet_eq (hc.slot_lt _ column hcolumn) id.seq

include hc in
theorem checkedWaitingFor_eq {i : Nat} {column : Column} (h : c.columns[i]? = some column)
    (symbol : SymbolId) :
    c.checkedWaitingFor column symbol = some (c.waitingFor column symbol) := by
  have hget : column.checkedGet c.arena = fun seq => pure (column.get? c.arena seq) :=
    funext (Column.checkedGet_eq (hc.slot_lt i column h))
  rw [checkedWaitingFor, hget, List.mapM_pure, waitingFor, Option.pure_def, Option.map_some,
    List.filterMap_map]
  rfl

include hc in
theorem checkedScans_eq (token : Token) : c.checkedScans g token = some (c.scans g token) := by
  rw [checkedScans, scans]
  cases g.terminalForKind? token.kind with
  | none => rfl
  | some terminal =>
      cases hcolumn : c.newest? with
      | none => rfl
      | some column =>
          rw [newest?, Array.back?_eq_getElem?] at hcolumn
          simp only [checkedWaitingFor_eq hc hcolumn, Option.map_some]

include hc in
theorem checkedWaitingItems_eq : c.checkedWaitingItems g = some (c.waitingItems g) := by
  rw [checkedWaitingItems, waitingItems]
  cases hcolumn : c.newest? with
  | none => rfl
  | some column =>
      rw [newest?, Array.back?_eq_getElem?] at hcolumn
      simp only [checkedWaitingFor_eq hc hcolumn, Option.map_some]
      rw [show (fun terminal => some ((c.waitingFor column terminal).map fun item =>
        (⟨item.id, item.rule, item.dot, item.origin, terminal, item.errorCost⟩ : WaitingItem))) =
          fun terminal => pure _ from rfl, List.mapM_pure]
      rfl

include hc in
/-- Every slot is given back once, and none is left in use. -/
theorem checkedClear_eq (h : c.Owns) : c.checkedClear = some c.clear := by
  obtain ⟨hlive, hclear⟩ := h.tornDown hc
  have hhanded : ∀ slot ∈ c.returned, c.arena.inUse[slot.index]? = some true :=
    fun slot hslot => h.handed hc slot (c.returned_perm.subset hslot)
  have hitems : ∀ slot ∈ c.returned, slot.index < c.arena.items.size := by
    intro slot hslot
    have hlt := (Array.getElem?_eq_some_iff.mp (hhanded slot hslot)).1
    rwa [h.full.inUse, Array.size_replicate] at hlt
  have hreturned := Arena.foldlM_checkedRelease c.returned
    (c.returned_perm.nodup_iff.mpr (nodup_slots hc)) hhanded hitems
  rw [← tornDown_eq] at hreturned
  rw [checkedClear, Column.foldlM_checkedTeardown]
  change (c.returned.foldlM Arena.checkedRelease c.arena >>= _) = _
  rw [hreturned, Option.bind_eq_bind, Option.bind_some, if_pos hlive, hclear]

end filed

section entering

variable {g : Grammar} (hg : g.Numbered) {c : Chart} (hc : c.Filed g)
  (hne : 0 < c.columns.size)

include hg hc hne in
/-- A candidate that enters finds the newest column, its rule and its place. -/
theorem checkedInsert_eq {new : Candidate} (hdot : g.HasDot new.rule new.dot) :
    c.checkedInsert g new = some (c.insert g new) := by
  obtain ⟨column, hcolumn⟩ := c.newest_of_size hne
  have hfiled := hc.column _ column hcolumn
  have hback : c.columns.back? = some column := by rwa [Array.back?_eq_getElem?]
  obtain ⟨columns, arena, worklist⟩ := c
  rw [checkedInsert, hcolumn, insert]
  simp only at hback
  simp only [hback, Option.bind_eq_bind, Option.bind_some]
  cases column.find? new.key with
  | none =>
      rw [Column.checkedAdd_eq hg hfiled.bySymbol_size hfiled.emptyEnds_size hc.free worklist hdot]
      rfl
  | some seq =>
      simp only
      cases hslot : column.slots[seq]? with
      | none => rfl
      | some slot =>
          have hlt := hc.slot_lt _ column hcolumn seq slot hslot
          have hitem : arena.items[slot.index]? = some _ := Array.getElem?_eq_getElem hlt
          simp only [Arena.checkedModify_eq hlt, Arena.get?, hitem, Option.bind_some,
            Grammar.checkedNext_eq hdot]
          split
          · cases g.next? new.rule new.dot with
            | none => rfl
            | some symbol =>
                simp only [Column.checkedRequeue_eq hfiled.emptyEnds_size]
                rfl
          · rfl

include hc hne in
/-- The newest column has a mark for each symbol. -/
theorem marked_isSome {symbol : SymbolId} (hsymbol : symbol ≤ g.symbolCount) :
    ∃ marked, c.marked? c.current symbol = some marked := by
  obtain ⟨column, hcolumn⟩ := c.newest_of_size hne
  have hlt : symbol < column.predicted.size := by
    rw [(hc.column _ column hcolumn).predicted_size]
    exact Nat.lt_succ_of_le hsymbol
  exact ⟨_, by rw [marked?, hcolumn, Option.bind_some, Column.isPredicted?,
    Array.getElem?_eq_getElem hlt]⟩

theorem checkedPredictions_eq (hg : g.Numbered) {symbol : SymbolId}
    (h : g.isNonterminal symbol = true) :
    c.checkedPredictions g symbol = some (c.predictions g symbol) := by
  rw [checkedPredictions, Grammar.checkedRulesFor_eq hg h]
  rfl

include hc in
/-- A completed item finds its rule and the column that it began in. -/
theorem checkedCompletions_eq (ceiling : Nat) {item : Item} (hdot : g.HasDot item.rule item.dot)
    (horigin : item.origin < c.columns.size) :
    c.checkedCompletions g ceiling item = some (c.completions g ceiling item) := by
  have hcolumn : c.columns[item.origin]? = some _ := Array.getElem?_eq_getElem horigin
  rw [checkedCompletions, completions, Grammar.checkedLhs_eq hdot, hcolumn]
  simp only [Option.bind_eq_bind, Option.bind_some, checkedWaitingFor_eq hc hcolumn]
  rfl

end entering

end Chart
end EarleyChart
