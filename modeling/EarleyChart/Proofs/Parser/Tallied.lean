import EarleyChart.Proofs.Chart.Census
import EarleyChart.Proofs.Parser.InRange

/-!
The counts of a run while its column is filled and closed. Links over a token are counted before
they are entered, and each insertion enters the one that was counted for it. A closure predicts
and completes: it marks as often as it counts, and adds no link over a token. So it may be broken
off anywhere, and the counts describe the chart.
-/

namespace EarleyChart

def StepKind.countIn (step : StepKind) (links : List Link) : Nat :=
  links.countP fun link => link.step == step

theorem StepKind.countIn_append (step : StepKind) (links more : List Link) :
    step.countIn (links ++ more) = step.countIn links + step.countIn more :=
  List.countP_append

theorem StepKind.countIn_perm (step : StepKind) {links others : List Link}
    (h : links.Perm others) : step.countIn links = step.countIn others := h.countP_eq _

def Candidate.overToken (new : Candidate) : List Link :=
  new.link.toList.filter fun link => link.step != .completed

/-- The counts describe a chart, its links counted together with some that are yet to be
entered. -/
structure Tally.Expects (t : Tally) (g : Grammar) (c : Chart) (pending : List Link) : Prop where
  items : t.items = c.allItems.length
  scanned : t.scanned = StepKind.scanned.countIn (c.links ++ pending)
  corrections : t.corrections = StepKind.deleted.countIn (c.links ++ pending) +
    StepKind.substituted.countIn (c.links ++ pending)
  packed : t.packedLinks + c.linkedCount = c.links.length
  predictions : t.predictions = (c.marks g).length

variable {g : Grammar} {c : Chart} {t : Tally}

@[simp] theorem Tally.record_scanned (t : Tally) (outcome : Insertion) :
    (t.record outcome).scanned = t.scanned := by cases outcome <;> rfl

@[simp] theorem Tally.record_corrections (t : Tally) (outcome : Insertion) :
    (t.record outcome).corrections = t.corrections := by cases outcome <;> rfl

@[simp] theorem Tally.record_predictions (t : Tally) (outcome : Insertion) :
    (t.record outcome).predictions = t.predictions := by cases outcome <;> rfl

/-- A link over a token that is new to the chart is entered as it was counted, and a link of a
completion is not among those counted. -/
theorem Chart.Lists.countIn_eq {new : Candidate} {after : Chart × Insertion}
    (h : c.Lists new after) (hfresh : ∀ link ∈ new.overToken, link ∉ c.links)
    {step : StepKind} (hstep : step ≠ .completed) :
    step.countIn after.1.links = step.countIn (c.links ++ new.overToken) := by
  obtain ⟨added, hadded, hnew, hperm⟩ := h.links_perm
  have hcount : step.countIn added = step.countIn new.overToken := by
    cases hlink : new.link with
    | none =>
        rw [hlink, Option.toList_none] at hadded
        rw [List.sublist_nil.mp hadded, Candidate.overToken, hlink]
        rfl
    | some link =>
        by_cases hcompleted : link.step = .completed
        · have hover : new.overToken = [] := by simp [Candidate.overToken, hlink, hcompleted]
          rw [hlink] at hadded
          rw [hover]
          rcases List.sublist_singleton.mp hadded with rfl | rfl
          · rfl
          · simp [StepKind.countIn, hcompleted, hstep.symm]
        · have hover : new.overToken = [link] := by simp [Candidate.overToken, hlink, hcompleted]
          rw [hnew link (hfresh link (by simp [hover])) hlink, hover]
  rw [StepKind.countIn_perm _ hperm, StepKind.countIn_append, StepKind.countIn_append, hcount]

namespace Tally.Expects

theorem insert (hg : g.Numbered) (hc : c.Closable g) {new : Candidate} (hfits : c.Fits g new)
    {pending : List Link} (hfresh : ∀ link ∈ new.overToken, link ∉ c.links)
    (h : t.Expects g c (new.overToken ++ pending)) :
    (t.record (c.insert g new).2).Expects g (c.insert g new).1 pending := by
  have hlists := Chart.insert_lists hc.valid.filed hc.nonempty new
  obtain ⟨hitems, hpacked⟩ := hlists.counted hc.valid hfits h.items h.packed
  obtain ⟨-, -, hframe⟩ := c.insert_entered g hg hc.valid.filed hc.nonempty new hfits.dot
  have hcount : ∀ step ≠ StepKind.completed, step.countIn ((c.insert g new).1.links ++ pending) =
      step.countIn (c.links ++ (new.overToken ++ pending)) := by
    intro step hstep
    rw [StepKind.countIn_append, hlists.countIn_eq hfresh hstep, ← StepKind.countIn_append,
      List.append_assoc]
  constructor
  case items => exact hitems
  case scanned => rw [record_scanned, h.scanned, hcount _ (by decide)]
  case corrections =>
    rw [record_corrections, h.corrections, hcount _ (by decide), hcount _ (by decide)]
  case packed => exact hpacked
  case predictions => rw [record_predictions, h.predictions, Chart.marks_eq_of_frame hframe]

/-- Without a change to the items, only the count of predictions follows the marks. -/
theorem of_allItems {pending : List Link} (h : t.Expects g c pending) {c' : Chart}
    (hitems : c'.allItems = c.allItems) {predictions : Nat}
    (hmarks : predictions = (c'.marks g).length) :
    ({ t with predictions := predictions } : Tally).Expects g c' pending := by
  have hlinks : c'.links = c.links := by rw [Chart.links, Chart.links, hitems]
  have hlinked : c'.linkedCount = c.linkedCount := by
    rw [Chart.linkedCount, Chart.linkedCount, hitems]
  constructor
  case items => rw [hitems]; exact h.items
  case scanned => rw [hlinks]; exact h.scanned
  case corrections => rw [hlinks]; exact h.corrections
  case packed => rw [hlinks, hlinked]; exact h.packed
  case predictions => exact hmarks

/-- In a column that is opened there is nothing to be counted. -/
theorem openColumn {pending : List Link} (h : t.Expects g c pending) (token : Option Token) :
    t.Expects g (c.openColumn g token) pending :=
  h.of_allItems (c.allItems_openColumn g token)
    (h.predictions.trans (congrArg List.length (c.marks_openColumn g token).symm))

end Tally.Expects

namespace Parser

variable {p q : Parser}

/-- The counts describe the chart. -/
def Tallied (p : Parser) : Prop := p.tally.Expects p.grammar p.chart []

/-- Items enter, each with the link that was counted for it. -/
theorem insertAll_tallied (hg : p.grammar.Numbered) {news : List Candidate}
    (hc : p.chart.Closable p.grammar) (hfits : ∀ new ∈ news, p.chart.Fits p.grammar new)
    (hnodup : (news.flatMap Candidate.overToken).Nodup)
    (hfresh : ∀ link ∈ news.flatMap Candidate.overToken, link ∉ p.chart.links)
    (h : p.tally.Expects p.grammar p.chart (news.flatMap Candidate.overToken)) :
    (p.insertAll news).Tallied := by
  induction news generalizing p with
  | nil => exact h
  | cons new news ih =>
      rw [List.flatMap_cons] at hnodup hfresh h
      obtain ⟨-, htail, hdisjoint⟩ := List.nodup_append.mp hnodup
      have hnew := hfits new List.mem_cons_self
      obtain ⟨hvalid, hextends⟩ :=
        Chart.insert_extends p.grammar hg p.chart hc.valid hc.nonempty hnew
      have hframe := hextends.frame
      refine ih (p := p.insert new) hg ⟨hvalid, ?_⟩ ?_ htail ?_ (h.insert hg hc hnew ?_)
      · exact Nat.lt_of_lt_of_eq hc.nonempty hframe.size.symm
      · exact fun other hother => (hfits other (List.mem_cons_of_mem _ hother)).grows
          hextends.grows hframe.current
      · -- A link that is still to be entered is neither old nor the one entered now.
        intro link hlink hmem
        have hlists := Chart.insert_lists hc.valid.filed hc.nonempty new
        rcases hlists.mem_links hmem with hold | heq
        · exact hfresh link (List.mem_append_right _ hlink) hold
        · refine hdisjoint link ?_ link hlink rfl
          obtain ⟨other, -, hother⟩ := List.mem_flatMap.mp hlink
          exact List.mem_filter.mpr ⟨by simp [heq], (List.mem_filter.mp hother).2⟩
      · exact fun link hlink => hfresh link (List.mem_append_left _ hlink)

/-- Items enter without a link over a token, so that none has to be counted. -/
theorem insertAll_tallied_closing (hg : p.grammar.Numbered) {news : List Candidate}
    (hc : p.chart.Closable p.grammar) (hfits : ∀ new ∈ news, p.chart.Fits p.grammar new)
    (hnone : ∀ new ∈ news, new.overToken = []) (h : p.Tallied) : (p.insertAll news).Tallied := by
  have hpending : news.flatMap Candidate.overToken = [] := List.flatMap_eq_nil_iff.mpr hnone
  apply insertAll_tallied hg hc hfits
  case hnodup => rw [hpending]; exact List.nodup_nil
  case hfresh => rw [hpending]; exact fun _ => by simp
  case h => rw [hpending]; exact h

theorem marking_tallied {symbol : SymbolId} (hsymbol : p.grammar.isNonterminal symbol = true)
    (hfalse : p.chart.marked? p.chart.current symbol = some false) (h : p.Tallied) :
    (p.marking symbol).Tallied := by
  have hmarks := p.chart.marks_markNewest hsymbol hfalse
  rw [← h.predictions] at hmarks
  exact h.of_allItems (p.chart.allItems_markNewest symbol) hmarks.symm

theorem predict_tallied (hg : p.grammar.Numbered) (hc : p.chart.Closable p.grammar)
    {symbol : SymbolId} (hsymbol : p.grammar.isNonterminal symbol = true) (h : p.Tallied) :
    (p.predict symbol).Tallied := by
  rw [predict_def]
  split
  case h_2 => exact h
  case h_1 hfalse =>
    obtain ⟨hsize, hcurrent⟩ := p.chart.current_markNewest symbol
    apply insertAll_tallied_closing (p := p.marking symbol) hg
    case hc =>
      exact ⟨Chart.valid_markNewest p.grammar p.chart symbol hc.valid,
        Nat.lt_of_lt_of_eq hc.nonempty hsize.symm⟩
    case hfits =>
      exact fun new hnew => (Chart.predictions_fit hg symbol new hnew).grows
        (p.chart.progresses_markNewest symbol).grows hcurrent
    case hnone =>
      intro new hnew
      obtain ⟨rule, -, rfl⟩ := List.mem_map.mp hnew
      rfl
    case h => exact marking_tallied hsymbol hfalse h

theorem complete_tallied (hg : p.grammar.Numbered) (hc : p.chart.Closable p.grammar)
    {id : ItemId} {item : Item} (hitem : p.item? id = some item) (hid : id.column = p.chart.current)
    (hend : p.grammar.next? item.rule item.dot = none) (h : p.Tallied) :
    (p.complete item).Tallied := by
  rw [complete]
  apply insertAll_tallied_closing
    (p := { p with tally := { p.tally with completions := p.tally.completions + 1 } }) hg hc
  case hfits =>
    exact Chart.completions_fit hg hc.valid p.config.maxErrorValue id item hitem hid hend
  case hnone =>
    intro new hnew
    have hdot := (hc.valid.item id item hitem).dot
    obtain ⟨_, _, -, -, -, rfl, -⟩ :=
      (Chart.mem_completions _ _ hc.valid.filed hg _ item hdot new).mp hnew
    rfl
  case h => exact ⟨h.items, h.scanned, h.corrections, h.packed, h.predictions⟩

theorem process_tallied (hg : p.grammar.Numbered) (hc : p.chart.Closable p.grammar)
    {id : ItemId} {item : Item} (hitem : p.item? id = some item) (hid : id.column = p.chart.current)
    (h : p.Tallied) : (p.process item).Tallied := by
  rw [process]
  cases hnext : p.grammar.next? item.rule item.dot with
  | none => exact complete_tallied hg hc hitem hid hnext h
  | some symbol =>
      simp only
      split
      · next hsymbol => exact predict_tallied hg hc hsymbol h
      · exact h

/-- What the closure of a column keeps. -/
structure Reckoned (g : Grammar) (p : Parser) : Prop where
  grammar_eq : p.grammar = g
  closable : p.chart.Closable g
  tallied : p.Tallied

section closure

variable (hg : g.Numbered)

theorem Reckoned.popped (h : p.Reckoned g) : p.popped.Reckoned g := by
  have hitems : p.popped.chart.allItems = p.chart.allItems := rfl
  exact ⟨h.grammar_eq, popped_closable h.closable,
    h.tallied.of_allItems hitems h.tallied.predictions⟩

include hg in
theorem Reckoned.process (h : p.Reckoned g) {id : ItemId} {item : Item}
    (hitem : p.item? id = some item) (hid : id.column = p.chart.current) :
    (p.process item).Reckoned g := by
  obtain ⟨rfl, hc, htallied⟩ := h
  have hcontinues := continues_process hg hc hitem hid
  exact ⟨hcontinues.grammar_eq, hcontinues.closable, process_tallied hg hc hitem hid htallied⟩

include hg in
theorem Reckoned.taken (h : p.Reckoned g) {id : ItemId} {item : Item}
    (hpop : p.chart.worklist.pop.1 = some id) (hitem : p.popped.item? id = some item) :
    (p.popped.process item).Reckoned g :=
  h.popped.process hg hitem (Chart.popped_item h.closable.valid.filed id hpop).1

include hg in
theorem Reckoned.closeFor (h : p.Reckoned g) (steps : Nat) : (p.closeFor steps).1.Reckoned g := by
  apply closeFor_induct (·.Reckoned g)
  case hpopped => exact fun _ hq => hq.popped
  case hprocess => exact fun hpop hitem hq => hq.taken hg hpop hitem
  case h => exact h

include hg in
theorem Reckoned.closeColumn (h : p.Reckoned g) : p.closeColumn.2.Reckoned g := by
  apply closeColumn_induct (·.Reckoned g)
  case hpopped => exact fun _ hq => hq.popped
  case hprocess => exact fun hpop hitem hq => hq.taken hg hpop hitem
  case hended => exact fun _ _ hq => ⟨hq.grammar_eq, hq.closable, hq.tallied⟩
  case h => exact h

end closure

end Parser

end EarleyChart
