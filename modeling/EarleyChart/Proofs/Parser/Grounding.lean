import EarleyChart.Proofs.Parser.History

/-!
Why the items of a chart are there. An item without links was predicted: its rule
is one for the start symbol in the first column, or an older item of its column
waits for its symbol. A column that a token opened has at least one item. Both
hold in every state of a parser, whatever its settings and costs.
-/

namespace EarleyChart
namespace Chart

/-- A rule is for the start symbol in the first column, or for a symbol that an item
of the column waits for. -/
def CallsFor (g : Grammar) (c : Chart) (column : Nat) (rule : RuleId)
    (among : ItemId → Prop) : Prop :=
  column = 0 ∧ g.lhs rule = g.start ∨
    ∃ id item, c.item? id = some item ∧ id.column = column ∧ among id ∧
      g.next? item.rule item.dot = some (g.lhs rule)

/-- Every predicted item was called for by an older one. -/
def Grounded (g : Grammar) (c : Chart) : Prop :=
  ∀ id item, c.item? id = some item → item.links = [] →
    c.CallsFor g id.column item.rule (·.Before id)

variable {g : Grammar} {c c' : Chart} {column : Nat} {rule : RuleId}

theorem CallsFor.grows {among among' : ItemId → Prop} (h : c.CallsFor g column rule among)
    (hc : c.Grows c') (hamong : ∀ id item, c.item? id = some item → among id → among' id) :
    c'.CallsFor g column rule among' := by
  cases h with
  | inl hstart => exact .inl hstart
  | inr hitem =>
      obtain ⟨id, item, hitem, hcolumn, hid, hnext⟩ := hitem
      obtain ⟨item', hitem', hkey, -⟩ := hc.item id item hitem
      obtain ⟨hrule, hdot, -⟩ := Item.key_eq_iff.mp hkey
      exact .inr ⟨id, item', hitem', hcolumn, hamong id item hitem hid, by rw [hrule, hdot, hnext]⟩

theorem Grounded.of_items (h : c.Grounded g) (hsame : ∀ id, c'.item? id = c.item? id) :
    c'.Grounded g := by
  intro id item hitem hlinks
  rw [hsame] at hitem
  have hcalls := h id item hitem hlinks
  rw [CallsFor] at hcalls ⊢
  simpa only [hsame] using hcalls

/-- Packing a link into an item leaves no item without links behind. -/
theorem mergeInto_links_nil {new : Candidate} {item : Item}
    (h : (mergeInto new item).links = []) : item.links = [] := by
  rw [mergeInto_links] at h
  exact (List.append_eq_nil_iff.mp h).1

/-- Only predictions enter without a link, and each is called for when it enters. -/
theorem grounded_preserved (hg : g.Numbered) (ceiling : Nat) :
    Preserved g ceiling (Grounded g) fun c new =>
      new.link = none → c.CallsFor g c.current new.rule fun _ => True where
  enter := by
    intro c c' new hc hfits hentered hprogress hgrounded hcalls id item' hitem' hlinks
    rcases hentered.item_cases id item' hitem' with hold | ⟨rfl, rfl⟩ | ⟨-, item, hold, -, rfl⟩
    · exact (hgrounded id item' hold hlinks).grows hprogress.grows fun _ _ _ hbefore => hbefore
    · have hlink : new.link = none := by simpa [Candidate.toItem] using hlinks
      apply (hcalls hlink).grows hprogress.grows
      intro other item hother _
      exact before_fresh g c hc.filed other item hother
    · rw [(Item.key_eq_iff.mp (mergeInto_id_key new item).2).1]
      apply (hgrounded id item hold (mergeInto_links_nil hlinks)).grows hprogress.grows
      exact fun _ _ _ hbefore => hbefore
  later := by
    intro c c' new _ _ hprogress hcalls hlink
    rw [hprogress.current]
    exact (hcalls hlink).grows hprogress.grows fun _ _ _ _ => trivial
  same _ hsame hgrounded := hgrounded.of_items hsame
  predict := by
    intro c id item symbol rule _ _ hitem hid hnext hrule _
    obtain ⟨r, hr, hlhs⟩ := (Grammar.mem_rulesFor_iff hg rule symbol).mp hrule
    refine .inr ⟨id, item, hitem, hid, trivial, ?_⟩
    rw [hnext, Grammar.lhs, hr, Option.elim_some, hlhs]
  complete := by
    intro c id other last item _ _ _ _ _ _ _ _ _ hlink
    contradiction

def Occupied (c : Chart) : Prop :=
  ∀ column, 0 < column → column < c.columns.size →
    ∃ id item, c.item? id = some item ∧ id.column = column

theorem Occupied.progresses (h : c.Occupied) (hc : c.Progresses c') : c'.Occupied := by
  intro column hpositive hcolumn
  rw [hc.size] at hcolumn
  obtain ⟨id, item, hitem, hid⟩ := h column hpositive hcolumn
  obtain ⟨item', hitem', -⟩ := hc.grows.item id item hitem
  exact ⟨id, item', hitem', hid⟩

theorem occupied_preserved (ceiling : Nat) : Preserved g ceiling Occupied fun _ _ => True where
  enter _ _ _ hprogress hoccupied _ := hoccupied.progresses hprogress
  later _ _ _ _ := trivial
  same hprogress _ hoccupied := hoccupied.progresses hprogress
  predict _ _ _ _ _ _ := trivial
  complete _ _ _ _ _ _ _ _ _ := trivial

end Chart

namespace Parser

variable {g : Grammar} (hg : g.Numbered) {p next : Parser}

include hg in
theorem Turn.grounded (hp : p.Healthy g) (h : p.Turn g next) (hblank : p.Unbegun)
    (hgrounded : p.chart.Grounded g) : next.chart.Grounded g := by
  obtain rfl := hp.grammar_eq
  have hpreserved := Chart.grounded_preserved hg p.config.maxErrorValue
  have hopened : ∀ token, (p.chart.openColumn p.grammar token).Grounded p.grammar :=
    fun token => hgrounded.of_items (p.chart.item?_openColumn p.grammar token)
  cases h with
  | stays hchart => rwa [hchart]
  | seeds tally hstart herror hcloses =>
      have hclosing := Chart.closing_openColumn p.config.maxErrorValue none hp.valid
        (hp.idle herror)
      apply hcloses.preserved hg (hp.seeded_closable hg herror tally) hpreserved
      apply hpreserved.predicted hg hclosing.valid hclosing.nonempty _ (hopened none)
      intro rule hrule _
      obtain ⟨r, hr, hlhs⟩ := (Grammar.mem_rulesFor_iff hg rule _).mp hrule
      refine .inl ⟨?_, ?_⟩
      · rw [(p.chart.current_openColumn p.grammar none).2, hblank hstart]
        rfl
      · rw [Grammar.lhs, hr, Option.elim_some, hlhs]
  | @reads hscanning token news hnews price hread requests tally hcloses =>
      have hclosing := Chart.closing_openColumn p.config.maxErrorValue (some token) hp.valid
        hscanning.idle
      apply hcloses.preserved hg (hscanning.opened_closable hg hread requests tally) hpreserved
      apply hpreserved.insertAll hg news hclosing.valid hclosing.nonempty
      · exact fun new hnew => hscanning.read_fits (hread new hnew)
      · exact hopened (some token)
      · intro new hnew hlink
        obtain ⟨id, item, -, -, hreads⟩ := hread new hnew
        cases hreads with
        | scan | substitute | delete => contradiction

include hg in
theorem Turn.occupied (hp : p.Healthy g) (h : p.Turn g next) (hblank : p.Unbegun)
    (hoccupied : p.chart.Occupied) : next.chart.Occupied := by
  obtain rfl := hp.grammar_eq
  have hpreserved := Chart.occupied_preserved (g := p.grammar) p.config.maxErrorValue
  cases h with
  | stays hchart => rwa [hchart]
  | seeds tally hstart herror hcloses =>
      have hclosing := Chart.closing_openColumn p.config.maxErrorValue none hp.valid
        (hp.idle herror)
      apply hcloses.preserved hg (hp.seeded_closable hg herror tally) hpreserved
      apply hpreserved.predicted hg hclosing.valid hclosing.nonempty _ _ fun _ _ => trivial
      intro column hpositive hcolumn
      rw [(p.chart.current_openColumn p.grammar none).1, hblank hstart] at hcolumn
      exact absurd hcolumn (Nat.not_lt.mpr hpositive)
  | @reads hscanning token news hnews price hread requests tally hcloses =>
      have hclosing := Chart.closing_openColumn p.config.maxErrorValue (some token) hp.valid
        hscanning.idle
      have hfits : ∀ new ∈ news, (p.chart.openColumn p.grammar (some token)).Fits p.grammar new :=
        fun new hnew => hscanning.read_fits (hread new hnew)
      obtain ⟨-, hextends, hholds⟩ := Chart.insertAll_extends p.grammar hg news _ hclosing.valid
        hclosing.nonempty hfits
      obtain ⟨new, hnew⟩ := List.exists_mem_of_ne_nil news (readings_news token hnews).1
      apply hcloses.preserved hg (hscanning.opened_closable hg hread requests tally) hpreserved
      obtain ⟨hsize, hcurrent⟩ := p.chart.current_openColumn p.grammar (some token)
      intro column hpositive hcolumn
      change column < ((p.chart.openColumn p.grammar (some token)).insertAll p.grammar
        news).columns.size at hcolumn
      rw [hextends.frame.size, hsize] at hcolumn
      cases Nat.lt_or_eq_of_le (Nat.le_of_lt_succ hcolumn) with
      | inl hold =>
          obtain ⟨id, item, hitem, hid⟩ := hoccupied column hpositive hold
          rw [← p.chart.item?_openColumn p.grammar (some token)] at hitem
          obtain ⟨item', hitem', -⟩ := hextends.grows.item id item hitem
          exact ⟨id, item', hitem', hid⟩
      | inr hlast =>
          obtain ⟨id, item, hitem, hid, -⟩ := hholds new hnew
          exact ⟨id, item, hitem, by rw [hid, hcurrent, hlast]⟩

structure Sourced (g : Grammar) (p : Parser) : Prop where
  blank : p.Unbegun
  grounded : p.chart.Grounded g
  occupied : p.chart.Occupied

theorem sourced_blank (g : Grammar) (hchart : p.chart.columns = #[]) : p.Sourced g where
  blank _ := hchart
  grounded id item hitem := by simp [Chart.item?, hchart] at hitem
  occupied column _ hcolumn := by simp [hchart] at hcolumn

include hg in
/-- Whatever was done with a parser, its items are there for a reason. -/
theorem Reached.sourced (h : Reached g p) : p.Sourced g := by
  apply h.kept hg (Sourced g)
  case hturn =>
    intro p next hp hturn hsourced
    exact ⟨hturn.unbegun hg hp hsourced.blank,
      hturn.grounded hg hp hsourced.blank hsourced.grounded,
      hturn.occupied hg hp hsourced.blank hsourced.occupied⟩
  case hcreated => exact fun _ => sourced_blank g rfl
  case hconfig => exact fun _ _ hsourced => ⟨hsourced.blank, hsourced.grounded, hsourced.occupied⟩
  case hcosts => exact fun _ _ hsourced => ⟨hsourced.blank, hsourced.grounded, hsourced.occupied⟩
  case hreset => exact fun _ _ => sourced_blank g rfl

end Parser
end EarleyChart
