import EarleyChart.Proofs.Parser.Tallied
import Mathlib.Data.List.Flatten

/-!
The counts of a run describe its chart. What a token leads to is counted before it is entered,
and each of its links is new to the chart: no two of them are the same, and no other link leads
over a token from the column that was the newest.
-/

namespace EarleyChart

/-! ### Links over a token -/

namespace StepKind

theorem countIn_overToken {step : StepKind} (hstep : step ≠ .completed)
    (news : List Candidate) : step.countIn (news.flatMap Candidate.overToken) =
      news.countP fun new => new.link.any fun link => link.step == step := by
  induction news with
  | nil => rfl
  | cons new news ih =>
      rw [List.flatMap_cons, countIn_append, ih, List.countP_cons, Nat.add_comm]
      congr 1
      cases hlink : new.link with
      | none => simp [Candidate.overToken, hlink, countIn]
      | some link =>
          by_cases hcompleted : link.step = .completed
          · simp [Candidate.overToken, hlink, countIn, hcompleted, hstep.symm]
          · simp [Candidate.overToken, hlink, countIn, hcompleted, List.countP_cons]

theorem countIn_eq_zero {step : StepKind} {links : List Link}
    (h : ∀ link ∈ links, link.step ≠ step) : step.countIn links = 0 :=
  List.countP_eq_zero.mpr fun link hlink => by simpa using h link hlink

theorem countIn_corrections {links : List Link}
    (h : ∀ link ∈ links, link.step = .deleted ∨ link.step = .substituted) :
    deleted.countIn links + substituted.countIn links = links.length := by
  rw [List.length_eq_countP_add_countP (fun link : Link => link.step == .deleted)]
  congr 1
  refine List.countP_congr fun link hlink => ?_
  rcases h link hlink with hstep | hstep <;> simp [hstep]

end StepKind

def EachOver (property : Link → Prop) (news : List Candidate) : Prop :=
  ∀ new ∈ news, ∃ link, new.overToken = [link] ∧ property link

namespace EachOver

variable {property : Link → Prop} {news : List Candidate}

theorem of_mem (h : EachOver property news) {link : Link}
    (hlink : link ∈ news.flatMap Candidate.overToken) : property link := by
  obtain ⟨new, hnew, hlink⟩ := List.mem_flatMap.mp hlink
  obtain ⟨other, hover, hproperty⟩ := h new hnew
  rw [hover] at hlink
  exact List.mem_singleton.mp hlink ▸ hproperty

theorem length_eq (h : EachOver property news) :
    (news.flatMap Candidate.overToken).length = news.length := by
  induction news with
  | nil => rfl
  | cons new news ih =>
      obtain ⟨link, hover, -⟩ := h new List.mem_cons_self
      have htail := ih fun other hother => h other (List.mem_cons_of_mem new hother)
      rw [List.flatMap_cons, hover, List.singleton_append, List.length_cons, htail,
        List.length_cons]

end EachOver

/-! ### What a token leads to -/

namespace Chart

variable {g : Grammar} {c : Chart}

/-- A link over a token leads from an older column. -/
theorem Valid.left_older (hc : c.Valid g) {link : Link} (hlink : link ∈ c.links)
    (hstep : link.step ≠ .completed) : link.left.column < c.current := by
  obtain ⟨item, hitem, hlink⟩ := List.mem_flatMap.mp hlink
  obtain ⟨id, hitem⟩ := (c.mem_allItems_iff item).mp hitem
  have hle := c.column_lt id item hitem
  cases (hc.item id item hitem).shape link hlink with
  | scanned _ _ _ _ hcolumn | substituted _ _ _ _ _ hcolumn | deleted _ _ _ _ _ hcolumn =>
      exact Nat.lt_of_lt_of_le (Nat.lt_of_succ_le (Nat.le_of_eq hcolumn)) hle
  | completed => contradiction

theorem scans_over (hg : g.Numbered) (hc : c.Filed g) (token : Token) :
    EachOver (fun link => link.step = .scanned ∧ link.left.column = c.current)
      (c.scans g token) := by
  intro new hnew
  obtain ⟨id, item, -, hitem, hid, -, -, rfl⟩ := (mem_scans g c hc hg token new).mp hnew
  exact ⟨_, rfl, rfl, by rwa [item_id g c hc id item hitem]⟩

/-- Each item is advanced over a token once. -/
theorem nodup_scans (hg : g.Numbered) (hc : c.Filed g) (token : Token) :
    ((c.scans g token).flatMap Candidate.overToken).Nodup := by
  rw [scans]
  cases hkind : g.terminalForKind? token.kind with
  | none => exact List.nodup_nil
  | some terminal =>
      rw [newest?, Array.back?_eq_getElem?]
      cases h : c.columns[c.columns.size - 1]? with
      | none => exact List.nodup_nil
      | some column =>
          have hrange := (g.isTerminal_iff terminal).mp
            (Symbols.terminalForKind?_isTerminal hg.tabled hkind)
          have hids := nodup_waitingFor g c hc _ column h terminal
            (Nat.le_trans hrange.2 (Nat.le_add_right _ _))
          have hover : ((c.waitingFor column terminal).map scanOver).flatMap
              Candidate.overToken =
                (c.waitingFor column terminal).map fun item => ⟨.scanned, item.id, none⟩ := by
            rw [List.flatMap_map]
            exact List.flatMap_pure_eq_map _ _
          simp only [hover]
          apply List.Nodup.of_map Link.left
          rw [List.map_map]
          exact hids

end Chart

namespace WaitingItem

variable (w : WaitingItem) (ceiling : Nat) (actual : Option SymbolId) (cost : CorrectionCost)

theorem corrections_over : EachOver
    (fun link => (link.step = .deleted ∨ link.step = .substituted) ∧ link.left = w.id)
    (w.corrections ceiling actual cost) := by
  intro new hnew
  rcases ((mem_corrections _ _ _ _ new).mp hnew).1 with rfl | ⟨-, rfl⟩
  · exact ⟨_, rfl, .inl rfl, rfl⟩
  · exact ⟨_, rfl, .inr rfl, rfl⟩

/-- A waiting item is corrected in each way once. -/
theorem nodup_corrections :
    ((w.corrections ceiling actual cost).flatMap Candidate.overToken).Nodup := by
  have hsublist : (w.corrections ceiling actual cost).Sublist
      [w.deleting cost, w.substituting cost] := by
    rw [corrections]
    refine List.Sublist.append List.filter_sublist ?_
    split
    · exact List.nil_sublist _
    · exact List.filter_sublist
  refine (hsublist.flatMap Candidate.overToken).nodup ?_
  simp [Candidate.overToken, deleting, substituting]

end WaitingItem

namespace Parser

variable {p q : Parser} {token : Token} {news : List Candidate}

theorem proposals_over (hc : p.chart.Filed p.grammar) (token : Token) : EachOver
    (fun link => (link.step = .deleted ∨ link.step = .substituted) ∧
      link.left.column = p.chart.current) (p.proposals token) := by
  intro new hnew
  obtain ⟨⟨w, cost⟩, hpair, hnew⟩ := List.mem_flatMap.mp hnew
  obtain ⟨id, item, terminal, -, hid, -, -, rfl⟩ :=
    (Chart.mem_waitingItems p.grammar p.chart hc w).mp (List.of_mem_zip hpair).1
  obtain ⟨link, hover, hstep, hleft⟩ := WaitingItem.corrections_over _ _ _ cost new hnew
  exact ⟨link, hover, hstep, by rwa [hleft]⟩

/-- No two corrections of a token are the same link. -/
theorem nodup_proposals (hc : p.chart.Filed p.grammar) (hanswered : p.Answered token) :
    ((p.proposals token).flatMap Candidate.overToken).Nodup := by
  rw [proposals, List.flatMap_assoc, List.nodup_flatMap]
  refine ⟨fun pair _ => pair.1.nodup_corrections _ _ _, ?_⟩
  have hids := Chart.nodup_waitingItems hc
  rw [← List.map_fst_zip (Nat.le_of_eq hanswered.priced.symm), List.map_map] at hids
  refine (List.pairwise_map.mp hids).imp fun {first second} hne => ?_
  refine List.disjoint_left.mpr fun link hfirst hsecond => hne ?_
  have hleft := ((first.1.corrections_over _ _ _).of_mem hfirst).2
  exact hleft.symm.trans ((second.1.corrections_over _ _ _).of_mem hsecond).2

/-- What is read of a token beside its scans: nothing, or the corrections that were found. -/
theorem corrections_over (hc : p.chart.Filed p.grammar) {corrections : List Candidate}
    (hfound : corrections = [] ∨ p.Answered token ∧ corrections = p.proposals token) :
    EachOver (fun link => (link.step = .deleted ∨ link.step = .substituted) ∧
      link.left.column = p.chart.current) corrections ∧
      (corrections.flatMap Candidate.overToken).Nodup := by
  rcases hfound with rfl | ⟨hanswered, rfl⟩
  · exact ⟨fun new hnew => absurd hnew List.not_mem_nil, List.nodup_nil⟩
  · exact ⟨proposals_over hc token, nodup_proposals hc hanswered⟩

/-- A token leads to links that are new to the chart, all of them different. -/
theorem readings_links (hg : p.grammar.Numbered) (hc : p.chart.Valid p.grammar)
    (hread : p.readings token = (.ok (.ok news), q)) :
    (news.flatMap Candidate.overToken).Nodup ∧
      ∀ link ∈ news.flatMap Candidate.overToken, link ∉ p.chart.links := by
  have hscans := Chart.scans_over hg hc.filed token
  obtain ⟨corrections, requests, rfl, -, hfound, -⟩ := readings_ok hread
  obtain ⟨hcorrections, hnodup⟩ := corrections_over hc.filed hfound
  rw [List.flatMap_append]
  constructor
  · refine List.nodup_append.mpr ⟨Chart.nodup_scans hg hc.filed token, hnodup, ?_⟩
    rintro link hscan _ hcorrection rfl
    have hscanned := (hscans.of_mem hscan).1
    rcases (hcorrections.of_mem hcorrection).1 with hstep | hstep <;>
      exact StepKind.noConfusion (hscanned.symm.trans hstep)
  · intro link hlink hold
    -- A link of the chart leads from an older column, and this one from the newest.
    have hleft : link.left.column = p.chart.current := by
      rcases List.mem_append.mp hlink with hscan | hcorrection
      · exact (hscans.of_mem hscan).2
      · exact (hcorrections.of_mem hcorrection).2
    have hstep : link.step ≠ .completed := by
      rw [← List.flatMap_append] at hlink
      obtain ⟨new, -, hlink⟩ := List.mem_flatMap.mp hlink
      simpa using (List.mem_filter.mp hlink).2
    exact Nat.ne_of_lt (hc.left_older hold hstep) hleft

/-- Scans and corrections of a token are counted as they are found. -/
theorem readings_expects (hg : p.grammar.Numbered) (hc : p.chart.Filed p.grammar) (h : p.Tallied)
    (hread : p.readings token = (.ok (.ok news), q)) :
    ({ q.tally with
      scanned := q.tally.scanned + news.countP fun new => new.link.any (·.step == .scanned) } :
        Tally).Expects p.grammar p.chart (news.flatMap Candidate.overToken) := by
  have hscans := Chart.scans_over hg hc token
  obtain ⟨corrections, requests, rfl, -, hfound, rfl⟩ := readings_ok hread
  obtain ⟨hcorrections, -⟩ := corrections_over hc hfound
  have hscanned := h.scanned
  have hcorrected := h.corrections
  rw [List.append_nil] at hscanned hcorrected
  constructor
  case items => exact h.items
  case scanned =>
    rw [StepKind.countIn_append, ← hscanned, StepKind.countIn_overToken (by decide)]
  case corrections =>
    have hfirst : ∀ step : StepKind, step ≠ .scanned → step.countIn
        ((p.chart.scans p.grammar token).flatMap Candidate.overToken) = 0 := fun step hstep =>
      StepKind.countIn_eq_zero fun link hlink =>
        (hscans.of_mem hlink).1 ▸ hstep.symm
    have hsecond := StepKind.countIn_corrections fun link hlink => (hcorrections.of_mem hlink).1
    rw [hcorrections.length_eq] at hsecond
    simp only [List.flatMap_append, StepKind.countIn_append, hfirst .deleted (by decide),
      hfirst .substituted (by decide)]
    omega
  case packed => exact h.packed
  case predictions => exact h.predictions

/-! ### Whole runs -/

variable {g : Grammar}

/-- A token is taken into a new column, with each of its links as it was counted. -/
theorem openColumn_tallied (hg : p.grammar.Numbered) (hp : p.Scanning p.grammar) (h : p.Tallied)
    (hread : p.readings token = (.ok (.ok news), q)) : (q.openColumn token news).Tallied := by
  have hopened := Chart.closing_openColumn p.config.maxErrorValue (some token) hp.valid hp.idle
  obtain ⟨hnodup, hfresh⟩ := readings_links hg hp.valid hread
  have hexpects := readings_expects hg hp.valid.filed h hread
  obtain ⟨result, requests, tally, heq, hreads⟩ := readings_read hg hp.valid.filed token
  rw [hread] at heq
  obtain ⟨rfl, rfl⟩ := Prod.mk.inj heq
  have hlinks : (p.chart.openColumn p.grammar (some token)).links = p.chart.links := by
    rw [Chart.links, Chart.allItems_openColumn, Chart.links]
  apply insertAll_tallied (p := { p with
    requests := requests
    chart := p.chart.openColumn p.grammar (some token)
    tally := { tally with
      scanned := tally.scanned + news.countP fun new => new.link.any (·.step == .scanned) } }) hg
  case hc => exact ⟨hopened.valid, hopened.nonempty⟩
  case hfits => exact fun new hnew => hp.read_fits (hreads news rfl new hnew)
  case hnodup => exact hnodup
  case hfresh => rwa [hlinks]
  case h => exact hexpects.openColumn (some token)

theorem Fills.reckoned (hg : g.Numbered) (hp : p.Healthy g) (h : p.Tallied) (hfills : p.Fills q) :
    q.Reckoned g := by
  obtain ⟨hgrammar, hclosable⟩ := hfills.closable hg hp
  refine ⟨hgrammar, hclosable, ?_⟩
  obtain rfl := hp.grammar_eq
  cases hfills with
  | first hstart herror hrules =>
      have hopened := Chart.closing_openColumn p.config.maxErrorValue none hp.valid (hp.idle herror)
      exact predict_tallied
        (p := { p with state := .seeding, chart := p.chart.openColumn p.grammar none })
        hg ⟨hopened.valid, hopened.nonempty⟩ hg.start (h.openColumn none)
  | next hstate herror hroom token news hread =>
      exact openColumn_tallied hg (hp.waiting hstate herror) h hread

theorem tallied_carried (hg : g.Numbered) : Carried g Tallied := by
  apply Carried.of_fills
  case hclosed => exact fun hp hfills h => ((hfills.reckoned hg hp h).closeColumn hg).tallied
  case hended => exact fun _ _ _ _ h => h

theorem tallied_of_empty (h : p.chart.columns = #[]) (htally : p.tally = .zero) : p.Tallied := by
  constructor <;> simp [htally, Tally.zero, Chart.links, Chart.linkedCount, Chart.marks,
    Chart.allItems, h, StepKind.countIn, List.product]

theorem Attained.tallied (hg : g.Numbered) (h : Attained g p) : p.Tallied := by
  induction h with
  | created config => exact tallied_of_empty rfl rfl
  | @performed p h operation ih =>
      have hcarried := tallied_carried hg
      have hhealthy := (h.intact hg).healthy
      cases operation with
      | setConfig config => exact ih
      | setCosts costs => exact ih
      | reset => exact tallied_of_empty rfl rfl
      | begin => exact hcarried.begun hhealthy ih
      | advance source => exact hcarried.advance hhealthy ih source
      | parse source => exact hcarried.parse hg hhealthy ih source
  | @timedOut p q h hfills steps elapsed ih =>
      exact (((hfills.reckoned hg (h.intact hg).healthy ih).closeFor hg steps).popped).tallied

end Parser

/-- The counts are those of a chart: of its items in all columns, which are the slots in use; of
its links over tokens; of its links beside the first of each item; and of its marks. -/
structure Tally.Describes (t : Tally) (g : Grammar) (c : Chart) : Prop where
  live : t.items = c.arena.live
  columns : t.items = c.itemCount
  items : t.items = c.allItems.length
  scanned : t.scanned = StepKind.scanned.countIn c.links
  corrections : t.corrections =
    StepKind.deleted.countIn c.links + StepKind.substituted.countIn c.links
  packed : t.packedLinks + c.linkedCount = c.links.length
  predictions : t.predictions = (c.marks g).length

namespace Parser

/-- Whatever was done with a parser, in every mode of repair, with every cost provider and
wherever the clock broke off a closure, its statistics describe its chart. -/
theorem statistics_exact (d : GrammarDef) (g : Grammar) (hd : d.toGrammar = .ok g) (p : Parser)
    (hp : Attained g p) : p.stats.tally.Describes g p.chart := by
  have hg := d.toGrammar_numbered g hd
  obtain ⟨hhealthy, howns, -⟩ := hp.intact hg
  have htallied := hp.tallied hg
  rw [Tallied, hhealthy.grammar_eq] at htallied
  have hcount : p.stats.tally.items = p.chart.itemCount :=
    htallied.items.trans (Chart.length_allItems hhealthy.valid.filed)
  have hscanned := htallied.scanned
  have hcorrections := htallied.corrections
  rw [List.append_nil] at hscanned hcorrections
  exact {
    live := by rw [hcount, howns.full.live, howns.count]
    columns := hcount
    items := htallied.items
    scanned := hscanned
    corrections := hcorrections
    packed := htallied.packed
    predictions := htallied.predictions }

def patched : Parser :=
  let p := withConfig repetition ⟨.onFailure, 5, 0, 0, 0, 0⟩
  ((p.perform (.setCosts (.uniform ⟨2, 5⟩))).2.perform
    (.parse (TokenStream.ofList [⟨0, "a", .start⟩, ⟨0, "a", .start⟩, ⟨1, "b", .start⟩]))).2

/-- The last token is dropped or read as an `a`. Eleven items have twenty links. -/
theorem statistics_exact_patched :
    patched.stats.tally = ⟨14, 9, 1, 1, 8, 2, 2⟩ ∧
      patched.chart.links.length = 20 ∧ patched.chart.linkedCount = 11 ∧
      patched.stats.tally.Describes repetition patched.chart := by
  have hattained : Attained repetition patched :=
    ((Attained.created _).performed (.setCosts _)).performed (.parse _)
  exact ⟨by decide +kernel, by decide +kernel, by decide +kernel,
    statistics_exact repetitionDef repetition rfl patched hattained⟩

end Parser

end EarleyChart
