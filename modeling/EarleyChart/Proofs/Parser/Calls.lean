import EarleyChart.Proofs.Chart.Calls
import EarleyChart.Proofs.Parser.InRange

/-!
The calls that the engine makes to its queue. They are told by functions that follow the
engine from the state it is in, down to the entering of single items. In every state that a
parser can be in the queue is in order, each call is allowed when its turn comes, and what is
queued lies in the column that is the newest then, whatever is done next.
-/

namespace EarleyChart
namespace Chart

/-- The queue holds items of the newest column, none of them twice, and its set says which
they are. -/
structure SoundQueue (c : Chart) : Prop where
  valid : c.worklist.Valid
  newest : ∀ id ∈ c.worklist.toList, id.column = c.current ∧ (c.item? id).isSome = true

theorem Filed.soundQueue {g : Grammar} {c : Chart} (h : c.Filed g) : c.SoundQueue := by
  refine ⟨h.queue, fun id hid => ?_⟩
  obtain ⟨hcolumn, hitem⟩ := h.queued id hid
  exact ⟨hcolumn, Option.isSome_iff_exists.mpr hitem⟩

def predictCalls (c : Chart) (g : Grammar) (symbol : SymbolId) : List QueueCall :=
  match c.marked? c.current symbol with
  | some false =>
      (c.modifyNewest (·.markPredicted symbol)).insertAllCalls g (c.predictions g symbol)
  | _ => []

def processCalls (c : Chart) (g : Grammar) (ceiling : Nat) (item : Item) : List QueueCall :=
  match g.next? item.rule item.dot with
  | none => c.insertAllCalls g (c.completions g ceiling item)
  | some symbol => if g.isNonterminal symbol then c.predictCalls g symbol else []

section process

variable {g : Grammar} (hg : g.Numbered) {c : Chart} (hc : c.Valid g)

theorem openColumn_proceeds (c : Chart) (g : Grammar) (token : Option Token) :
    c.Proceeds [] (c.openColumn g token) :=
  ⟨.of_worklist rfl, grows_openColumn token⟩

theorem popped_proceeds (c : Chart) : c.Proceeds [⟨c.current, .pop⟩] c.popped :=
  ⟨.single c.current rfl rfl, c.progresses_popped.grows⟩

include hg hc in
theorem predict_proceeds (hne : 0 < c.columns.size) (symbol : SymbolId) :
    c.Proceeds (c.predictCalls g symbol) (c.predict g symbol) := by
  rw [predict, predictCalls]
  cases c.marked? c.current symbol with
  | none => exact .refl c
  | some marked =>
      cases marked with
      | true => exact .refl c
      | false =>
          have hmarks := c.progresses_markNewest symbol
          have hmarked : c.Proceeds [] (c.modifyNewest (·.markPredicted symbol)) :=
            ⟨.of_worklist rfl, hmarks.grows⟩
          refine hmarked.trans (insertAll_proceeds hg (valid_markNewest g c symbol hc)
            (hmarks.size ▸ hne) fun new hnew => ?_)
          exact (predictions_fit hg symbol new hnew).grows hmarks.grows hmarks.current

include hg hc in
theorem process_proceeds (hne : 0 < c.columns.size) (ceiling : Nat) {id : ItemId} {item : Item}
    (hitem : c.item? id = some item) (hid : id.column = c.current) :
    c.Proceeds (c.processCalls g ceiling item) (c.process g ceiling item) := by
  rw [process, processCalls]
  cases hnext : g.next? item.rule item.dot with
  | none =>
      exact insertAll_proceeds hg hc hne
        (completions_fit hg hc ceiling id item hitem hid hnext)
  | some symbol =>
      dsimp only
      split
      · exact predict_proceeds hg hc hne symbol
      · exact .refl c

end process

end Chart

namespace Parser

def closeForCalls : Nat → Parser → List QueueCall
  | 0, _ => []
  | steps + 1, p =>
      ⟨p.chart.current, .pop⟩ ::
        match p.popItem with
        | (none, _) => []
        | (some id, p) =>
            match p.limitError?, p.item? id with
            | none, some item =>
                p.chart.processCalls p.grammar p.config.maxErrorValue item ++
                  closeForCalls steps (p.process item)
            | _, _ => []

def closeColumnCalls (p : Parser) : List QueueCall :=
  let p : Parser := { p with state := .closing }
  p.closeForCalls p.closureBound

def seedCalls (p : Parser) : List QueueCall :=
  let g := p.grammar
  if (g.rulesFor g.start).isEmpty then []
  else
    let p : Parser := { p with state := .seeding, chart := p.chart.openColumn g none }
    p.chart.predictCalls g g.start ++ (p.predict g.start).closeColumnCalls

def beginCalls (p : Parser) : List QueueCall :=
  match p.error, p.state with
  | none, .start => p.seedCalls
  | _, _ => []

def openColumnCalls (p : Parser) (token : Token) (news : List Candidate) : List QueueCall :=
  (p.chart.openColumn p.grammar (some token)).insertAllCalls p.grammar news ++
    (p.openColumn token news).closeColumnCalls

def feedTokenCalls (p : Parser) (token : Token) : List QueueCall :=
  if p.config.maxColumns > 0 ∧ p.columnCount ≥ p.config.maxColumns then []
  else
    match p.readings token with
    | (.ok (.ok news), p) => p.openColumnCalls token news
    | _ => []

def feedCalls (p : Parser) : TokenAnswer → List QueueCall
  | .ok (some token) => p.feedTokenCalls token
  | _ => []

def advanceCalls {σ : Type} [TokenSource σ] (p : Parser) (source : σ) : List QueueCall :=
  match p.settled? with
  | some _ => []
  | none =>
      if p.state = .start then p.beginCalls else p.feedCalls (TokenSource.next source).1

def parseTokensCalls {σ : Type} [TokenSource σ] (p : Parser) (source : σ) : List QueueCall :=
  match h : TokenSource.next source with
  | (.ok (some token), rest) =>
      p.feedTokenCalls token ++
        match p.feedToken token with
        | (.ok .more, p) =>
            have := TokenSource.size_next h
            parseTokensCalls p rest
        | _ => []
  | _ => []
termination_by TokenSource.size source

def parseCalls {σ : Type} [TokenSource σ] (p : Parser) (source : σ) : List QueueCall :=
  match p.settled? with
  | some _ => []
  | none =>
      p.beginCalls ++
        match p.begin with
        | (.error _, _) => []
        | (.ok (), p) => p.parseTokensCalls source

def calls (p : Parser) : Operation → List QueueCall
  | .setConfig _ | .setCosts _ => []
  | .reset => [⟨p.chart.current, .clear⟩]
  | .begin => p.beginCalls
  | @Operation.advance _ _ source => p.advanceCalls source
  | @Operation.parse _ _ source => p.parseCalls source

section closure

variable {p : Parser} (hg : p.grammar.Numbered)

theorem closeForCalls_succ (p : Parser) (steps : Nat) : p.closeForCalls (steps + 1) =
    ⟨p.chart.current, .pop⟩ ::
      match p.chart.worklist.pop.1 with
      | none => []
      | some id =>
          match p.popped.limitError?, p.popped.item? id with
          | none, some item =>
              p.popped.chart.processCalls p.grammar p.config.maxErrorValue item ++
                (p.popped.process item).closeForCalls steps
          | _, _ => [] := by
  rw [closeForCalls, popItem_eq]
  cases p.chart.worklist.pop.1 with
  | none => rfl
  | some id => rfl

include hg in
theorem closeFor_proceeds (hc : p.chart.Closable p.grammar) (steps : Nat) :
    p.chart.Proceeds (p.closeForCalls steps) (p.closeFor steps).1.chart := by
  induction steps generalizing p with
  | zero => exact .refl p.chart
  | succ steps ih =>
      have hpopped := p.chart.popped_proceeds
      rw [closeForCalls_succ, closeFor_succ]
      cases hpop : p.chart.worklist.pop.1 with
      | none =>
          rw [Chart.popped, p.chart.worklist.pop_none_eq hpop] at hpopped
          exact hpopped
      | some id =>
          have htaken := continues_popped hc hpop
          have hclosable := htaken.closable
          obtain ⟨hid, item, hitem⟩ := Chart.popped_item hc.valid.filed id hpop
          have hget : p.popped.item? id = some item := hitem
          dsimp only
          cases p.popped.limitError? with
          | some e => exact hpopped
          | none =>
              rw [hget]
              have hprocess : p.popped.chart.Proceeds
                  (p.popped.chart.processCalls p.grammar p.config.maxErrorValue item)
                  (p.popped.process item).chart := by
                obtain ⟨tally, heq⟩ := process_eq p.popped item
                rw [heq]
                exact Chart.process_proceeds hg hclosable.valid hclosable.nonempty
                  p.config.maxErrorValue hitem hid
              have hcontinues :=
                htaken.trans (continues_process (p := p.popped) hg hclosable hget hid)
              have hnext := hcontinues.closable
              rw [← hcontinues.grammar_eq] at hg hnext
              exact hpopped.trans (hprocess.trans (ih hg hnext))

include hg in
theorem closeColumn_proceeds (hc : p.chart.Closable p.grammar) :
    p.chart.Proceeds p.closeColumnCalls p.closeColumn.2.chart := by
  rw [closeColumn_chart]
  exact closeFor_proceeds (p := { p with state := .closing }) hg hc _

end closure

section run

variable {g : Grammar} (hg : g.Numbered) {p : Parser}

include hg in
theorem seed_proceeds (h : p.Healthy g) (herror : p.error = none) :
    p.chart.Proceeds p.seedCalls p.seed.2.chart := by
  have hclosable := h.seeded_closable hg herror
  obtain ⟨rfl, hc, hidle, -⟩ := h
  rw [seedCalls, seed]
  split
  · exact .refl p.chart
  · have hopened := Chart.closing_openColumn p.config.maxErrorValue none hc (hidle herror)
    have hpredicts := Chart.predict_proceeds hg hopened.valid hopened.nonempty p.grammar.start
    obtain ⟨tally, hseeded⟩ := p.exists_seeded
    dsimp only
    rw [hseeded]
    have hcloses := closeColumn_proceeds (p := p.seeded tally) hg (hclosable tally)
    exact (p.chart.openColumn_proceeds p.grammar none).trans (hpredicts.trans hcloses)

include hg in
theorem begin_proceeds (h : p.Healthy g) :
    p.chart.Proceeds p.beginCalls p.begin.2.chart := by
  rw [beginCalls, begin]
  cases herror : p.error with
  | some e => exact .refl p.chart
  | none =>
      cases p.state with
      | start => exact seed_proceeds hg h herror
      | seeding | closing | scanning | accepted | rejected => exact .refl p.chart

include hg in
theorem feedToken_proceeds (h : p.Scanning g) (token : Token) :
    p.chart.Proceeds (p.feedTokenCalls token) (p.feedToken token).2.chart := by
  obtain rfl := h.grammar_eq
  obtain ⟨result, requests, tally, heq, hread⟩ := readings_read hg h.valid.filed token
  rw [feedTokenCalls, feedToken]
  split
  · exact .refl p.chart
  rw [heq]
  rcases result with e | why | news
  · exact .refl p.chart
  · exact .refl p.chart
  · have hreads := hread news rfl
    obtain ⟨tally', hopen⟩ := p.exists_opened token news requests tally
    have hopened := Chart.closing_openColumn p.config.maxErrorValue (some token) h.valid h.idle
    have henters := Chart.insertAll_proceeds hg hopened.valid hopened.nonempty
      fun new hnew => h.read_fits (hreads new hnew)
    have hcloses := closeColumn_proceeds (p := p.opened token news requests tally') hg
      (h.opened_closable hg hreads requests tally')
    dsimp only
    rw [openColumnCalls, hopen]
    exact (p.chart.openColumn_proceeds p.grammar (some token)).trans (henters.trans hcloses)

include hg in
theorem feed_proceeds (h : p.Scanning g) (answer : TokenAnswer) :
    p.chart.Proceeds (p.feedCalls answer) (p.feed answer).2.chart := by
  rcases answer with cause | ⟨⟩ | token
  · exact .refl p.chart
  · change p.chart.Proceeds [] p.finish.2.chart
    rw [finish]
    split <;> exact .refl p.chart
  · exact feedToken_proceeds hg h token

include hg in
theorem advance_proceeds (h : p.Healthy g) {σ : Type} [TokenSource σ] (source : σ) :
    p.chart.Proceeds (p.advanceCalls source) (p.advance source).parser.chart := by
  rw [advanceCalls, advance]
  cases hsettled : p.settled? with
  | some result => exact .refl p.chart
  | none =>
      dsimp only
      split
      · exact begin_proceeds hg h
      · next hstart => exact feed_proceeds hg (h.scanning hsettled hstart) _

theorem parseTokensCalls_next {σ : Type} [TokenSource σ] {source rest : σ}
    {answer : TokenAnswer} (hnext : TokenSource.next source = (answer, rest)) :
    p.parseTokensCalls source = p.feedCalls answer ++ match p.feed answer with
      | (.ok .more, next) => next.parseTokensCalls rest
      | _ => [] := by
  rw [parseTokensCalls]
  split
  · next token after heq =>
      obtain ⟨rfl, rfl⟩ := Prod.mk.inj (hnext.symm.trans heq)
      rfl
  · next hother =>
      rcases answer with cause | ⟨⟩ | token
      · rfl
      · rfl
      · exact absurd hnext (hother token rest)

include hg in
theorem parseTokens_proceeds {σ : Type} [TokenSource σ] (source : σ) (h : p.Scanning g) :
    p.chart.Proceeds (p.parseTokensCalls source) (p.parseTokens source).parser.chart := by
  induction hn : TokenSource.size source using Nat.strong_induction_on generalizing p source with
  | _ n ih =>
  cases hnext : TokenSource.next source with
  | mk answer rest =>
      have hfeed := feed_proceeds hg h answer
      have hscanning := (feed_healthy hg h answer).1
      have hmore := feed_more (p := p) answer
      rw [parseTokensCalls_next hnext, parseTokens_next hnext]
      generalize p.feed answer = fed at hfeed hscanning hmore
      obtain ⟨result, next⟩ := fed
      rcases result with e | ⟨⟩ | verdict
      · exact hfeed.trans (.refl _)
      · obtain ⟨token, rfl⟩ := hmore rfl
        exact hfeed.trans (ih _ (hn ▸ TokenSource.size_next hnext) rest (hscanning rfl) rfl)
      · exact hfeed.trans (.refl _)

include hg in
theorem parse_proceeds (h : p.Healthy g) {σ : Type} [TokenSource σ] (source : σ) :
    p.chart.Proceeds (p.parseCalls source) (p.parse source).parser.chart := by
  rw [parseCalls, parse]
  cases hsettled : p.settled? with
  | some result => exact .refl p.chart
  | none =>
      have hbegin := begin_proceeds hg h
      have hscanning := begin_scanning hg h hsettled
      dsimp only
      generalize p.begin = begun at hbegin hscanning
      rcases begun with ⟨e | ⟨⟩, next⟩
      · exact hbegin.trans (.refl next.chart)
      · exact hbegin.trans (parseTokens_proceeds hg source (hscanning rfl))

include hg in
theorem perform_queues (h : p.Healthy g) (operation : Operation) :
    p.chart.Queues (p.calls operation) (p.perform operation).2.chart := by
  cases operation with
  | setConfig config | setCosts costs => exact .of_worklist rfl
  | reset => exact .single p.chart.current rfl rfl
  | begin => exact (begin_proceeds hg h).toQueues
  | advance source => exact (advance_proceeds hg h source).toQueues
  | parse source => exact (parse_proceeds hg h source).toQueues

end run

/-- In every state that a parser can be in, wherever the clock broke off a closure, the queue
holds items of the newest column, none of them twice, and its set says which they are. From
there on it stays in order under all calls that push no item that waits. The engine makes
no other calls, neither in a closure, however far it goes, nor in any operation, whatever its
source answers, and it queues items of the column that is the newest then. -/
theorem queue_in_order (d : GrammarDef) (g : Grammar) (hd : d.toGrammar = .ok g)
    (p : Parser) (hp : Attained g p) :
    p.chart.SoundQueue ∧
      (∀ calls, p.chart.worklist.Admits calls → p.chart.worklist.Orderly calls) ∧
      (∀ q, p.Fills q → ∀ steps, (q.closeFor steps).1.chart.SoundQueue ∧
        q.chart.Queues (q.closeForCalls steps) (q.closeFor steps).1.chart) ∧
      ∀ operation, p.chart.Queues (p.calls operation) (p.perform operation).2.chart ∧
        ∀ made, made <+: (p.calls operation).map (·.call) → p.chart.worklist.Orderly made := by
  have hg := d.toGrammar_numbered g hd
  have hhealthy := (hp.intact hg).healthy
  have hqueue := hhealthy.valid.filed.queue
  refine ⟨hhealthy.valid.filed.soundQueue, fun calls => hqueue.orderly, ?_, ?_⟩
  · intro q hfills steps
    obtain ⟨rfl, hc⟩ := hfills.closable hg hhealthy
    have hclosable := (closeFor_continues hg hc steps).closable
    exact ⟨hclosable.valid.filed.soundQueue, (closeFor_proceeds hg hc steps).toQueues⟩
  · intro operation
    have hqueues := perform_queues hg hhealthy operation
    refine ⟨hqueues, ?_⟩
    rintro made ⟨more, hmore⟩
    have hadmits := hqueues.admits
    rw [← hmore, Worklist.admits_append] at hadmits
    exact hqueue.orderly hadmits.1

/-- The closure that the clock breaks off has taken three items and queued two. What is left
is served in order, and cleared when the parser is used again. -/
theorem queue_in_order_overtime :
    let calls : List Worklist.Call := [.pushUnique ⟨0, 4⟩, .push ⟨0, 5⟩, .pop]
    let source := TokenStream.ofList [⟨0, "a", .start⟩]
    let run := overtime.reset.calls (.parse source)
    primed.closeForCalls 3 =
        [⟨0, .pop⟩, ⟨0, .pop⟩, ⟨0, .pop⟩, ⟨0, .push ⟨0, 3⟩⟩, ⟨0, .push ⟨0, 4⟩⟩] ∧
      primed.chart.Queues (primed.closeForCalls 3) (primed.closeFor 3).1.chart ∧
      overtime.chart.SoundQueue ∧ overtime.chart.worklist.toList = [⟨0, 4⟩] ∧
      overtime.chart.worklist.Orderly calls ∧ overtime.chart.worklist.left calls = [⟨0, 4⟩] ∧
      (overtime.chart.worklist.makeAll calls).toList = [⟨0, 5⟩] ∧
      overtime.calls .reset = [⟨0, .clear⟩] ∧
      overtime.chart.Queues (overtime.calls .reset) (overtime.perform .reset).2.chart ∧
      run.length = 18 ∧
      overtime.reset.chart.Queues run (overtime.reset.perform (.parse source)).2.chart ∧
      overtime.reset.chart.worklist.Orderly ((run.map (·.call)).take 8) := by
  intro calls source run
  have hcreated : Attained repetition (withConfig repetition ⟨.disabled, 3, 0, 0, 5, 0⟩) :=
    .created _
  have hfills : (withConfig repetition ⟨.disabled, 3, 0, 0, 5, 0⟩).Fills primed :=
    .first rfl rfl (by decide +kernel)
  have hattained : Attained repetition overtime := .timedOut hcreated hfills 3 6
  have hwaits : overtime.chart.worklist.toList = [⟨0, 4⟩] := by decide +kernel
  have hfresh : ⟨0, 5⟩ ∉ (overtime.chart.worklist.pushUnique ⟨0, 4⟩).toList := by decide +kernel
  have hadmits : overtime.chart.worklist.Admits calls := ⟨trivial, hfresh, trivial, trivial⟩
  obtain ⟨-, -, hcloses, -⟩ := queue_in_order repetitionDef repetition rfl _ hcreated
  obtain ⟨hqueue, hserves, -, hoperates⟩ :=
    queue_in_order repetitionDef repetition rfl overtime hattained
  obtain ⟨-, -, -, hagain⟩ :=
    queue_in_order repetitionDef repetition rfl overtime.reset (hattained.performed .reset)
  exact ⟨by decide +kernel, (hcloses primed hfills 3).2, hqueue, hwaits, hserves calls hadmits,
    by decide +kernel, by decide +kernel, by decide +kernel, (hoperates .reset).1,
    by decide +kernel, (hagain (.parse source)).1,
    (hagain (.parse source)).2 _ (List.take_prefix 8 _)⟩

end Parser
end EarleyChart
