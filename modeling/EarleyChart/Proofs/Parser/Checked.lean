import EarleyChart.Proofs.Chart.Checked
import EarleyChart.Proofs.Parser.Filling
import EarleyChart.Proofs.Parser.History
import EarleyChart.Proofs.Parser.Tables

/-!
The engine with its lookups checked. It goes on as the engine does, and gives up where a
rule, a symbol, a column or a slot is not in its table. In every state that a parser can be
in it never gives up, whatever is done next.
-/

namespace EarleyChart
namespace Parser

def checkedInsert (p : Parser) (new : Candidate) : Option Parser :=
  (p.chart.checkedInsert p.grammar new).map fun (chart, outcome) =>
    { p with chart := chart, tally := p.tally.record outcome }

def checkedInsertAll (p : Parser) (news : List Candidate) : Option Parser :=
  news.foldlM checkedInsert p

def checkedPredict (p : Parser) (symbol : SymbolId) : Option Parser :=
  match p.chart.marked? p.chart.current symbol with
  | none => none
  | some true => some p
  | some false => do
      let news ← p.chart.checkedPredictions p.grammar symbol
      let p := { p with
        chart := p.chart.modifyNewest (·.markPredicted symbol)
        tally := { p.tally with predictions := p.tally.predictions + 1 } }
      p.checkedInsertAll news

def checkedComplete (p : Parser) (item : Item) : Option Parser := do
  let news ← p.chart.checkedCompletions p.grammar p.config.maxErrorValue item
  let p := { p with tally := { p.tally with completions := p.tally.completions + 1 } }
  p.checkedInsertAll news

def checkedProcess (p : Parser) (item : Item) : Option Parser := do
  match ← p.grammar.checkedNext item.rule item.dot with
  | none => p.checkedComplete item
  | some symbol => if p.grammar.isNonterminal symbol then p.checkedPredict symbol else some p

def checkedCloseFor : Nat → Parser → Option (Parser × Option ParseError)
  | 0, p => some (p, none)
  | steps + 1, p =>
      match p.popItem with
      | (none, p) => some (p, none)
      | (some id, p) =>
          match p.limitError? with
          | some e => some (p, some e)
          | none => do
              match ← p.chart.checkedItem id with
              | none => some (p, some (.internal s!"queued item {id.render} is not in the chart"))
              | some item => checkedCloseFor steps (← p.checkedProcess item)

def checkedCloseColumn (p : Parser) : Option (Except ParseError Unit × Parser) := do
  let p : Parser := { p with state := .closing }
  match ← p.checkedCloseFor p.closureBound with
  | (p, some e) => some (.error e, p.fail e)
  | (p, none) => some (.ok (), { p with state := .scanning })

def checkedSeed (p : Parser) : Option (Except ParseError Unit × Parser) := do
  let g := p.grammar
  let rules ← g.checkedRulesFor g.start
  if rules.isEmpty then
    let e : ParseError :=
      .invalidGrammar s!"start symbol '{g.symbolName g.start}' has no productions"
    some (.error e, p.fail e)
  else
    let p : Parser := { p with state := .seeding, chart := p.chart.openColumn g none }
    (← p.checkedPredict g.start).checkedCloseColumn

def checkedBegin (p : Parser) : Option (Except ParseError Unit × Parser) :=
  match p.error, p.state with
  | some e, _ => some (.error e, p)
  | none, .start => p.checkedSeed
  | none, _ => some (.ok (), p)

def checkedOpenColumn (p : Parser) (token : Token) (news : List Candidate) : Option Parser :=
  let scanned := news.countP fun new => new.link.any (·.step == .scanned)
  let p := { p with
    chart := p.chart.openColumn p.grammar (some token)
    tally := { p.tally with scanned := p.tally.scanned + scanned } }
  p.checkedInsertAll news

def checkedExpected (p : Parser) : Option (List SymbolId) :=
  (p.chart.columns[p.chart.current]?).map (·.expectedTerminals p.grammar)

def checkedCorrect (p : Parser) (found : Token) :
    Option (Except ParseError Corrections × Parser) := do
  let _ ← p.chart.checkedWaitingItems p.grammar
  return p.correct found

def checkedReadings (p : Parser) (token : Token) :
    Option (Except ParseError (Except Rejection (List Candidate)) × Parser) := do
  let column := p.chart.current
  let scans ← p.chart.checkedScans p.grammar token
  match p.config.recovery with
  | .disabled =>
      if scans.isEmpty then
        let expected ← p.checkedExpected
        return (.ok (.error (.unexpectedToken column token expected)), p)
      else return (.ok (.ok scans), p)
  | .onFailure =>
      if scans.isEmpty then
        let (corrections, p) ← p.checkedCorrect token
        return (corrections.map (·.reading column token []), p)
      else return (.ok (.ok scans), p)
  | .continuous =>
      let (corrections, p) ← p.checkedCorrect token
      return (corrections.map (·.reading column token scans), p)

def checkedFeedToken (p : Parser) (token : Token) :
    Option (Except ParseError Progress × Parser) :=
  if p.config.maxColumns > 0 ∧ p.columnCount ≥ p.config.maxColumns then
    let e : ParseError := .inputTooLarge (p.columnCount + 1) p.config.maxColumns
    some (.error e, p.fail e)
  else do
    match ← p.checkedReadings token with
    | (.error e, p) => some (.error e, p.fail e)
    | (.ok (.error why), p) =>
        let (verdict, p) := p.reject why
        some (.ok (.done verdict), p)
    | (.ok (.ok news), p) =>
        let (closed, p) ← (← p.checkedOpenColumn token news).checkedCloseColumn
        return (closed.map fun _ => .more, p)

def checkedFinish (p : Parser) : Option (Verdict × Parser) := do
  let column ← p.chart.columns[p.chart.current]?
  if column.completed then return p.accept
  else
    let expected := column.expectedTerminals p.grammar
    return p.reject (.unexpectedEnd p.chart.current p.endLocation expected)

def checkedFeed (p : Parser) : TokenAnswer → Option (Except ParseError Progress × Parser)
  | .error cause => some (.error (.lex cause), p.fail (.lex cause))
  | .ok none => do
      let (verdict, p) ← p.checkedFinish
      return (.ok (.done verdict), p)
  | .ok (some token) => p.checkedFeedToken token

def checkedAdvance {σ : Type} [TokenSource σ] (p : Parser) (source : σ) : Option (Advance σ) :=
  match p.settled? with
  | some result => some ⟨result.map .done, p, source⟩
  | none =>
      if p.state = .start then do
        let (begun, p) ← p.checkedBegin
        return ⟨begun.map fun _ => .more, p, source⟩
      else do
        let (answer, source) := TokenSource.next source
        let (result, p) ← p.checkedFeed answer
        return ⟨result, p, source⟩

def checkedParseTokens {σ : Type} [TokenSource σ] (p : Parser) (source : σ) :
    Option (Outcome σ) :=
  match h : TokenSource.next source with
  | (.ok (some token), rest) =>
      match p.checkedFeedToken token with
      | none => none
      | some (.ok .more, p) =>
          have := TokenSource.size_next h
          checkedParseTokens p rest
      | some (.ok (.done verdict), p) => some ⟨.ok verdict, p, rest⟩
      | some (.error e, p) => some ⟨.error e, p, rest⟩
  | (.ok none, rest) => do
      let (verdict, p) ← p.checkedFinish
      return ⟨.ok verdict, p, rest⟩
  | (.error cause, rest) => some ⟨.error (.lex cause), p.fail (.lex cause), rest⟩
termination_by TokenSource.size source

def checkedParse {σ : Type} [TokenSource σ] (p : Parser) (source : σ) : Option (Outcome σ) :=
  match p.settled? with
  | some result => some ⟨result, p, source⟩
  | none => do
      match ← p.checkedBegin with
      | (.error e, p) => return ⟨.error e, p, source⟩
      | (.ok (), p) => p.checkedParseTokens source

def checkedReset (p : Parser) : Option Parser := do
  let chart ← p.chart.checkedClear
  return { p.reset with chart := chart }

def checkedPerform (p : Parser) : Operation → Option (Answer × Parser)
  | .setConfig config => some (.silent, p.setConfig config)
  | .setCosts costs => some (.silent, p.setCosts costs)
  | .reset => p.checkedReset.map (.silent, ·)
  | .begin => p.checkedBegin.map fun (result, p) => (.begun result, p)
  | @Operation.advance _ _ source =>
      (p.checkedAdvance source).map fun step => (.advanced step.result step.source, step.parser)
  | @Operation.parse _ _ source =>
      (p.checkedParse source).map fun run => (.parsed run.result run.source, run.parser)

section closure

variable {p : Parser} (hg : p.grammar.Numbered)

include hg in
theorem checkedInsertAll_eq (hc : p.chart.Filed p.grammar) (hne : 0 < p.chart.columns.size)
    (news : List Candidate) (hdot : ∀ new ∈ news, p.grammar.HasDot new.rule new.dot) :
    p.checkedInsertAll news = some (p.insertAll news) := by
  induction news generalizing p with
  | nil => rfl
  | cons new news ih =>
      have hnew := hdot new List.mem_cons_self
      obtain ⟨-, hfiled, hframe⟩ := p.chart.insert_entered p.grammar hg hc hne new hnew
      have hrest := ih (p := p.insert new) hg hfiled (by rw [← hframe.size] at hne; exact hne)
        fun other hother => hdot other (List.mem_cons_of_mem new hother)
      rw [checkedInsertAll, List.foldlM_cons, checkedInsert, Chart.checkedInsert_eq hg hc hne hnew]
      exact hrest

include hg in
theorem checkedPredict_eq (hc : p.chart.Filed p.grammar) (hne : 0 < p.chart.columns.size)
    {symbol : SymbolId} (hsymbol : p.grammar.isNonterminal symbol = true) :
    p.checkedPredict symbol = some (p.predict symbol) := by
  obtain ⟨marked, hmarked⟩ := Chart.marked_isSome hc hne
    ((p.grammar.isNonterminal_iff symbol).mp hsymbol).2
  rw [checkedPredict, predict_def, hmarked]
  cases marked with
  | true => rfl
  | false =>
      have hfiled : (p.marking symbol).chart.Filed p.grammar :=
        Chart.filed_markNewest p.grammar p.chart hc symbol
      have hsize : (p.marking symbol).chart.columns.size = p.chart.columns.size :=
        (p.chart.current_markNewest symbol).1
      rw [Chart.checkedPredictions_eq hg hsymbol]
      exact checkedInsertAll_eq (p := p.marking symbol) hg hfiled (hsize ▸ hne) _
        fun new hnew => (Chart.predictions_fit hg symbol new hnew).dot

include hg in
/-- An item of the newest column finds its rule, and a completed one its first column. -/
theorem checkedProcess_eq (hc : p.chart.Closable p.grammar) {id : ItemId} {item : Item}
    (hitem : p.item? id = some item) (hid : id.column = p.chart.current) :
    p.checkedProcess item = some (p.process item) := by
  obtain ⟨hvalid, hne⟩ := hc
  have hfits := hvalid.item id item hitem
  rw [checkedProcess, process, Grammar.checkedNext_eq hfits.dot, Option.bind_eq_bind,
    Option.bind_some]
  cases hnext : p.grammar.next? item.rule item.dot with
  | none =>
      have horigin : item.origin < p.chart.columns.size := by
        have := hfits.origin
        rw [hid, Chart.current] at this
        omega
      simp only [checkedComplete, complete,
        Chart.checkedCompletions_eq hvalid.filed p.config.maxErrorValue hfits.dot horigin]
      exact checkedInsertAll_eq
        (p := { p with tally := { p.tally with completions := p.tally.completions + 1 } })
        hg hvalid.filed hne _ fun new hnew =>
          (Chart.completions_fit hg hvalid p.config.maxErrorValue id item hitem hid hnext new
            hnew).dot
  | some symbol =>
      simp only
      split
      · next hsymbol => exact checkedPredict_eq hg hvalid.filed hne hsymbol
      · rfl

include hg in
/-- The closure finds whatever it looks up, however far it goes. -/
theorem checkedCloseFor_eq (hc : p.chart.Closable p.grammar) (steps : Nat) :
    p.checkedCloseFor steps = some (p.closeFor steps) := by
  induction steps generalizing p with
  | zero => rfl
  | succ steps ih =>
      rw [checkedCloseFor, closeFor, popItem_eq]
      cases hpop : p.chart.worklist.pop.1 with
      | none => rfl
      | some id =>
          have hpopped := continues_popped hc hpop
          obtain ⟨hid, item, hitem⟩ := Chart.popped_item hc.valid.filed id hpop
          have hget : p.popped.item? id = some item := hitem
          have hchecked : p.popped.chart.checkedItem id = some (some item) := by
            rw [← hitem]
            exact Chart.checkedItem_eq hpopped.closable.valid.filed id
          simp only
          cases p.popped.limitError? with
          | some e => rfl
          | none =>
              have hnext := continues_process (p := p.popped) hg hpopped.closable hget hid
              have hprocess := checkedProcess_eq (p := p.popped) hg hpopped.closable hget hid
              have hclosable := (hpopped.trans hnext).closable
              rw [← (hpopped.trans hnext).grammar_eq] at hg hclosable
              simp only [hchecked, hget, hprocess, Option.bind_eq_bind, Option.bind_some]
              exact ih hg hclosable

include hg in
theorem checkedOpenColumn_eq (hc : p.chart.Filed p.grammar)
    (hidle : p.chart.worklist.toList = []) (token : Token) (news : List Candidate)
    (hdot : ∀ new ∈ news, p.grammar.HasDot new.rule new.dot) :
    p.checkedOpenColumn token news = some (p.openColumn token news) := by
  have hsize : 0 < (p.chart.openColumn p.grammar (some token)).columns.size := by
    rw [(p.chart.current_openColumn p.grammar (some token)).1]
    exact Nat.succ_pos _
  have hfiled := Chart.filed_openColumn p.grammar p.chart hc hidle (some token)
  exact checkedInsertAll_eq
    (p := { p with
      chart := p.chart.openColumn p.grammar (some token)
      tally := { p.tally with
        scanned := p.tally.scanned +
          news.countP fun new => new.link.any (·.step == .scanned) } }) hg hfiled hsize news hdot

include hg in
theorem checkedCloseColumn_eq (hc : p.chart.Closable p.grammar) :
    p.checkedCloseColumn = some p.closeColumn := by
  have hclose := checkedCloseFor_eq (p := { p with state := .closing }) hg hc
    ({ p with state := .closing } : Parser).closureBound
  rw [checkedCloseColumn, hclose, Option.bind_eq_bind, Option.bind_some, closeColumn, close]
  generalize closeFor _ _ = closed
  obtain ⟨q, error?⟩ := closed
  cases error? with
  | none => rfl
  | some e => rfl

end closure

section run

variable {g : Grammar} (hg : g.Numbered) {p : Parser}

include hg in
theorem checkedBegin_eq (h : p.Healthy g) : p.checkedBegin = some p.begin := by
  obtain rfl := h.grammar_eq
  rw [checkedBegin, begin]
  cases herror : p.error with
  | some e => rfl
  | none =>
      cases hstate : p.state with
      | seeding | closing | scanning | accepted | rejected => rfl
      | start =>
          have hopened := Chart.closing_openColumn p.config.maxErrorValue none h.valid
            (h.idle herror)
          have hpredict := checkedPredict_eq
            (p := { p with state := .seeding, chart := p.chart.openColumn p.grammar none })
            hg hopened.valid.filed hopened.nonempty hg.start
          obtain ⟨tally, hpredicted⟩ := p.exists_seeded
          simp only [checkedSeed, seed, Grammar.checkedRulesFor_eq hg hg.start, Option.bind_eq_bind,
            Option.bind_some]
          split
          · rfl
          · rw [hpredict, Option.bind_some, hpredicted]
            exact checkedCloseColumn_eq (p := p.seeded tally) hg
              (h.seeded_closable hg herror tally)

/-- A run that waits for a token has a newest column. -/
theorem Scanning.newest (h : p.Scanning g) : ∃ column,
    p.chart.columns[p.chart.current]? = some column ∧ p.chart.newest? = some column := by
  obtain ⟨column, hcolumn⟩ := p.chart.newest_of_size h.nonempty
  refine ⟨column, hcolumn, ?_⟩
  rwa [Chart.newest?, Array.back?_eq_getElem?]

theorem checkedReadings_eq (h : p.Scanning g) (token : Token) :
    p.checkedReadings token = some (p.readings token) := by
  obtain ⟨column, hcolumn, hnewest⟩ := h.newest
  obtain ⟨rfl, hvalid, -⟩ := h
  have hexpected : p.checkedExpected = some p.expectedTerminals := by
    rw [checkedExpected, expectedTerminals, hcolumn, hnewest]
    rfl
  have hcorrect : p.checkedCorrect token = some (p.correct token) := by
    rw [checkedCorrect, Chart.checkedWaitingItems_eq hvalid.filed]
    rfl
  rw [checkedReadings, Chart.checkedScans_eq hvalid.filed, readings]
  simp only [hexpected, hcorrect, Option.bind_eq_bind, Option.bind_some]
  cases p.config.recovery with
  | disabled => exact (apply_ite some _ _ _).symm
  | onFailure => exact (apply_ite some _ _ _).symm
  | continuous => rfl

theorem checkedFinish_eq (h : p.Scanning g) : p.checkedFinish = some p.finish := by
  obtain ⟨column, hcolumn, hnewest⟩ := h.newest
  rw [checkedFinish, finish, hcolumn, hnewest, expectedTerminals, hnewest]
  exact (apply_ite some _ _ _).symm

/-- The checks do fail, here without a column to end the input in. -/
example : ({ withConfig pair .standard with state := .scanning } : Parser).checkedFinish.isNone =
    true := rfl

include hg in
theorem checkedFeedToken_eq (h : p.Scanning g) (token : Token) :
    p.checkedFeedToken token = some (p.feedToken token) := by
  have hreadings := checkedReadings_eq h token
  rw [checkedFeedToken, feedToken]
  split
  · rfl
  obtain rfl := h.grammar_eq
  obtain ⟨result, requests, tally, heq, hread⟩ := readings_read hg h.valid.filed token
  rw [hreadings, heq]
  cases result with
  | error e => rfl
  | ok result =>
      cases result with
      | error why => rfl
      | ok news =>
          let asked : Parser := { p with requests := requests, tally := tally }
          have hopen : asked.checkedOpenColumn token news = some (asked.openColumn token news) :=
            checkedOpenColumn_eq (p := asked) hg h.valid.filed h.idle token news fun new hnew =>
              (h.read_fits (hread news rfl new hnew)).dot
          obtain ⟨tally', hfilled⟩ := p.exists_opened token news requests tally
          have hclosable := h.opened_closable hg (hread news rfl) requests tally'
          have hclose := checkedCloseColumn_eq (p := p.opened token news requests tally') hg
            hclosable
          simp only [asked] at hopen
          simp only [hopen, hfilled, hclose, Option.bind_eq_bind, Option.bind_some]
          rfl

include hg in
theorem checkedFeed_eq (h : p.Scanning g) (answer : TokenAnswer) :
    p.checkedFeed answer = some (p.feed answer) := by
  cases answer with
  | error cause => rfl
  | ok token? =>
      cases token? with
      | none =>
          rw [checkedFeed, checkedFinish_eq h]
          rfl
      | some token => exact checkedFeedToken_eq hg h token

variable {σ : Type} [TokenSource σ] (source : σ)

include hg in
theorem checkedAdvance_eq (h : p.Healthy g) :
    p.checkedAdvance source = some (p.advance source) := by
  rw [checkedAdvance, advance]
  cases hsettled : p.settled? with
  | some result => rfl
  | none =>
      simp only
      split
      · rw [checkedBegin_eq hg h]
        rfl
      · next hstate =>
          rw [checkedFeed_eq hg (h.scanning hsettled hstate)]
          rfl

theorem checkedParseTokens_next {source rest : σ} {answer : TokenAnswer}
    (hnext : TokenSource.next source = (answer, rest)) :
    p.checkedParseTokens source = match p.checkedFeed answer with
      | none => none
      | some (.ok .more, next) => next.checkedParseTokens rest
      | some (.ok (.done verdict), next) => some ⟨.ok verdict, next, rest⟩
      | some (.error e, next) => some ⟨.error e, next, rest⟩ := by
  rw [checkedParseTokens]
  split
  · next token after heq =>
      obtain ⟨rfl, rfl⟩ := Prod.mk.inj (hnext.symm.trans heq)
      rfl
  · next after heq =>
      obtain ⟨rfl, rfl⟩ := Prod.mk.inj (hnext.symm.trans heq)
      rw [checkedFeed]
      cases p.checkedFinish <;> rfl
  · next cause after heq =>
      obtain ⟨rfl, rfl⟩ := Prod.mk.inj (hnext.symm.trans heq)
      rfl

include hg in
theorem checkedParseTokens_eq (h : p.Scanning g) :
    p.checkedParseTokens source = some (p.parseTokens source) := by
  induction hn : TokenSource.size source using Nat.strong_induction_on generalizing p source with
  | _ n ih =>
  cases hnext : TokenSource.next source with
  | mk answer rest =>
      have hscanning := (feed_healthy hg h answer).1
      have hmore := feed_more (p := p) answer
      rw [checkedParseTokens_next hnext, parseTokens_next hnext, checkedFeed_eq hg h]
      generalize p.feed answer = fed at hscanning hmore
      obtain ⟨result, next⟩ := fed
      cases result with
      | error e => rfl
      | ok progress =>
          cases progress with
          | done verdict => rfl
          | more =>
              obtain ⟨token, rfl⟩ := hmore rfl
              exact ih _ (hn ▸ TokenSource.size_next hnext) rest (hscanning rfl) rfl

include hg in
theorem checkedParse_eq (h : p.Healthy g) : p.checkedParse source = some (p.parse source) := by
  rw [checkedParse, parse]
  cases hsettled : p.settled? with
  | some result => rfl
  | none =>
      have hscanning := begin_scanning hg h hsettled
      rw [checkedBegin_eq hg h, Option.bind_eq_bind, Option.bind_some]
      generalize p.begin = begun at hscanning
      obtain ⟨result, next⟩ := begun
      cases result with
      | error e => rfl
      | ok => exact checkedParseTokens_eq hg source (hscanning rfl)

theorem checkedReset_eq (hc : p.chart.Filed g) (h : p.chart.Owns) :
    p.checkedReset = some p.reset := by
  rw [checkedReset, Chart.checkedClear_eq hc h]
  rfl

include hg in
/-- Whatever is done with a parser in good order, every lookup finds its entry. -/
theorem checkedPerform_eq (h : p.Healthy g) (howns : p.chart.Owns) (operation : Operation) :
    p.checkedPerform operation = some (p.perform operation) := by
  cases operation with
  | setConfig config => rfl
  | setCosts costs => rfl
  | reset =>
      rw [checkedPerform, checkedReset_eq h.valid.filed howns]
      rfl
  | begin =>
      rw [checkedPerform, checkedBegin_eq hg h]
      rfl
  | advance source =>
      rw [checkedPerform, checkedAdvance_eq hg source h]
      rfl
  | parse source =>
      rw [checkedPerform, checkedParse_eq hg source h]
      rfl

end run

end Parser
end EarleyChart
