import EarleyChart.Proofs.Chart.Room
import EarleyChart.Proofs.Parser.History

/-!
Two parsers that differ in the room of their pools answer alike. Each part of a run
is looked at in turn: its result is the same over other room, and so is the parser
that it leaves but for the room.
-/

namespace EarleyChart
namespace Parser

def withRoom (p : Parser) (room : Nat) : Parser := { p with chart := p.chart.withRoom room }

variable (p : Parser) (room : Nat)

theorem insert_withRoom (new : Candidate) : ∃ room',
    (p.withRoom room).insert new = (p.insert new).withRoom room' := by
  cases p with
  | mk grammar config costs chart state verdict error tally requests =>
      obtain ⟨room', h⟩ := chart.insert_withRoom grammar room new
      exact ⟨room', by simp only [withRoom, insert, h]⟩

theorem insertAll_withRoom (news : List Candidate) : ∃ room',
    (p.withRoom room).insertAll news = (p.insertAll news).withRoom room' := by
  induction news generalizing p room with
  | nil => exact ⟨room, rfl⟩
  | cons new news ih =>
      obtain ⟨room', h⟩ := p.insert_withRoom room new
      obtain ⟨last, hlast⟩ := ih (p.insert new) room'
      exact ⟨last, by simpa [insertAll, h] using hlast⟩

theorem predict_withRoom (symbol : SymbolId) : ∃ room',
    (p.withRoom room).predict symbol = (p.predict symbol).withRoom room' := by
  have hnewest : (p.withRoom room).chart.newest? = p.chart.newest? := rfl
  simp only [predict, hnewest]
  split
  · exact insertAll_withRoom
      { p with
        chart := p.chart.modifyNewest (·.markPredicted symbol)
        tally := { p.tally with predictions := p.tally.predictions + 1 } } room _
  · exact ⟨room, rfl⟩

theorem complete_withRoom (item : Item) : ∃ room',
    (p.withRoom room).complete item = (p.complete item).withRoom room' :=
  insertAll_withRoom
    { p with tally := { p.tally with completions := p.tally.completions + 1 } } room _

theorem process_withRoom (item : Item) : ∃ room',
    (p.withRoom room).process item = (p.process item).withRoom room' := by
  have hgrammar : (p.withRoom room).grammar = p.grammar := rfl
  rw [process, process, hgrammar]
  cases p.grammar.next? item.rule item.dot with
  | none => exact p.complete_withRoom room item
  | some symbol =>
      simp only
      split
      · exact p.predict_withRoom room symbol
      · exact ⟨room, rfl⟩

theorem closeFor_withRoom (steps : Nat) : ∃ room',
    (p.withRoom room).closeFor steps =
      ((p.closeFor steps).1.withRoom room', (p.closeFor steps).2) := by
  induction steps generalizing p room with
  | zero => exact ⟨room, rfl⟩
  | succ steps ih =>
      have hpop : (p.withRoom room).popItem = (p.popItem.1, p.popItem.2.withRoom room) := rfl
      rw [closeFor, closeFor, hpop]
      rcases p.popItem with ⟨id?, q⟩
      cases id? with
      | none => exact ⟨room, rfl⟩
      | some id =>
          have hlimit : (q.withRoom room).limitError? = q.limitError? := rfl
          have hitem : (q.withRoom room).item? id = q.item? id := rfl
          simp only [hlimit, hitem]
          cases q.limitError? with
          | some e => exact ⟨room, rfl⟩
          | none =>
              cases q.item? id with
              | none => exact ⟨room, rfl⟩
              | some item =>
                  obtain ⟨room', h⟩ := q.process_withRoom room item
                  simp only [h]
                  exact ih _ room'

theorem closeColumn_withRoom : ∃ room',
    (p.withRoom room).closeColumn = (p.closeColumn.1, p.closeColumn.2.withRoom room') := by
  obtain ⟨room', h⟩ := closeFor_withRoom { p with state := .closing } room
    ({ p with state := .closing } : Parser).closureBound
  refine ⟨room', ?_⟩
  have hclose : ({ p.withRoom room with state := .closing } : Parser).close =
      (({ p with state := .closing } : Parser).close.1.withRoom room',
        ({ p with state := .closing } : Parser).close.2) := h
  rw [closeColumn, closeColumn, hclose]
  rcases ({ p with state := .closing } : Parser).close with ⟨q, error?⟩
  cases error? with
  | none => rfl
  | some e => rfl

theorem seed_withRoom : ∃ room',
    (p.withRoom room).seed = (p.seed.1, p.seed.2.withRoom room') := by
  have hgrammar : (p.withRoom room).grammar = p.grammar := rfl
  simp only [seed, hgrammar]
  split
  · exact ⟨room, rfl⟩
  · obtain ⟨room', h⟩ := predict_withRoom
      { p with state := .seeding, chart := p.chart.openColumn p.grammar none } room p.grammar.start
    obtain ⟨last, hlast⟩ := closeColumn_withRoom
      (({ p with state := .seeding, chart := p.chart.openColumn p.grammar none } : Parser).predict
        p.grammar.start) room'
    rw [← h] at hlast
    exact ⟨last, hlast⟩

theorem begin_withRoom : ∃ room',
    (p.withRoom room).begin = (p.begin.1, p.begin.2.withRoom room') := by
  have herror : (p.withRoom room).error = p.error := rfl
  have hstate : (p.withRoom room).state = p.state := rfl
  rw [begin, begin, herror, hstate]
  split
  · exact ⟨room, rfl⟩
  · exact p.seed_withRoom room
  · exact ⟨room, rfl⟩

theorem correct_withRoom (token : Token) :
    (p.withRoom room).correct token =
      ((p.correct token).1, (p.correct token).2.withRoom room) := by
  have hwaiting : (p.withRoom room).chart.waitingItems (p.withRoom room).grammar =
      p.chart.waitingItems p.grammar := rfl
  have hcosts : (p.withRoom room).costs (p.withRoom room).grammar = p.costs p.grammar := rfl
  simp only [correct, hwaiting, hcosts]
  by_cases hnone : (p.chart.waitingItems p.grammar).isEmpty = true
  · simp only [if_pos hnone]
  · simp only [if_neg hnone]
    split <;> rfl

theorem readings_withRoom (token : Token) :
    (p.withRoom room).readings token =
      ((p.readings token).1, (p.readings token).2.withRoom room) := by
  have hscans : (p.withRoom room).chart.scans (p.withRoom room).grammar token =
      p.chart.scans p.grammar token := rfl
  have hconfig : (p.withRoom room).config = p.config := rfl
  have hcorrect := p.correct_withRoom room token
  simp only [readings, hscans, hconfig, hcorrect]
  cases p.config.recovery with
  | disabled =>
      simp only
      split <;> rfl
  | onFailure =>
      simp only
      split <;> rfl
  | continuous => rfl

theorem openColumn_withRoom (token : Token) (news : List Candidate) : ∃ room',
    (p.withRoom room).openColumn token news = (p.openColumn token news).withRoom room' :=
  insertAll_withRoom
    { p with
      chart := p.chart.openColumn p.grammar (some token)
      tally := { p.tally with
        scanned := p.tally.scanned +
          news.countP fun new => new.link.any (·.step == .scanned) } } room news

theorem feedToken_withRoom (token : Token) : ∃ room',
    (p.withRoom room).feedToken token =
      ((p.feedToken token).1, (p.feedToken token).2.withRoom room') := by
  have hconfig : (p.withRoom room).config = p.config := rfl
  have hcount : (p.withRoom room).columnCount = p.columnCount := rfl
  rw [feedToken, feedToken, hconfig, hcount, p.readings_withRoom room token]
  split
  · exact ⟨room, rfl⟩
  · rcases p.readings token with ⟨result, q⟩
    cases result with
    | error e => exact ⟨room, rfl⟩
    | ok result =>
        cases result with
        | error why => exact ⟨room, rfl⟩
        | ok news =>
            obtain ⟨room', hopen⟩ := q.openColumn_withRoom room token news
            obtain ⟨last, hclose⟩ := (q.openColumn token news).closeColumn_withRoom room'
            exact ⟨last, by simp only [hopen, hclose]⟩

theorem finish_withRoom :
    (p.withRoom room).finish = (p.finish.1, p.finish.2.withRoom room) := by
  have hnewest : (p.withRoom room).chart.newest? = p.chart.newest? := rfl
  simp only [finish, hnewest]
  split <;> rfl

theorem feed_withRoom (answer : TokenAnswer) : ∃ room',
    (p.withRoom room).feed answer =
      ((p.feed answer).1, (p.feed answer).2.withRoom room') := by
  cases answer with
  | error cause => exact ⟨room, rfl⟩
  | ok token? =>
      cases token? with
      | none => exact ⟨room, by simp only [feed, p.finish_withRoom room]⟩
      | some token => exact p.feedToken_withRoom room token

section source

variable {σ : Type} [TokenSource σ] (source : σ)

theorem advance_withRoom : ∃ room',
    (p.withRoom room).advance source =
      ⟨(p.advance source).result, (p.advance source).parser.withRoom room',
        (p.advance source).source⟩ := by
  have hsettled : (p.withRoom room).settled? = p.settled? := rfl
  have hstate : (p.withRoom room).state = p.state := rfl
  rw [advance, advance, hsettled, hstate]
  cases p.settled? with
  | some result => exact ⟨room, rfl⟩
  | none =>
      simp only
      split
      · obtain ⟨room', h⟩ := p.begin_withRoom room
        exact ⟨room', by rw [h]⟩
      · obtain ⟨room', h⟩ := p.feed_withRoom room (TokenSource.next source).1
        exact ⟨room', by rw [h]⟩

theorem parseTokens_withRoom : ∃ room',
    (p.withRoom room).parseTokens source =
      ⟨(p.parseTokens source).result, (p.parseTokens source).parser.withRoom room',
        (p.parseTokens source).source⟩ := by
  induction hn : TokenSource.size source using Nat.strong_induction_on generalizing p room source
    with
  | _ n ih =>
  rw [parseTokens, parseTokens]
  split
  · next token rest hnext =>
      obtain ⟨room', h⟩ := p.feedToken_withRoom room token
      rw [h]
      rcases p.feedToken token with ⟨result, q⟩
      cases result with
      | error e => exact ⟨room', rfl⟩
      | ok progress =>
          cases progress with
          | more => exact ih _ (hn ▸ TokenSource.size_next hnext) q room' rest rfl
          | done verdict => exact ⟨room', rfl⟩
  · exact ⟨room, by rw [p.finish_withRoom room]⟩
  · exact ⟨room, rfl⟩

theorem parse_withRoom : ∃ room',
    (p.withRoom room).parse source =
      ⟨(p.parse source).result, (p.parse source).parser.withRoom room',
        (p.parse source).source⟩ := by
  have hsettled : (p.withRoom room).settled? = p.settled? := rfl
  obtain ⟨room', h⟩ := p.begin_withRoom room
  rw [parse, parse, hsettled, h]
  cases p.settled? with
  | some result => exact ⟨room, rfl⟩
  | none =>
      rcases p.begin with ⟨begun, q⟩
      cases begun with
      | error e => exact ⟨room', rfl⟩
      | ok => exact q.parseTokens_withRoom room' source

end source

theorem perform_withRoom (operation : Operation) : ∃ room',
    (p.withRoom room).perform operation =
      ((p.perform operation).1, (p.perform operation).2.withRoom room') := by
  cases operation with
  | setConfig config => exact ⟨room, rfl⟩
  | setCosts costs => exact ⟨room, rfl⟩
  | reset => exact ⟨room, rfl⟩
  | begin =>
      obtain ⟨room', h⟩ := p.begin_withRoom room
      exact ⟨room', by simp only [perform, h]⟩
  | advance source =>
      obtain ⟨room', h⟩ := p.advance_withRoom room source
      exact ⟨room', by simp only [perform, h]⟩
  | parse source =>
      obtain ⟨room', h⟩ := p.parse_withRoom room source
      exact ⟨room', by simp only [perform, h]⟩

/-- Parsers that differ in the room of their pools at most give the same answers. -/
theorem performAll_withRoom (operations : List Operation) : ∃ room',
    (p.withRoom room).performAll operations =
      ((p.performAll operations).1, (p.performAll operations).2.withRoom room') := by
  induction operations generalizing p room with
  | nil => exact ⟨room, rfl⟩
  | cons operation rest ih =>
      obtain ⟨room', h⟩ := p.perform_withRoom room operation
      obtain ⟨last, hlast⟩ := ih (p.perform operation).2 room'
      exact ⟨last, by simp only [performAll, h, hlast]⟩

end Parser
end EarleyChart
