import EarleyChart.Parser.Closure
import EarleyChart.Parser.Recovery

/-!
The course of a run. `begin` fills and closes the first column, `feed` takes in
what a token source answers, `advance` does one of the two, and `parse` goes on
until the run is over. A verdict and an error both last until the parser is
reset.
-/

namespace EarleyChart
namespace Parser

def fail (p : Parser) (e : ParseError) : Parser := { p with error := some e }

/-- Closes the newest column and waits for the next token. -/
def closeColumn (p : Parser) : Except ParseError Unit × Parser :=
  match { p with state := .closing }.close with
  | (p, some e) => (.error e, p.fail e)
  | (p, none) => (.ok (), { p with state := .scanning })

def seed (p : Parser) : Except ParseError Unit × Parser :=
  let g := p.grammar
  if (g.rulesFor g.start).isEmpty then
    let e : ParseError :=
      .invalidGrammar s!"start symbol '{g.symbolName g.start}' has no productions"
    (.error e, p.fail e)
  else
    ({ p with state := .seeding, chart := p.chart.openColumn g none }.predict g.start).closeColumn

def begin (p : Parser) : Except ParseError Unit × Parser :=
  match p.error, p.state with
  | some e, _ => (.error e, p)
  | none, .start => p.seed
  | none, _ => (.ok (), p)

/-- Opens a column for a token and enters items. -/
def openColumn (p : Parser) (token : Token) (news : List Candidate) : Parser :=
  let scanned := news.countP fun new => new.link.any (·.step == .scanned)
  let p := { p with
    chart := p.chart.openColumn p.grammar (some token)
    tally := { p.tally with scanned := p.tally.scanned + scanned } }
  p.insertAll news

def reject (p : Parser) (why : Rejection) : Verdict × Parser :=
  (.rejected why, { p with state := .rejected, verdict := some (.rejected why) })

def accept (p : Parser) : Verdict × Parser :=
  (.accepted, { p with state := .accepted, verdict := some .accepted })

def expectedTerminals (p : Parser) : List SymbolId :=
  p.chart.newest?.elim [] (·.expectedTerminals p.grammar)

/-- How a token is read: the items of the next column, or a rejection. -/
def readings (p : Parser) (token : Token) :
    Except ParseError (Except Rejection (List Candidate)) × Parser :=
  let column := p.chart.current
  let scans := p.chart.scans p.grammar token
  match p.config.recovery with
  | .disabled =>
      if scans.isEmpty then
        (.ok (.error (.unexpectedToken column token p.expectedTerminals)), p)
      else (.ok (.ok scans), p)
  | .onFailure =>
      if scans.isEmpty then
        let (corrections, p) := p.correct token
        (corrections.map (·.reading column token []), p)
      else (.ok (.ok scans), p)
  | .continuous =>
      let (corrections, p) := p.correct token
      (corrections.map (·.reading column token scans), p)

/-- Reads a token: opens the next column and closes it, or ends the run. -/
def feedToken (p : Parser) (token : Token) : Except ParseError Progress × Parser :=
  if p.config.maxColumns > 0 ∧ p.columnCount ≥ p.config.maxColumns then
    let e : ParseError := .inputTooLarge (p.columnCount + 1) p.config.maxColumns
    (.error e, p.fail e)
  else
    match p.readings token with
    | (.error e, p) => (.error e, p.fail e)
    | (.ok (.error why), p) =>
        let (verdict, p) := p.reject why
        (.ok (.done verdict), p)
    | (.ok (.ok news), p) =>
        let (closed, p) := (p.openColumn token news).closeColumn
        (closed.map fun _ => .more, p)

/-- Ends the input: it is accepted if the newest column completes the start
symbol from the first column on. -/
def finish (p : Parser) : Verdict × Parser :=
  if p.chart.newest?.any (·.completed) then p.accept
  else p.reject (.unexpectedEnd p.chart.current p.endLocation p.expectedTerminals)

def feed (p : Parser) : TokenAnswer → Except ParseError Progress × Parser
  | .error cause => (.error (.lex cause), p.fail (.lex cause))
  | .ok none =>
      let (verdict, p) := p.finish
      (.ok (.done verdict), p)
  | .ok (some token) => p.feedToken token

/-- The answer of a run that is over, or that failed. -/
def settled? (p : Parser) : Option (Except ParseError Verdict) :=
  match p.error with
  | some e => some (.error e)
  | none =>
      if p.state.isFinal then
        match p.verdict with
        | some verdict => some (.ok verdict)
        | none => some (.error (.internal "terminal state without a status"))
      else none

structure Advance (σ : Type) where
  result : Except ParseError Progress
  parser : Parser
  source : σ

/-- Does one step. The first step fills the first column; every other step takes
one token. A run that is over takes none. -/
def advance {σ : Type} [TokenSource σ] (p : Parser) (source : σ) : Advance σ :=
  match p.settled? with
  | some result => ⟨result.map .done, p, source⟩
  | none =>
      if p.state = .start then
        let (begun, p) := p.begin
        ⟨begun.map fun _ => .more, p, source⟩
      else
        let (answer, source) := TokenSource.next source
        let (result, p) := p.feed answer
        ⟨result, p, source⟩

structure Outcome (σ : Type) where
  result : Except ParseError Verdict
  parser : Parser
  source : σ

/-- Reads tokens until the run is over. -/
def parseTokens {σ : Type} [TokenSource σ] (p : Parser) (source : σ) : Outcome σ :=
  match h : TokenSource.next source with
  | (.ok (some token), rest) =>
      match p.feedToken token with
      | (.ok .more, p) =>
          have := TokenSource.size_next h
          parseTokens p rest
      | (.ok (.done verdict), p) => ⟨.ok verdict, p, rest⟩
      | (.error e, p) => ⟨.error e, p, rest⟩
  | (.ok none, rest) =>
      let (verdict, p) := p.finish
      ⟨.ok verdict, p, rest⟩
  | (.error cause, rest) => ⟨.error (.lex cause), p.fail (.lex cause), rest⟩
termination_by TokenSource.size source

def parse {σ : Type} [TokenSource σ] (p : Parser) (source : σ) : Outcome σ :=
  match p.settled? with
  | some result => ⟨result, p, source⟩
  | none =>
      match p.begin with
      | (.error e, p) => ⟨.error e, p, source⟩
      | (.ok (), p) => p.parseTokens source

end Parser
end EarleyChart
