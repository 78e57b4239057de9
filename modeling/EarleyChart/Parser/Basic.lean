import EarleyChart.Chart.Basic
import EarleyChart.Parser.Config
import EarleyChart.Parser.Rejection

/-!
The state of a run. A parser begins without columns, fills and closes the first
one, and then reads a token at a time, each of which opens and closes one more
column, until the input is accepted or rejected or an error ends the run.
-/

namespace EarleyChart

inductive EngineState where
  | start
  | seeding
  | closing
  | scanning
  | accepted
  | rejected
  deriving DecidableEq, Repr

namespace EngineState

def isFinal : EngineState → Bool
  | .accepted | .rejected => true
  | _ => false

end EngineState

inductive Verdict where
  | accepted
  | rejected (why : Rejection)
  deriving DecidableEq, Repr

/-- The outcome of one step: more input may follow, or the run is over. -/
inductive Progress where
  | more
  | done (verdict : Verdict)
  deriving DecidableEq, Repr

/-- Counts kept during a run: items created, derivations packed into items that
were there, costs lowered, nonterminals predicted, completed items looked at,
items advanced over tokens, and corrections proposed. -/
structure Tally where
  items : Nat
  packedLinks : Nat
  costUpdates : Nat
  predictions : Nat
  completions : Nat
  scanned : Nat
  corrections : Nat
  deriving DecidableEq, Repr

namespace Tally

def zero : Tally := ⟨0, 0, 0, 0, 0, 0, 0⟩

/-- Counts what became of an item. -/
def record (t : Tally) : Insertion → Tally
  | .created => { t with items := t.items + 1 }
  | .merged packed lowered =>
      { t with
        packedLinks := t.packedLinks + packed.toNat
        costUpdates := t.costUpdates + lowered.toNat }

end Tally

structure ParseStats where
  tally : Tally
  columns : Nat
  peakItems : Nat
  deriving DecidableEq, Repr

structure Parser where
  grammar : Grammar
  config : Config
  costs : CostProvider
  chart : Chart
  state : EngineState
  verdict : Option Verdict
  error : Option ParseError
  tally : Tally
  /-- The questions put to the cost provider, the latest first. -/
  requests : List CostRequest

namespace Parser

def withConfig (g : Grammar) (config : Config) : Parser where
  grammar := g
  config := config
  costs := .standard
  chart := .empty (.forTokens config.expectedTokens)
  state := .start
  verdict := none
  error := none
  tally := .zero
  requests := []

def new (g : Grammar) : Parser := withConfig g .standard

/-- Replaces the settings from the next step on. -/
def setConfig (p : Parser) (config : Config) : Parser := { p with config := config }

def setCosts (p : Parser) (costs : CostProvider) : Parser := { p with costs := costs }

def columnCount (p : Parser) : Nat := p.chart.columns.size

def liveItems (p : Parser) : Nat := p.chart.arena.live

def item? (p : Parser) (id : ItemId) : Option Item := p.chart.item? id

def stats (p : Parser) : ParseStats := ⟨p.tally, p.columnCount, p.chart.arena.peak⟩

/-- Forgets the run. The settings, the cost provider and the room of the pool
are kept. -/
def reset (p : Parser) : Parser :=
  { p with
    chart := p.chart.clear
    state := .start
    verdict := none
    error := none
    tally := .zero
    requests := [] }

def endLocation (p : Parser) : Location :=
  match p.chart.newest?.bind (·.token) with
  | some token => token.endLocation
  | none => .start

def insert (p : Parser) (new : Candidate) : Parser :=
  match p with
  | ⟨grammar, config, costs, chart, state, verdict, error, tally, requests⟩ =>
      let (chart, outcome) := chart.insert grammar new
      ⟨grammar, config, costs, chart, state, verdict, error, tally.record outcome, requests⟩

/-- Takes the oldest item out of the queue. -/
def popItem (p : Parser) : Option ItemId × Parser :=
  match p with
  | ⟨grammar, config, costs, ⟨columns, arena, worklist⟩, state, verdict, error, tally,
      requests⟩ =>
      let (id?, worklist) := worklist.pop
      (id?, ⟨grammar, config, costs, ⟨columns, arena, worklist⟩, state, verdict, error, tally,
        requests⟩)

def insertAll (p : Parser) (news : List Candidate) : Parser := news.foldl insert p

end Parser
end EarleyChart
