import Std.Data.TreeMap
import EarleyChart.Chart.Arena
import EarleyChart.Chart.Worklist

/-!
Columns: the items valid after a number of tokens. Items are filed by the
symbol they wait for, the items at the end of their rule under zero. A second
table records the items at the end of their rule that began in this very
column. When an item that waits for a nonterminal enters after such a
completion, the completion is queued again, so that the new item is advanced
over it too.
-/

namespace EarleyChart

structure Column where
  index : Nat
  /-- The token that opened the column; the first column has none. -/
  token : Option Token
  /-- Slots by sequence number. -/
  slots : Array Slot
  /-- Sequence numbers by the symbol waited for; zero stands for the end of the rule. -/
  bySymbol : Array (Array Nat)
  /-- Whether the rules of a symbol were added here. -/
  predicted : Array Bool
  /-- Items at the end of their rule with this column as origin, by nonterminal. -/
  emptyEnds : Array (Array Nat)
  /-- Sequence numbers by identity. -/
  keys : Std.TreeMap ItemKey Nat
  /-- Whether the start symbol is completed from the first column on. -/
  completed : Bool

namespace Column

def new (g : Grammar) (index : Nat) (token : Option Token) : Column where
  index := index
  token := token
  slots := #[]
  bySymbol := Array.replicate (g.symbolCount + 1) #[]
  predicted := Array.replicate (g.symbolCount + 1) false
  emptyEnds := Array.replicate g.nonterminalCount #[]
  keys := {}
  completed := false

def size (c : Column) : Nat := c.slots.size

def isEmpty (c : Column) : Bool := c.slots.isEmpty

def get? (c : Column) (arena : Arena) (seq : Nat) : Option Item :=
  (c.slots[seq]?).bind arena.get?

def items (c : Column) (arena : Arena) : List Item :=
  c.slots.toList.filterMap arena.get?

def find? (c : Column) (key : ItemKey) : Option Nat := c.keys[key]?

def waitingOn (c : Column) (symbol : SymbolId) : Array Nat := (c.bySymbol[symbol]?).getD #[]

def ends (c : Column) : Array Nat := c.waitingOn 0

/-- The completions of a nonterminal that began in this column. -/
def emptyEndsOf (c : Column) (g : Grammar) (symbol : SymbolId) : Array Nat :=
  if g.isNonterminal symbol then (c.emptyEnds[g.nonterminalIndex symbol]?).getD #[] else #[]

/-- The terminals that some item waits for, in ascending order. -/
def expectedTerminals (c : Column) (g : Grammar) : List SymbolId :=
  g.terminalIds.filter fun t => !(c.waitingOn t).isEmpty

/-- Whether the rules of a symbol were added here; none for a number beyond the
symbols. -/
def isPredicted? (c : Column) (symbol : SymbolId) : Option Bool := c.predicted[symbol]?

/-- Notes that the rules of a symbol are added here. -/
def markPredicted (c : Column) (symbol : SymbolId) : Column :=
  match c with
  | ⟨index, token, slots, bySymbol, predicted, emptyEnds, keys, completed⟩ =>
      ⟨index, token, slots, bySymbol, predicted.set! symbol true, emptyEnds, keys, completed⟩

/-- Queues again every completion of a symbol that began in this column. -/
def requeue (c : Column) (g : Grammar) (symbol : SymbolId) (worklist : Worklist) : Worklist :=
  (c.emptyEndsOf g symbol).foldl (fun w seq => w.pushUnique ⟨c.index, seq⟩) worklist

def enter (c : Column) (slot : Slot) (key : ItemKey) : Column :=
  match c with
  | ⟨index, token, slots, bySymbol, predicted, emptyEnds, keys, completed⟩ =>
      let seq := slots.size
      ⟨index, token, slots.push slot, bySymbol, predicted, emptyEnds, keys.insert key seq,
        completed⟩

def fileWaiting (c : Column) (symbol : SymbolId) (seq : Nat) : Column :=
  match c with
  | ⟨index, token, slots, bySymbol, predicted, emptyEnds, keys, completed⟩ =>
      ⟨index, token, slots, bySymbol.modify symbol (·.push seq), predicted, emptyEnds, keys,
        completed⟩

/-- Files an item at the end of a rule for `lhs` that began in column `origin`. -/
def fileEnd (c : Column) (g : Grammar) (lhs : SymbolId) (origin seq : Nat) : Column :=
  match c.fileWaiting 0 seq with
  | ⟨index, token, slots, bySymbol, predicted, emptyEnds, keys, completed⟩ =>
      let emptyEnds :=
        if origin = index then emptyEnds.modify (g.nonterminalIndex lhs) (·.push seq)
        else emptyEnds
      ⟨index, token, slots, bySymbol, predicted, emptyEnds, keys,
        completed || (lhs == g.start && origin == 0)⟩

/-- Creates an item and queues it. Its identity must be new to the column. -/
def add (c : Column) (g : Grammar) (arena : Arena) (worklist : Worklist) (new : Candidate) :
    Column × Arena × Worklist :=
  let id : ItemId := ⟨c.index, c.size⟩
  let (slot, arena) := arena.allocate
  let arena := arena.modify slot fun _ => new.toItem id
  let worklist := worklist.push id
  let c := c.enter slot new.key
  match g.next? new.rule new.dot with
  | none => (c.fileEnd g (g.lhs new.rule) new.origin id.seq, arena, worklist)
  | some symbol =>
      let c := c.fileWaiting symbol id.seq
      let worklist := c.requeue g symbol worklist
      (c, arena, worklist)

def teardown (c : Column) (arena : Arena) : Column × Arena :=
  ({ c with
      slots := #[]
      bySymbol := c.bySymbol.map fun _ => #[]
      predicted := c.predicted.map fun _ => false
      emptyEnds := c.emptyEnds.map fun _ => #[]
      keys := {}
      completed := false },
    c.slots.foldl Arena.release arena)

end Column
end EarleyChart
