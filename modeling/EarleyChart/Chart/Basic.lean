import EarleyChart.Chart.Column
import EarleyChart.Text.Quoted

/-!
The chart: columns, the pool that holds their items, and the queue of items
that the newest column still has to be closed under. An item enters the newest
column under its identity. Where the identity is known, its derivation is
packed into the item that is there, and a lower cost replaces a higher one.
-/

namespace EarleyChart

structure Chart where
  columns : Array Column
  arena : Arena
  worklist : Worklist

/-- What became of an item that entered a column. -/
inductive Insertion where
  /-- A new item was created. -/
  | created
  /-- The item was there: whether the derivation was new to it and whether its
  cost was lowered. -/
  | merged (packed lowered : Bool)
  deriving DecidableEq, Repr

namespace Chart

def empty (arena : Arena) : Chart := ⟨#[], arena, .empty⟩

def current (c : Chart) : Nat := c.columns.size - 1

def newest? (c : Chart) : Option Column := c.columns.back?

def item? (c : Chart) (id : ItemId) : Option Item :=
  (c.columns[id.column]?).bind (·.get? c.arena id.seq)

def itemsOf (c : Chart) (column : Column) : List Item := column.items c.arena

def allItems (c : Chart) : List Item := c.columns.toList.flatMap c.itemsOf

def openColumn (c : Chart) (g : Grammar) (token : Option Token) : Chart :=
  match c with
  | ⟨columns, arena, worklist⟩ =>
      let index := columns.size
      ⟨columns.push (Column.new g index token), arena, worklist⟩

def modifyNewest (c : Chart) (f : Column → Column) : Chart :=
  match c with
  | ⟨columns, arena, worklist⟩ => ⟨columns.modify (columns.size - 1) f, arena, worklist⟩

/-- Packs a derivation into the item in a slot and lowers its cost where the
derivation is cheaper. -/
def mergeInto (new : Candidate) (item : Item) : Item :=
  let item := new.link.elim item item.addLink
  if new.errorCost < item.errorCost then { item with errorCost := new.errorCost } else item

/-- What packing a derivation into an item does to it. -/
def mergeOutcome (new : Candidate) (item : Item) : Insertion :=
  .merged (new.link.any fun link => !item.links.contains link) (new.errorCost < item.errorCost)

/-- Enters an item into the newest column. An item whose cost is lowered is
queued again, together with the completions that it waits for and that began in
this column. -/
def insert (c : Chart) (g : Grammar) (new : Candidate) : Chart × Insertion :=
  match c with
  | ⟨columns, arena, worklist⟩ =>
      match columns.back? with
      | none => (⟨columns, arena, worklist⟩, .merged false false)
      | some column =>
          match column.find? new.key with
          | none =>
              let columns := columns.pop
              let (column, arena, worklist) := column.add g arena worklist new
              (⟨columns.push column, arena, worklist⟩, .created)
          | some seq =>
              match column.slots[seq]? with
              | none => (⟨columns, arena, worklist⟩, .merged false false)
              | some slot =>
                  match arena.get? slot with
                  | none => (⟨columns, arena, worklist⟩, .merged false false)
                  | some item =>
                      let outcome := mergeOutcome new item
                      let lowered := new.errorCost < item.errorCost
                      let arena := arena.modify slot (mergeInto new)
                      if lowered then
                        let worklist := worklist.pushUnique ⟨column.index, seq⟩
                        let worklist := (g.next? new.rule new.dot).elim worklist
                          fun symbol => column.requeue g symbol worklist
                        (⟨columns, arena, worklist⟩, outcome)
                      else (⟨columns, arena, worklist⟩, outcome)

def predictions (c : Chart) (g : Grammar) (symbol : SymbolId) : List Candidate :=
  (g.rulesFor symbol).map fun rule => ⟨rule, 0, c.current, 0, none⟩

def waitingFor (c : Chart) (column : Column) (symbol : SymbolId) : List Item :=
  (column.waitingOn symbol).toList.filterMap (column.get? c.arena)

/-- A waiting item advanced over a completed one. -/
def advanceOver (completed : Item) (waiting : Item) : Candidate where
  rule := waiting.rule
  dot := waiting.dot + 1
  origin := waiting.origin
  errorCost := addCost waiting.errorCost completed.errorCost
  link := some ⟨.completed, waiting.id, some completed.id⟩

/-- The items that a completed item leads to: every item of its origin column
that waits for its nonterminal, advanced, within the ceiling. -/
def completions (c : Chart) (g : Grammar) (ceiling : Nat) (completed : Item) :
    List Candidate :=
  match c.columns[completed.origin]? with
  | none => []
  | some origin =>
      ((c.waitingFor origin (g.lhs completed.rule)).map (advanceOver completed)).filter
        (·.errorCost ≤ ceiling)

def scanOver (waiting : Item) : Candidate where
  rule := waiting.rule
  dot := waiting.dot + 1
  origin := waiting.origin
  errorCost := waiting.errorCost
  link := some ⟨.scanned, waiting.id, none⟩

/-- The items that a token leads to: every item of the newest column that waits
for its terminal, advanced. A kind that the grammar does not know leads to none. -/
def scans (c : Chart) (g : Grammar) (token : Token) : List Candidate :=
  match g.terminalForKind? token.kind, c.newest? with
  | some terminal, some column => (c.waitingFor column terminal).map scanOver
  | _, _ => []

def clear (c : Chart) : Chart := empty c.arena.reset

def render (g : Grammar) (c : Chart) : String :=
  String.join <| c.columns.toList.map fun column =>
    (match column.token with
      | some token => s!"Column {column.index} ({quoted token.text}):\n"
      | none => s!"Column {column.index}:\n") ++
    String.join ((c.itemsOf column).map fun item => item.render g ++ "\n")

end Chart
end EarleyChart
