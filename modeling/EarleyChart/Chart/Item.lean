import EarleyChart.Grammar.Basic

/-!
Items: partial derivations `(rule, dot, origin)`. Within a column that triple
is an item's identity. Two derivations that reach the same triple share one
item and are kept as separate links on it. Items refer to each other by
position, the column and the sequence number within it. Symbols, rules, columns,
items and slots are counted without bound here; their numbers fit into words of
32 bits as long as there are fewer than 2^32 of each.
-/

namespace EarleyChart

structure ItemId where
  column : Nat
  seq : Nat
  deriving DecidableEq, Repr

/-- The order of creation within a column, columns first. -/
instance : Ord ItemId := ⟨compareLex (compareOn ItemId.column) (compareOn ItemId.seq)⟩

instance : Std.TransOrd ItemId :=
  inferInstanceAs (Std.TransCmp (compareLex (compareOn ItemId.column) (compareOn ItemId.seq)))

instance : Std.LawfulEqOrd ItemId where
  eq_of_compare {a b} h := by
    obtain ⟨hcolumn, hseq⟩ := compareLex_eq_eq.mp h
    have hcolumn : a.column = b.column := Std.LawfulEqOrd.eq_of_compare hcolumn
    have hseq : a.seq = b.seq := Std.LawfulEqOrd.eq_of_compare hseq
    cases a
    cases b
    simp_all

namespace ItemId

def render (id : ItemId) : String := s!"{id.column}.{id.seq}"

/-- Columns are compared first, numbers within a column second. -/
def le (a b : ItemId) : Bool :=
  a.column < b.column || (a.column == b.column && a.seq ≤ b.seq)

end ItemId

structure ItemKey where
  rule : RuleId
  dot : Nat
  origin : Nat
  deriving DecidableEq, Repr

/-- An order of identities for the tables of a column. -/
instance : Ord ItemKey :=
  ⟨compareLex (compareOn ItemKey.rule) (compareLex (compareOn ItemKey.dot)
    (compareOn ItemKey.origin))⟩

instance : Std.TransOrd ItemKey :=
  inferInstanceAs (Std.TransCmp (compareLex (compareOn ItemKey.rule)
    (compareLex (compareOn ItemKey.dot) (compareOn ItemKey.origin))))

instance : Std.LawfulEqOrd ItemKey where
  eq_of_compare {a b} h := by
    obtain ⟨hrule, h⟩ := compareLex_eq_eq.mp h
    obtain ⟨hdot, horigin⟩ := compareLex_eq_eq.mp h
    have hrule : a.rule = b.rule := Std.LawfulEqOrd.eq_of_compare hrule
    have hdot : a.dot = b.dot := Std.LawfulEqOrd.eq_of_compare hdot
    have horigin : a.origin = b.origin := Std.LawfulEqOrd.eq_of_compare horigin
    cases a
    cases b
    simp_all

inductive StepKind where
  /-- A token matched the terminal. -/
  | scanned
  /-- A completed item matched the nonterminal. -/
  | completed
  /-- A token was dropped and the dot did not move. -/
  | deleted
  /-- A token stood in for another terminal. -/
  | substituted
  deriving DecidableEq, Repr

/-- One derivation of an item: the item it was advanced from, and the completed
item it was advanced over. -/
structure Link where
  step : StepKind
  left : ItemId
  right : Option ItemId
  deriving DecidableEq, Repr

/-- A chart item. Predicted items have no links. -/
structure Item where
  rule : RuleId
  dot : Nat
  origin : Nat
  errorCost : Nat
  column : Nat
  seq : Nat
  links : List Link
  deriving DecidableEq, Repr

namespace Item

def blank : Item := ⟨0, 0, 0, 0, 0, 0, []⟩

instance : Inhabited Item := ⟨blank⟩

def id (item : Item) : ItemId := ⟨item.column, item.seq⟩

def key (item : Item) : ItemKey := ⟨item.rule, item.dot, item.origin⟩

/-- Whether two items have one identity; cost, position and derivations may differ. -/
def same (a b : Item) : Bool := a.key == b.key

/-- The item this one was first derived from. -/
def left? (item : Item) : Option ItemId := item.links.head?.map (·.left)

/-- The completed items packed into this one. -/
def rights (item : Item) : List ItemId := item.links.filterMap (·.right)

def isPredicted (item : Item) : Bool := item.links.isEmpty

/-- Records a derivation unless it is known. -/
def addLink (item : Item) (link : Link) : Item :=
  if item.links.contains link then item else { item with links := item.links ++ [link] }

/-- The item as one line: position, dotted rule, origin, first predecessor,
completed items and cost. -/
def render (g : Grammar) (item : Item) : String :=
  let left := item.left?.elim "null" ItemId.render
  let rights :=
    if item.rights.isEmpty then "null" else ",".intercalate (item.rights.map ItemId.render)
  s!"{item.id.render} [ {g.dotted item.rule (some item.dot)} ], {item.origin}, {left}, " ++
    s!"<{rights}>, {item.errorCost}"

end Item

structure Candidate where
  rule : RuleId
  dot : Nat
  origin : Nat
  errorCost : Nat
  link : Option Link
  deriving DecidableEq, Repr

namespace Candidate

def key (new : Candidate) : ItemKey := ⟨new.rule, new.dot, new.origin⟩

def toItem (new : Candidate) (id : ItemId) : Item :=
  ⟨new.rule, new.dot, new.origin, new.errorCost, id.column, id.seq, new.link.toList⟩

end Candidate

def maxCost : Nat := UInt32.size - 1

def addCost (a b : Nat) : Nat := min (a + b) maxCost

end EarleyChart
