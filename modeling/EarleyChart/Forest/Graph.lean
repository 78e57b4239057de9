import Std.Data.TreeSet
import EarleyChart.Forest.Basic

/-!
The forest as a GraphViz diagram: the items within reach of the roots, with an
edge to the item that each was advanced from, solid or, for a correction,
dotted, and a dashed edge to each completed item.
-/

namespace EarleyChart
namespace Forest

def itemNode (f : Forest) (id : ItemId) (item : Item) : String :=
  s!"  \"{id.render}\" [label=\"{id.render}: {f.grammar.dotted item.rule (some item.dot)}\\ncost {item.errorCost}\"]\n"

def linkEdges (id : ItemId) (link : Link) : String :=
  let style :=
    match link.step with
    | .scanned | .completed => "solid"
    | .deleted | .substituted => "dotted"
  s!"  \"{id.render}\" -> \"{link.left.render}\" [style={style}]\n" ++
    link.right.elim "" fun right =>
      s!"  \"{id.render}\" -> \"{right.render}\" [style=dashed]\n"

def linkTargets (link : Link) : List ItemId := link.left :: link.right.toList

/-- Puts the items that were not seen before on the stack. -/
def pushFresh (seen : Std.TreeSet ItemId) (stack : List ItemId) :
    List ItemId → Std.TreeSet ItemId × List ItemId
  | [] => (seen, stack)
  | id :: rest =>
      if seen.contains id then pushFresh seen stack rest
      else pushFresh (seen.insert id) (id :: stack) rest

/-- Nodes and edges of the items on the stack and of all that they lead to. An
item is put on the stack once, so that the number of items bounds the steps. -/
def drawFrom (f : Forest) : Nat → Std.TreeSet ItemId → List ItemId → List String
  | 0, _, _ => []
  | _, _, [] => []
  | steps + 1, seen, id :: stack =>
      match f.item? id with
      | none => drawFrom f steps seen stack
      | some item =>
          let (seen, stack) := pushFresh seen stack (item.links.flatMap linkTargets)
          f.itemNode id item :: item.links.map (linkEdges id) ++ drawFrom f steps seen stack

def toDot (f : Forest) : String :=
  let roots := f.roots
  let (seen, stack) := pushFresh {} [] roots
  "digraph Forest \x7b\n" ++
  "  rankdir=RL;\n" ++
  "  node [shape=box];\n" ++
  String.join (f.drawFrom (f.itemCount + 1) seen stack) ++
  String.join (roots.map fun root =>
    s!"  \"{root.render}\" [style=filled, fillcolor=lightblue]\n") ++
  "\x7d\n"

end Forest
end EarleyChart
