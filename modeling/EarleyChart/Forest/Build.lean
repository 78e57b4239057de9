import Std.Data.TreeMap
import EarleyChart.Forest.Basic
import EarleyChart.Forest.Tree

/-!
The trees of an item, up to a limit for each item. As in counting, an item that
is met again below itself has none, and the alternatives of finished items are
kept for the rest of the pass.
-/

namespace EarleyChart

/-- The children built for the items that are finished, alternative by
alternative. -/
abbrev KnownSequences := Std.TreeMap ItemId (List (List ParseTree))

/-- A building pass with its limit for each item. -/
structure TreeBuilder where
  forest : Forest
  limit : Nat
  known : KnownSequences

/-- Appends each child to each sequence, the sequences one after another, until
a number of results is reached. -/
def extendSequences (children : List ParseTree) :
    Nat → List (List ParseTree) → List (List ParseTree)
  | _, [] => []
  | room, sequence :: rest =>
      let made := (children.take room).map fun child => sequence ++ [child]
      if room ≤ children.length then made
      else made ++ extendSequences children (room - children.length) rest

/-- Alternatives collected link by link, until there is one too many. -/
structure Gathered where
  found : List (List ParseTree)
  full : Bool
  known : KnownSequences

namespace Gathered

/-- Adds the alternatives of one link. The gathering is over when there are more
than the limit leaves room for. -/
def add (limit : Nat) (g : Gathered) (sequences : List (List ParseTree))
    (children : List ParseTree) (known : KnownSequences) : Gathered :=
  let room := limit - g.found.length
  { found := g.found ++ extendSequences children room sequences
    full := sequences.length * children.length > room
    known := known }

end Gathered

namespace Forest

def nodesWith (f : Forest) (id : ItemId) (sequences : List (List ParseTree)) : List ParseTree :=
  match f.item? id with
  | none => []
  | some item => sequences.map (.node item.rule (f.grammar.lhs item.rule))

/-- The child of a step over a token. -/
def tokenChild (f : Forest) (item : Item) (link : Link) : List ParseTree :=
  match link.step, f.token? item.column with
  | .scanned, some token =>
      (f.steppedTerminal? item link).toList.map fun terminal => .leaf terminal token
  | .substituted, some token =>
      (f.steppedTerminal? item link).toList.map fun expected => .substituted expected token
  | .deleted, some token => [.skipped token]
  | _, _ => []

/-- The sequences of children for an item's part before its dot. The items that
are being built come as `above`; the first argument bounds the depth. -/
def sequencesFrom (f : Forest) (limit : Nat) :
    Nat → List ItemId → ItemId → KnownSequences → List (List ParseTree) × KnownSequences
  | 0, _, _, known => ([], known)
  | depth + 1, above, id, known =>
      match known[id]? with
      | some sequences => (sequences, known)
      | none =>
          match f.item? id with
          | none => ([], known)
          | some item =>
              if item.isPredicted then ([[]], known)
              else if above.contains id then ([], known)
              else
                let gathered := item.links.foldl
                  (fun (g : Gathered) link =>
                    if g.full then g
                    else
                      let (sequences, known) :=
                        sequencesFrom f limit depth (id :: above) link.left g.known
                      if sequences.isEmpty then { g with known := known }
                      else
                        match link.step, link.right with
                        | .completed, some right =>
                            let (inner, known) :=
                              sequencesFrom f limit depth (id :: above) right known
                            g.add limit sequences (f.nodesWith right inner) known
                        | .completed, none => g.add limit sequences [] known
                        | _, _ => g.add limit sequences (f.tokenChild item link) known)
                  ⟨[], false, known⟩
                (gathered.found, gathered.known.insert id gathered.found)

end Forest

namespace TreeBuilder

def new (f : Forest) (limit : Nat) : TreeBuilder := ⟨f, limit, {}⟩

def nodes (b : TreeBuilder) (id : ItemId) : List ParseTree × TreeBuilder :=
  match b with
  | ⟨forest, limit, known⟩ =>
      let (sequences, known) := forest.sequencesFrom limit (forest.itemCount + 1) [] id known
      (forest.nodesWith id sequences, ⟨forest, limit, known⟩)

def nodesOfAll (b : TreeBuilder) : List ItemId → List (List ParseTree)
  | [] => []
  | id :: rest =>
      let (trees, b) := b.nodes id
      trees :: nodesOfAll b rest

/-- The trees of several items in order, up to a number in all. -/
def collect (b : TreeBuilder) : Nat → List ItemId → List ParseTree
  | _, [] => []
  | 0, _ => []
  | room + 1, id :: rest =>
      let (trees, b) := b.nodes id
      let trees := trees.take (room + 1)
      trees ++ collect b (room + 1 - trees.length) rest

end TreeBuilder

namespace Forest

def trees (f : Forest) (limit : Nat) : List ParseTree :=
  (TreeBuilder.new f limit).collect limit f.roots

def treesOf (f : Forest) (root : ItemId) (limit : Nat) : List ParseTree :=
  ((TreeBuilder.new f limit).nodes root).1.take limit

end Forest
end EarleyChart
