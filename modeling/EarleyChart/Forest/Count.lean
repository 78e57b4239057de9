import Std.Data.TreeMap
import EarleyChart.Forest.Basic

/-!
The number of derivations of an item. An item that is met again below itself
counts as none, so that a cycle adds nothing; the counts of finished items are
kept for the rest of the pass.
-/

namespace EarleyChart

/-- The greatest count; sums and products do not go beyond it. -/
def maxCount : Nat := UInt64.size - 1

/-- A counting pass: the counts of the items that are finished. -/
structure DerivationCounter where
  forest : Forest
  known : Std.TreeMap ItemId Nat

namespace Forest

/-- The derivations of an item's part before its dot. The items that are being
counted come as `above`; the first argument bounds the depth. -/
def countFrom (f : Forest) :
    Nat → List ItemId → ItemId → Std.TreeMap ItemId Nat → Nat × Std.TreeMap ItemId Nat
  | 0, _, _, known => (0, known)
  | depth + 1, above, id, known =>
      match known[id]? with
      | some n => (n, known)
      | none =>
          match f.item? id with
          | none => (0, known)
          | some item =>
              if item.isPredicted then (1, known)
              else if above.contains id then (0, known)
              else
                let (total, known) := item.links.foldl
                  (fun (total, known) link =>
                    let (left, known) := countFrom f depth (id :: above) link.left known
                    match link.right with
                    | some right =>
                        if left > 0 then
                          let (n, known) := countFrom f depth (id :: above) right known
                          (min (total + min (left * n) maxCount) maxCount, known)
                        else (min (total + left) maxCount, known)
                    | none => (min (total + left) maxCount, known))
                  (0, known)
                (total, known.insert id total)

end Forest

namespace DerivationCounter

def new (f : Forest) : DerivationCounter := ⟨f, {}⟩

/-- The derivations of an item. No item is below itself, so that the number of
items bounds the depth. -/
def count (c : DerivationCounter) (id : ItemId) : Nat × DerivationCounter :=
  match c with
  | ⟨forest, known⟩ =>
      let (n, known) := forest.countFrom (forest.itemCount + 1) [] id known
      (n, ⟨forest, known⟩)

def countAll (c : DerivationCounter) : List ItemId → List Nat
  | [] => []
  | id :: rest =>
      let (n, c) := c.count id
      n :: countAll c rest

end DerivationCounter

namespace Forest

def countDerivations (f : Forest) (root : ItemId) : Nat :=
  ((DerivationCounter.new f).count root).1

end Forest
end EarleyChart
