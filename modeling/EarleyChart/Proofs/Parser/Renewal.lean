import EarleyChart.Proofs.Forest.Pass
import EarleyChart.Proofs.Parser.Room
import EarleyChart.Proofs.Parser.Tables

/-!
A parser that was reset is as good as a new one. Whatever was done with it before,
the columns give all their slots back, and from then on it answers every sequence of
operations as a new parser with the same settings and costs does. Only the room of
the pool remembers, which plays no part in a forest: roots, counts and trees come from
items, links and tokens.
-/

namespace EarleyChart
namespace Forest

/-- Two forests answer alike: they have the same roots, and the same counts and
trees in every pass over any items. -/
structure Alike (f f' : Forest) : Prop where
  roots : f.roots = f'.roots
  minCost : f.minCost = f'.minCost
  counts : ∀ ids, (DerivationCounter.new f).countAll ids = (DerivationCounter.new f').countAll ids
  nodes : ∀ limit ids,
    (TreeBuilder.new f limit).nodesOfAll ids = (TreeBuilder.new f' limit).nodesOfAll ids
  countDerivations : ∀ root, f.countDerivations root = f'.countDerivations root
  treesOf : ∀ root limit, f.treesOf root limit = f'.treesOf root limit
  trees : ∀ limit, f.trees limit = f'.trees limit

def withRoom (f : Forest) (room : Nat) : Forest := { f with chart := f.chart.withRoom room }

variable (f : Forest) (room : Nat)

theorem run_withRoom {V A : Type} (pass : Pass V A) (depth : Nat) (above : List ItemId)
    (id : ItemId) (known : Std.TreeMap ItemId V) :
    pass.run (f.withRoom room) depth above id known = pass.run f depth above id known := by
  induction depth generalizing above id known with
  | zero => rfl
  | succ depth ih =>
      have hitem : (f.withRoom room).item? id = f.item? id := rfl
      have hvisit : pass.run (f.withRoom room) depth (id :: above) =
          pass.run f depth (id :: above) := by
        funext other known'
        exact ih (id :: above) other known'
      rw [Pass.run, Pass.run, hitem, hvisit]

theorem count_withRoom (known : Std.TreeMap ItemId Nat) (id : ItemId) :
    (DerivationCounter.mk (f.withRoom room) known).count id =
      (((DerivationCounter.mk f known).count id).1,
        ⟨f.withRoom room, ((DerivationCounter.mk f known).count id).2.known⟩) := by
  have hcount : (f.withRoom room).itemCount = f.itemCount := rfl
  simp only [DerivationCounter.count, countFrom_eq, run_withRoom, hcount]

theorem countAll_withRoom (known : Std.TreeMap ItemId Nat) (ids : List ItemId) :
    (DerivationCounter.mk (f.withRoom room) known).countAll ids =
      (DerivationCounter.mk f known).countAll ids := by
  induction ids generalizing known with
  | nil => rfl
  | cons id ids ih =>
      simp only [DerivationCounter.countAll, count_withRoom]
      exact congrArg _ (ih _)

theorem nodes_withRoom (limit : Nat) (known : KnownSequences) (id : ItemId) :
    (TreeBuilder.mk (f.withRoom room) limit known).nodes id =
      (((TreeBuilder.mk f limit known).nodes id).1,
        ⟨f.withRoom room, limit, ((TreeBuilder.mk f limit known).nodes id).2.known⟩) := by
  have hcount : (f.withRoom room).itemCount = f.itemCount := rfl
  have hbuilding : Pass.building (f.withRoom room) limit = Pass.building f limit := rfl
  simp only [TreeBuilder.nodes, sequencesFrom_eq, run_withRoom, hcount, hbuilding]
  rfl

theorem nodesOfAll_withRoom (limit : Nat) (known : KnownSequences) (ids : List ItemId) :
    (TreeBuilder.mk (f.withRoom room) limit known).nodesOfAll ids =
      (TreeBuilder.mk f limit known).nodesOfAll ids := by
  induction ids generalizing known with
  | nil => rfl
  | cons id ids ih =>
      simp only [TreeBuilder.nodesOfAll, nodes_withRoom]
      exact congrArg _ (ih _)

theorem collect_withRoom (limit : Nat) (known : KnownSequences) (wanted : Nat)
    (ids : List ItemId) :
    (TreeBuilder.mk (f.withRoom room) limit known).collect wanted ids =
      (TreeBuilder.mk f limit known).collect wanted ids := by
  induction ids generalizing known wanted with
  | nil => cases wanted <;> rfl
  | cons id ids ih =>
      cases wanted with
      | zero => rfl
      | succ wanted =>
          simp only [TreeBuilder.collect, nodes_withRoom]
          exact congrArg _ (ih _ _)

theorem alike_withRoom : f.Alike (f.withRoom room) := by
  constructor
  case roots => rfl
  case minCost => rfl
  case counts => exact fun ids => (f.countAll_withRoom room {} ids).symm
  case nodes => exact fun limit ids => (f.nodesOfAll_withRoom room limit {} ids).symm
  case countDerivations =>
    intro root
    rw [countDerivations, countDerivations, DerivationCounter.new, DerivationCounter.new,
      count_withRoom]
  case treesOf =>
    intro root limit
    rw [treesOf, treesOf, TreeBuilder.new, TreeBuilder.new, nodes_withRoom]
  case trees => exact fun limit => (f.collect_withRoom room limit {} limit f.roots).symm

end Forest

namespace Parser

def SameButRoom (p q : Parser) : Prop := p.withRoom q.chart.arena.capacity = q

variable {p q : Parser}

theorem SameButRoom.stats (h : p.SameButRoom q) : p.stats = q.stats := by
  rw [← h]
  rfl

theorem SameButRoom.forest (h : p.SameButRoom q) :
    Option.Rel Forest.Alike p.forest? q.forest? := by
  have hstate : (p.withRoom q.chart.arena.capacity).state = p.state := rfl
  rw [← h, forest?, forest?, hstate]
  split
  · exact .some (Forest.alike_withRoom ⟨p.grammar, p.chart⟩ q.chart.arena.capacity)
  · exact .none

/-- Forgetting a run leaves a new parser, over the room of the old pool. -/
theorem reset_eq (p : Parser) :
    p.reset = (fresh p.grammar p.config p.costs).withRoom p.chart.arena.capacity := rfl

theorem reset_performAll (p : Parser) (operations : List Operation) :
    (p.reset.performAll operations).1 =
        ((fresh p.grammar p.config p.costs).performAll operations).1 ∧
      (p.reset.performAll operations).2.SameButRoom
        ((fresh p.grammar p.config p.costs).performAll operations).2 := by
  obtain ⟨room, h⟩ := performAll_withRoom (fresh p.grammar p.config p.costs)
    p.chart.arena.capacity operations
  rw [reset_eq, h]
  exact ⟨rfl, rfl⟩

/-- Whatever was done with a parser, resetting it gives back every slot of the pool,
and after that every sequence of operations has the answers, the chart, the counts
and the forest that it has with a new parser of the same settings and costs. -/
theorem reset_performs_as_new (d : GrammarDef) (g : Grammar) (hd : d.toGrammar = .ok g)
    (p : Parser) (hp : Reached g p) :
    (p.chart.tornDown.live = 0 ∧ p.reset.chart = .empty p.chart.tornDown.reset) ∧
      ∀ operations : List Operation,
        let again := p.reset.performAll operations
        let first := (fresh g p.config p.costs).performAll operations
        again.1 = first.1 ∧ again.2.SameButRoom first.2 ∧ again.2.stats = first.2.stats ∧
          Option.Rel Forest.Alike again.2.forest? first.2.forest? := by
  have hg := d.toGrammar_numbered g hd
  have hvalid := (hp.healthy hg).valid
  refine ⟨(hp.owns hg).tornDown hvalid.filed, ?_⟩
  intro operations
  have hgrammar := (hp.healthy hg).grammar_eq
  obtain ⟨hanswers, hsame⟩ := p.reset_performAll operations
  rw [hgrammar] at hanswers hsame
  exact ⟨hanswers, hsame, hsame.stats, hsame.forest⟩

/-- A run over `a a` with a larger pool, which the limit on items stops while the
last column is closed, and then smaller settings. -/
def spacious : Parser :=
  ((fresh pair ⟨.onFailure, 2, 0, 3, 0, 100⟩ (.uniform ⟨1, 1⟩)).parse
    (TokenStream.ofList [⟨0, "a", .start⟩, ⟨0, "a", .start⟩])).parser.setConfig .standard

/-- A closure that was broken off leaves nothing behind but the larger pool. -/
theorem reset_performs_as_new_spacious :
    spacious.error = some (.itemLimitExceeded 4 3) ∧
      spacious.chart.worklist.isEmpty = false ∧
      let operations : List Operation :=
        [.parse (TokenStream.ofList [⟨0, "a", .start⟩, ⟨1, "b", .start⟩])]
      let again := spacious.reset.performAll operations
      let first := (fresh pair spacious.config spacious.costs).performAll operations
      again.1 = first.1 ∧ again.2.SameButRoom first.2 ∧ again.2.state = .accepted ∧
        again.2.chart.arena.capacity = 4096 ∧ first.2.chart.arena.capacity = 1024 := by
  have hreached : Reached pair spacious := .setConfig (.parse (.setCosts (.created _) _) _) _
  refine ⟨by decide +kernel, by decide +kernel, ?_⟩
  intro operations again first
  obtain ⟨-, hruns⟩ := reset_performs_as_new pairDef pair rfl spacious hreached
  obtain ⟨hanswers, hsame, -⟩ := hruns operations
  exact ⟨hanswers, hsame, by decide +kernel, by decide +kernel, by decide +kernel⟩

end Parser
end EarleyChart
