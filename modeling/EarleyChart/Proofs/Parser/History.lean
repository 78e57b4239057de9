import EarleyChart.Forest.Basic
import EarleyChart.Proofs.Parser.Turns

/-!
All that can become of a parser. Settings and costs may be replaced at any time,
tokens may come from any source and in any steps, the clock may break off any closure,
and a run may be given up and begun anew. The chart stays well formed, and an accepted
run has a root. Operations may also be given as a list; each gives an answer, a step and
a run together with what is left of the source that they were given.
-/

namespace EarleyChart
namespace Parser

/-- A parser of a grammar after any operations on it, and where the clock broke off the
closure of a column, however far it got. A whole run is made of steps, and is broken off in
one of them. -/
inductive Reached (g : Grammar) : Parser → Prop
  | created (config : Config) : Reached g (withConfig g config)
  | setConfig {p : Parser} (h : Reached g p) (config : Config) : Reached g (p.setConfig config)
  | setCosts {p : Parser} (h : Reached g p) (costs : CostProvider) :
      Reached g (p.setCosts costs)
  | reset {p : Parser} (h : Reached g p) : Reached g p.reset
  | begin {p : Parser} (h : Reached g p) : Reached g p.begin.2
  | advance {p : Parser} (h : Reached g p) {σ : Type} [TokenSource σ] (source : σ) :
      Reached g (p.advance source).parser
  | parse {p : Parser} (h : Reached g p) {σ : Type} [TokenSource σ] (source : σ) :
      Reached g (p.parse source).parser
  | timedOut {p q : Parser} (h : Reached g p) (hfills : p.Fills q) (steps elapsed : Nat) :
      Reached g (q.timedOut steps elapsed)

variable {g : Grammar} {p : Parser} (hg : g.Numbered)

include hg in
/-- Whatever was done with a parser, its chart is well formed. -/
theorem Reached.healthy (h : Reached g p) : p.Healthy g := by
  induction h with
  | created config => exact healthy_withConfig g config
  | setConfig h config ih => exact ih.setConfig config
  | setCosts h costs ih => exact ih.setCosts costs
  | reset h ih => exact ih.reset
  | begin h ih => exact (begin_healthy hg ih).2
  | advance h source ih => exact advance_healthy hg ih source
  | parse h source ih => exact parse_healthy hg ih source
  | timedOut h hfills steps elapsed ih => exact hfills.timedOut_healthy hg ih steps elapsed

include hg in
/-- What every turn keeps holds in every state, where settings and costs play no part. -/
theorem Reached.kept (h : Reached g p) (property : Parser → Prop)
    (hturn : ∀ {p next : Parser}, p.Healthy g → p.Turn g next → property p → property next)
    (hcreated : ∀ config, property (withConfig g config))
    (hconfig : ∀ (p : Parser) (config : Config), property p → property (p.setConfig config))
    (hcosts : ∀ (p : Parser) (costs : CostProvider), property p → property (p.setCosts costs))
    (hreset : ∀ p : Parser, property p → property p.reset) : property p := by
  have hcarried : Carried g property := .of_turn hg hturn
  induction h with
  | created config => exact hcreated config
  | setConfig _ config ih => exact hconfig _ config ih
  | setCosts _ costs ih => exact hcosts _ costs ih
  | reset _ ih => exact hreset _ ih
  | begin h ih => exact hcarried.begun (h.healthy hg) ih
  | advance h source ih => exact hcarried.advance (h.healthy hg) ih source
  | parse h source ih => exact hcarried.parse hg (h.healthy hg) ih source
  | timedOut h hfills steps elapsed ih =>
      exact hturn (h.healthy hg) (hfills.timedOut_turn hg (h.healthy hg) steps elapsed) ih

include hg in
theorem Reached.unbegun (h : Reached g p) : p.Unbegun := by
  apply h.kept hg Unbegun
  case hturn => exact fun hp hturn hblank => hturn.unbegun hg hp hblank
  case hcreated => exact fun _ _ => rfl
  case hconfig => exact fun _ _ hblank => hblank
  case hcosts => exact fun _ _ hblank => hblank
  case hreset => exact fun _ _ _ => rfl

end Parser

inductive Operation : Type 1
  | setConfig (config : Config)
  | setCosts (costs : CostProvider)
  | reset
  | begin
  | advance {σ : Type} [TokenSource σ] (source : σ)
  | parse {σ : Type} [TokenSource σ] (source : σ)

inductive Answer : Type 1
  | silent
  | begun (result : Except ParseError Unit)
  | advanced {σ : Type} (result : Except ParseError Progress) (rest : σ)
  | parsed {σ : Type} (result : Except ParseError Verdict) (rest : σ)

namespace Parser

def perform (p : Parser) : Operation → Answer × Parser
  | .setConfig config => (.silent, p.setConfig config)
  | .setCosts costs => (.silent, p.setCosts costs)
  | .reset => (.silent, p.reset)
  | .begin => (.begun p.begin.1, p.begin.2)
  | @Operation.advance _ _ source =>
      (.advanced (p.advance source).result (p.advance source).source, (p.advance source).parser)
  | @Operation.parse _ _ source =>
      (.parsed (p.parse source).result (p.parse source).source, (p.parse source).parser)

def performAll (p : Parser) : List Operation → List Answer × Parser
  | [] => ([], p)
  | operation :: rest =>
      let (answer, p) := p.perform operation
      let (answers, p) := performAll p rest
      (answer :: answers, p)

variable {g : Grammar} {p : Parser}

theorem Reached.perform (h : Reached g p) (operation : Operation) :
    Reached g (p.perform operation).2 := by
  cases operation with
  | setConfig config => exact h.setConfig config
  | setCosts costs => exact h.setCosts costs
  | reset => exact h.reset
  | begin => exact h.begin
  | advance source => exact h.advance source
  | parse source => exact h.parse source

end Parser
end EarleyChart
