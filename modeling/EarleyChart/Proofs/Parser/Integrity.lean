import EarleyChart.Proofs.Parser.History
import EarleyChart.Proofs.Parser.Repair

/-!
The items and links of every chart that a parser can come to, those of a run
that an error stopped among them. The shape of a link is spelled out by its
step: which item it leads from, over which token, or over which completed item.
-/

namespace EarleyChart
namespace Chart

/-- The shape of a link of an item in a column, by the step that it takes. -/
def Joins (g : Grammar) (c : Chart) (id : ItemId) (item : Item) (link : Link) : Prop :=
  ∃ left, c.item? link.left = some left ∧ left.rule = item.rule ∧ left.origin = item.origin ∧
    match link.step with
    | .scanned => left.dot + 1 = item.dot ∧ link.left.column + 1 = id.column ∧
        link.right = none ∧ ∃ terminal token, g.isTerminal terminal = true ∧
          g.next? left.rule left.dot = some terminal ∧ c.token? id.column = some token ∧
          g.terminalForKind? token.kind = some terminal
    | .substituted => left.dot + 1 = item.dot ∧ link.left.column + 1 = id.column ∧
        link.right = none ∧ ∃ terminal token, g.isTerminal terminal = true ∧
          g.next? left.rule left.dot = some terminal ∧ c.token? id.column = some token ∧
          g.terminalForKind? token.kind ≠ some terminal
    | .deleted => left.dot = item.dot ∧ link.left.column + 1 = id.column ∧
        link.right = none ∧ ∃ terminal, g.isTerminal terminal = true ∧
          g.next? left.rule left.dot = some terminal
    | .completed => left.dot + 1 = item.dot ∧ ∃ other right r, link.right = some other ∧
        c.item? other = some right ∧ other.column = id.column ∧
        link.left.column = right.origin ∧ g.rule? right.rule = some r ∧
        right.dot = r.rhs.length ∧ g.next? left.rule left.dot = some r.lhs

/-- In a well-formed chart a link that fits an item has the shape of its step. -/
theorem LinkFits.joins {g : Grammar} (hg : g.Numbered) {c : Chart} {id : ItemId} {item : Item}
    {link : Link} (h : c.LinkFits g item.key id.column link) (hc : c.Valid g) :
    c.Joins g id item link := by
  cases h with
  | scanned before left terminal hleft hcolumn hkey hnext htoken =>
      obtain ⟨hrule, hdot, horigin⟩ := Item.key_eq_iff.mp hkey
      obtain ⟨token, ht, hkind⟩ := Option.bind_eq_some_iff.mp htoken
      have hterminal := Symbols.terminalForKind?_isTerminal hg.tabled hkind
      exact ⟨left, hleft, hrule.symm, horigin.symm, hdot.symm, hcolumn, rfl, terminal, token,
        hterminal, hnext, ht, hkind⟩
  | substituted before left terminal token hleft hcolumn hkey hnext hterminal htoken hother =>
      obtain ⟨hrule, hdot, horigin⟩ := Item.key_eq_iff.mp hkey
      exact ⟨left, hleft, hrule.symm, horigin.symm, hdot.symm, hcolumn, rfl, terminal, token,
        hterminal, hnext, htoken, hother⟩
  | deleted before left terminal token hleft hcolumn hkey hnext hterminal htoken =>
      obtain ⟨hrule, hdot, horigin⟩ := Item.key_eq_iff.mp hkey
      exact ⟨left, hleft, hrule.symm, horigin.symm, hdot.symm, hcolumn, rfl, terminal,
        hterminal, hnext⟩
  | completed before other left right hleft hright hcolumn hother hkey hnext hend =>
      obtain ⟨hrule, hdot, horigin⟩ := Item.key_eq_iff.mp hkey
      obtain ⟨r, hr, hlast⟩ := Grammar.dot_of_end (hc.item other right hright).dot hend
      rw [Grammar.lhs, hr, Option.elim_some] at hnext
      exact ⟨left, hleft, hrule.symm, horigin.symm, hdot.symm, other, right, r, rfl, hright,
        hother, hcolumn, hr, hlast, hnext⟩

end Chart

namespace Parser

/-- Whatever was done with a parser, every item of its chart is in its place, and
every link has the shape of its step. -/
theorem reached_item_wellFormed (d : GrammarDef) (g : Grammar) (hd : d.toGrammar = .ok g)
    (p : Parser) (hp : Reached g p) (id : ItemId) (item : Item) (hitem : p.item? id = some item) :
    (∃ r, g.rule? item.rule = some r ∧ item.dot ≤ r.rhs.length) ∧ item.origin ≤ id.column ∧
      (item.links = [] ↔ item.dot = 0 ∧ item.origin = id.column) ∧ item.links.Nodup ∧
      ∀ link ∈ item.links, p.chart.Joins g id item link := by
  have hg := d.toGrammar_numbered g hd
  have hvalid := (hp.healthy hg).valid
  have hfits := hvalid.item id item hitem
  refine ⟨hfits.dot, hfits.origin, hfits.links, hfits.nodup, ?_⟩
  intro link hlink
  exact (hfits.shape link hlink).joins hg hvalid

/-- A run over `a a` with repair, which the limit on items stops in the last
column. -/
def cutShort : Parser :=
  ((fresh pair ⟨.onFailure, 2, 0, 3, 0, 0⟩ (.uniform ⟨1, 1⟩)).parse
    (TokenStream.ofList [⟨0, "a", .start⟩, ⟨0, "a", .start⟩])).parser

/-- The error leaves an item that a deletion leads to and one that a substitution
leads to. -/
theorem reached_item_wellFormed_cutShort :
    cutShort.error = some (.itemLimitExceeded 4 3) ∧
      cutShort.chart.Joins pair ⟨2, 0⟩ ⟨0, 1, 0, 1, 2, 0, [⟨.deleted, ⟨1, 0⟩, none⟩]⟩
        ⟨.deleted, ⟨1, 0⟩, none⟩ ∧
      cutShort.chart.Joins pair ⟨2, 1⟩ ⟨0, 2, 0, 1, 2, 1, [⟨.substituted, ⟨1, 0⟩, none⟩]⟩
        ⟨.substituted, ⟨1, 0⟩, none⟩ := by
  have hreached : Reached pair cutShort := .parse (.setCosts (.created _) _) _
  have hitems : cutShort.item? ⟨2, 0⟩ = some
        ⟨0, 1, 0, 1, 2, 0, [⟨.deleted, ⟨1, 0⟩, none⟩]⟩ ∧
      cutShort.item? ⟨2, 1⟩ = some ⟨0, 2, 0, 1, 2, 1, [⟨.substituted, ⟨1, 0⟩, none⟩]⟩ := by
    decide +kernel
  obtain ⟨-, -, -, -, hdeleted⟩ :=
    reached_item_wellFormed pairDef pair rfl cutShort hreached _ _ hitems.1
  obtain ⟨-, -, -, -, hsubstituted⟩ :=
    reached_item_wellFormed pairDef pair rfl cutShort hreached _ _ hitems.2
  exact ⟨by decide +kernel, hdeleted _ (by simp), hsubstituted _ (by simp)⟩

end Parser
end EarleyChart
