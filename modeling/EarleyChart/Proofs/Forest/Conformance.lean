import EarleyChart.Forest.Build
import EarleyChart.Proofs.Chart.Validity
import EarleyChart.Proofs.Forest.Derivation

/-!
Trees with corrections. A tree conforms to a grammar when the children of every
node, the dropped tokens apart, stand for the right-hand side of its rule. What a
link adds to the children of the item that it leads from keeps to the rule, and to
the tokens that opened the columns in between.
-/

namespace EarleyChart
namespace ParseTree

/-- The symbol that a tree stands for in the row of its siblings; a dropped token
stands for none. -/
def symbol? : ParseTree → Option SymbolId
  | .node _ lhs _ => some lhs
  | .leaf terminal _ => some terminal
  | .substituted expected _ => some expected
  | .skipped _ => none

inductive Conforms (g : Grammar) : ParseTree → Prop
  | node (rule : RuleId) (r : Rule) (children : List ParseTree) (hrule : g.rule? rule = some r)
      (hrow : children.filterMap symbol? = r.rhs)
      (hchildren : ∀ child ∈ children, Conforms g child) :
      Conforms g (.node rule r.lhs children)
  | leaf (terminal : SymbolId) (token : Token)
      (hkind : g.terminalForKind? token.kind = some terminal) :
      Conforms g (.leaf terminal token)
  | substituted (expected : SymbolId) (found : Token)
      (hterminal : g.isTerminal expected = true)
      (hother : g.terminalForKind? found.kind ≠ some expected) :
      Conforms g (.substituted expected found)
  | skipped (token : Token) : Conforms g (.skipped token)

end ParseTree

theorem Grammar.take_succ_of_next? {g : Grammar} {rule : RuleId} {r : Rule} {dot : Nat}
    {symbol : SymbolId} (hr : g.rule? rule = some r) (hnext : g.next? rule dot = some symbol) :
    r.rhs.take (dot + 1) = r.rhs.take dot ++ [symbol] := by
  have hsymbol : r.rhs[dot]? = some symbol := by simpa [next?, hr] using hnext
  rw [List.take_add_one, hsymbol, Option.toList_some]

namespace Forest

def opening (f : Forest) : List (Option Token) := f.chart.columns.toList.map (·.token)

theorem drop_opening {f : Forest} {column : Nat} {token : Token}
    (h : f.chart.token? column = some token) :
    f.opening.drop column = some token :: f.opening.drop (column + 1) := by
  have hget : f.opening[column]? = some (some token) := by
    rw [opening, List.getElem?_map, Array.getElem?_toList]
    obtain ⟨found, hfound, htoken⟩ := Option.bind_eq_some_iff.mp h
    rw [hfound, Option.map_some, htoken]
  obtain ⟨hlt, heq⟩ := List.getElem?_eq_some_iff.mp hget
  rw [List.drop_eq_getElem_cons hlt, heq]

/-- The children that an item may have: they keep to its rule up to the dot, and
to the tokens of the columns since its origin. -/
def corrected (f : Forest) (id : ItemId) : Set (List ParseTree) :=
  {row | ∃ item r, f.item? id = some item ∧ f.grammar.rule? item.rule = some r ∧
    (∀ child ∈ row, child.Conforms f.grammar) ∧
    row.filterMap ParseTree.symbol? = r.rhs.take item.dot ∧
    f.opening.drop (item.origin + 1) =
      (ParseTree.tokensOfAll row).map some ++ f.opening.drop (id.column + 1)}

/-- A child that leads from one item to another. -/
structure LedBy (f : Forest) (id : ItemId) (item : Item) (other : ItemId) (left : Item)
    (child : ParseTree) : Prop where
  found : f.item? other = some left
  rule : item.rule = left.rule
  origin : item.origin = left.origin
  conforms : child.Conforms f.grammar
  symbols : ∀ r, f.grammar.rule? left.rule = some r →
    r.rhs.take item.dot = r.rhs.take left.dot ++ child.symbol?.toList
  read : f.opening.drop (other.column + 1) =
    child.tokens.map some ++ f.opening.drop (id.column + 1)

variable {f : Forest} {id other : ItemId} {item left : Item}

theorem LedBy.concat {child : ParseTree} (h : f.LedBy id item other left child)
    (hitem : f.item? id = some item) {front : List ParseTree}
    (hfront : front ∈ f.corrected other) : front ++ [child] ∈ f.corrected id := by
  obtain ⟨left', r, hleft', hr, hconform, hsymbols, htokens⟩ := hfront
  obtain rfl := Option.some.inj (h.found.symm.trans hleft')
  refine ⟨item, r, hitem, by rw [h.rule, hr], ?_, ?_, ?_⟩
  · intro tree htree
    rcases List.mem_append.mp htree with hmem | hmem
    · exact hconform tree hmem
    · exact List.mem_singleton.mp hmem ▸ h.conforms
  · rw [List.filterMap_append, hsymbols, h.symbols r hr]
    cases hsymbol : child.symbol? <;> simp [hsymbol]
  · rw [h.origin, htokens, h.read, ParseTree.tokensOfAll_concat, List.map_append,
      List.append_assoc]

variable (hc : f.chart.Valid f.grammar) (hitem : f.item? id = some item)

include hitem in
theorem nil_mem_corrected (hfits : f.chart.ItemFits f.grammar id item)
    (hlinks : item.links = []) : [] ∈ f.corrected id := by
  obtain ⟨r, hr, -⟩ := hfits.dot
  obtain ⟨hdot, horigin⟩ := hfits.links.mp hlinks
  exact ⟨item, r, hitem, hr, by simp, by simp [hdot], by simp [horigin, ParseTree.tokensOfAll]⟩

include hc hitem in
/-- A step over a token has one child, made of the token that opened the column. -/
theorem tokenChild_ledBy {link : Link} (hlink : link ∈ item.links)
    (hstep : link.step ≠ .completed) : ∃ left child, f.tokenChild item link = [child] ∧
      f.LedBy id item link.left left child := by
  have hcolumn : item.column = id.column :=
    congrArg ItemId.column (Chart.item_id _ _ hc.filed id item hitem)
  have htoken : ∀ token, f.chart.token? id.column = some token →
      f.token? item.column = some token := fun token h => by rw [hcolumn]; exact h
  cases (hc.item id item hitem).shape link hlink with
  | scanned other left terminal hleft hbefore hkey hnext hterminal =>
      obtain ⟨token, hget, hkind⟩ := Option.bind_eq_some_iff.mp hterminal
      obtain ⟨hrule, hdot, horigin⟩ := Item.key_eq_iff.mp hkey
      refine ⟨left, .leaf terminal token, ?_, hleft, hrule, horigin, .leaf _ _ hkind, ?_, ?_⟩
      · simp [tokenChild, htoken token hget, steppedTerminal?, hrule, hdot, hnext]
      · intro r hr
        rw [hdot]
        exact Grammar.take_succ_of_next? hr hnext
      · rw [hbefore]
        exact drop_opening hget
  | substituted other left terminal token hleft hbefore hkey hnext hterminal hget hother =>
      obtain ⟨hrule, hdot, horigin⟩ := Item.key_eq_iff.mp hkey
      refine ⟨left, .substituted terminal token, ?_, hleft, hrule, horigin,
        .substituted _ _ hterminal hother, ?_, ?_⟩
      · simp [tokenChild, htoken token hget, steppedTerminal?, hrule, hdot, hnext]
      · intro r hr
        rw [hdot]
        exact Grammar.take_succ_of_next? hr hnext
      · rw [hbefore]
        exact drop_opening hget
  | deleted other left terminal token hleft hbefore hkey hnext hterminal hget =>
      obtain ⟨hrule, hdot, horigin⟩ := Item.key_eq_iff.mp hkey
      refine ⟨left, .skipped token, ?_, hleft, hrule, horigin, .skipped _, ?_, ?_⟩
      · simp [tokenChild, htoken token hget]
      · -- the dot stays where it is, and a dropped token stands for no symbol
        intro r hr
        rw [hdot, ParseTree.symbol?, Option.toList_none, List.append_nil]
      · rw [hbefore]
        exact drop_opening hget
  | completed => exact absurd rfl hstep

/-- A completed item as a tree, with children that it may have. -/
theorem conforms_node {last : ItemId} {right : Item} (hright : f.item? last = some right)
    (hend : f.grammar.next? right.rule right.dot = none) {inner : List ParseTree}
    (hinner : inner ∈ f.corrected last) :
    (ParseTree.node right.rule (f.grammar.lhs right.rule) inner).Conforms f.grammar := by
  obtain ⟨right', r, hright', hr, hconform, hsymbols, -⟩ := hinner
  obtain rfl := Option.some.inj (hright.symm.trans hright')
  have hlhs : f.grammar.lhs right.rule = r.lhs := by rw [Grammar.lhs, hr, Option.elim_some]
  have hlast : r.rhs.length ≤ right.dot := by simpa [Grammar.next?, hr] using hend
  rw [List.take_of_length_le hlast] at hsymbols
  rw [hlhs]
  exact .node right.rule r inner hr hsymbols hconform

/-- A step over a completed item has a node for each row of children of that. -/
theorem node_ledBy {last : ItemId} {right : Item} (hleft : f.item? other = some left)
    (hright : f.item? last = some right) (hmeet : other.column = right.origin)
    (hlast : last.column = id.column)
    (hkey : item.key = ⟨left.rule, left.dot + 1, left.origin⟩)
    (hnext : f.grammar.next? left.rule left.dot = some (f.grammar.lhs right.rule))
    (hend : f.grammar.next? right.rule right.dot = none) {inner : List ParseTree}
    (hinner : inner ∈ f.corrected last) :
    f.LedBy id item other left (.node right.rule (f.grammar.lhs right.rule) inner) := by
  obtain ⟨hrule, hdot, horigin⟩ := Item.key_eq_iff.mp hkey
  refine ⟨hleft, hrule, horigin, conforms_node hright hend hinner, ?_, ?_⟩
  · intro r hr
    rw [hdot]
    exact Grammar.take_succ_of_next? hr hnext
  · -- the completed item goes on where the left end stops, up to the same column
    obtain ⟨right', r, hright', -, -, -, htokens⟩ := hinner
    obtain rfl := Option.some.inj (hright.symm.trans hright')
    rw [hmeet, htokens, hlast, ParseTree.tokens]

end Forest
end EarleyChart
