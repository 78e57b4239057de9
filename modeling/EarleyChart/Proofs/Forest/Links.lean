import EarleyChart.Proofs.Forest.Alternatives

/-!
The alternatives of an item come through its links. What a link leads to is an
alternative; and the last tree of an alternative is a token or an applied rule
that an item waits for, so that there is a link over it.
-/

namespace EarleyChart
namespace Forest

section Reading

variable {f : Forest} (hg : f.grammar.Numbered) {ceiling : Nat} {tokens : List Token}
  (h : f.chart.Reading f.grammar .none ceiling tokens tokens.length)

include h in
/-- What a link leads to is an alternative of the item. -/
theorem mem_alternatives_of_through {id : ItemId} {item : Item} (hitem : f.item? id = some item)
    {link : Link} (hlink : link ∈ item.links) {row : List ParseTree}
    (hrow : row ∈ f.through tokens item link) : row ∈ f.alternatives tokens id := by
  obtain ⟨front, ⟨left', r, hleft', hr, hfront, htokens⟩, child, hchild, rfl⟩ := hrow
  cases takes h hitem hlink with
  | scanned other left terminal token hleft hcolumn hkey hnext htoken hkind hone =>
      obtain rfl := Option.some.inj (hleft.symm.trans hleft')
      have hsymbol : r.rhs[left.dot]? = some terminal := by simpa [Grammar.next?, hr] using hnext
      obtain rfl : child = .leaf terminal token := by simpa [children, hone] using hchild
      refine (mem_alternatives_concat left hitem hr hkey hsymbol).mpr
        ⟨front, _, rfl, hfront, ⟨rfl, hkind⟩, ?_⟩
      obtain ⟨hlt, hget⟩ := List.getElem?_eq_some_iff.mp htoken
      rw [htokens, List.drop_eq_getElem_cons hlt, hget, hcolumn]
      rfl
  | completed other last left right hleft hright hmeet hlast hkey hnext hend =>
      obtain rfl := Option.some.inj (hleft.symm.trans hleft')
      have hsymbol : r.rhs[left.dot]? = some (f.grammar.lhs right.rule) := by
        simpa [Grammar.next?, hr] using hnext
      obtain ⟨right', inner, hright', ⟨right'', r', hright'', hr', hinner, htokens'⟩, rfl⟩ :=
        hchild
      obtain rfl := Option.some.inj (hright.symm.trans hright')
      obtain rfl := Option.some.inj (hright.symm.trans hright'')
      have hfull : r'.rhs.take right.dot = r'.rhs := by
        refine List.take_of_length_le ?_
        simpa [Grammar.next?, hr'] using hend
      rw [hfull] at hinner
      refine (mem_alternatives_concat left hitem hr hkey hsymbol).mpr
        ⟨front, _, rfl, hfront, ⟨rfl, r', hr', by rw [Grammar.lhs, hr', Option.elim_some],
          hinner⟩, ?_⟩
      rw [htokens, hmeet, htokens', hlast]
      rfl

include h in
/-- A token after the trees of an item advances it by a link. -/
theorem link_of_leaf {id other : ItemId} {item left : Item} (hitem : f.item? id = some item)
    (hleft : f.item? other = some left) (hcolumn : other.column + 1 = id.column)
    (hkey : item.key = ⟨left.rule, left.dot + 1, left.origin⟩) {terminal : SymbolId}
    {token : Token} (hnext : f.grammar.next? left.rule left.dot = some terminal)
    (hkind : f.grammar.terminalForKind? token.kind = some terminal)
    (htoken : tokens[other.column]? = some token) :
    ⟨.scanned, other, none⟩ ∈ item.links := by
  have hlt := (List.getElem?_eq_some_iff.mp htoken).1
  obtain ⟨id', item', hitem', hcolumn', hkey', -, hlink⟩ := h.read other left token
    (Chart.scanOver left) hleft hlt htoken (.scan hnext hkind)
    (by rw [Chart.scanOver, no_cost h hleft]; exact Nat.zero_le _)
  obtain ⟨-, rfl⟩ := f.chart.item_unique f.grammar h.valid.filed id' id item' item hitem' hitem
    (by omega) (hkey'.trans hkey.symm)
  have := hlink _ rfl
  rwa [Chart.item_id _ _ h.valid.filed other left hleft] at this

include h in
/-- A completed item after the trees of an item advances it by a link. -/
theorem link_of_node {id other last : ItemId} {item left right : Item}
    (hitem : f.item? id = some item) (hleft : f.item? other = some left)
    (hright : f.item? last = some right) (hmeet : other.column = right.origin)
    (hlast : last.column = id.column)
    (hkey : item.key = ⟨left.rule, left.dot + 1, left.origin⟩)
    (hnext : f.grammar.next? left.rule left.dot = some (f.grammar.lhs right.rule))
    (hend : f.grammar.next? right.rule right.dot = none) :
    ⟨.completed, other, some last⟩ ∈ item.links := by
  have hle := f.chart.column_lt last right hright
  rw [h.current] at hle
  have hcost : (Chart.advanceOver right left).errorCost = 0 := by
    rw [Chart.advanceOver, no_cost h hleft, no_cost h hright]
    rfl
  obtain ⟨id', item', hitem', hcolumn', hkey', -, hlink⟩ :=
    (h.saturated last.column hle).completed last right other left hright rfl hend hleft hmeet
      hnext (by rw [hcost]; exact Nat.zero_le _)
  obtain ⟨-, rfl⟩ := f.chart.item_unique f.grammar h.valid.filed id' id item' item hitem' hitem
    (hcolumn'.trans hlast) (hkey'.trans hkey.symm)
  have := hlink _ rfl
  rwa [Chart.item_id _ _ h.valid.filed other left hleft,
    Chart.item_id _ _ h.valid.filed last right hright] at this

/-- A tree and the tokens after it, where an item waits for its symbol. -/
structure Awaits (f : Forest) (tokens : List Token) (id other : ItemId) (item left : Item)
    (symbol : SymbolId) (last : ParseTree) : Prop where
  found : f.item? other = some left
  key : item.key = ⟨left.rule, left.dot + 1, left.origin⟩
  next : f.grammar.next? left.rule left.dot = some symbol
  derives : last.Derives f.grammar symbol
  rest : tokens.drop other.column = last.tokens ++ tokens.drop id.column

include hg h in
/-- All trees of an alternative but the last are one of an item before the last
symbol. -/
theorem awaits_of_mem_alternatives {id : ItemId} {item : Item}
    (hitem : f.item? id = some item) (hlinks : item.links ≠ []) {row : List ParseTree}
    (hrow : row ∈ f.alternatives tokens id) :
    ∃ front last other left symbol, row = front ++ [last] ∧
      front ∈ f.alternatives tokens other ∧ f.Awaits tokens id other item left symbol last := by
  obtain ⟨r, hr, hdot⟩ := (h.valid.item id item hitem).dot
  obtain ⟨link, hlink⟩ := List.exists_mem_of_ne_nil _ hlinks
  obtain ⟨dot, hsucc⟩ := Nat.exists_eq_succ_of_ne_zero (Nat.ne_of_gt (dot_pos h hitem hlink))
  obtain ⟨symbol, hsymbol⟩ : ∃ symbol, r.rhs[dot]? = some symbol :=
    ⟨_, List.getElem?_eq_getElem (by omega)⟩
  have hkey : item.key = ⟨item.rule, dot + 1, item.origin⟩ := by rw [Item.key, hsucc]
  obtain ⟨front, last, rfl, hfront, hlast, htokens⟩ := (mem_alternatives_concat
    { item with dot := dot } hitem hr hkey hsymbol).mp hrow
  have hbegun : f.chart.Begun ⟨item.rule, dot, item.origin⟩ := begun h hitem
  obtain ⟨other, left, hleft, hmeet, hleftkey⟩ :=
    item_of_deriveAll hg h hr (by omega) hbegun hfront htokens
  obtain ⟨hrule, hdot', horigin⟩ := Item.key_eq_iff.mp hleftkey
  have hrest : tokens.drop other.column = last.tokens ++ tokens.drop id.column := by
    have hdrop := congrArg (List.drop (ParseTree.tokensOfAll front).length) htokens
    rwa [List.drop_drop, List.drop_left, ← hmeet] at hdrop
  refine ⟨front, last, other, left, symbol, rfl, ?_, hleft, ?_, ?_, hlast, hrest⟩
  · refine ⟨left, r, hleft, by rw [hrule, hr], by rwa [hdot'], ?_⟩
    rw [horigin, hrest, htokens]
  · rw [hrule, hdot', horigin, hkey]
  · simp [Grammar.next?, hrule, hr, hdot', hsymbol]

namespace Awaits

variable {id other : ItemId} {item left : Item} {symbol : SymbolId}

include h in
/-- A token that is awaited advances the item that awaits it. -/
theorem through_leaf {terminal : SymbolId} {token : Token} (hitem : f.item? id = some item)
    (ha : f.Awaits tokens id other item left symbol (.leaf terminal token)) :
    ∃ link ∈ item.links, link.left = other ∧
      .leaf terminal token ∈ f.children tokens item link := by
  obtain ⟨rfl, hkind⟩ := ha.derives
  have hlength := congrArg List.length ha.rest
  rw [ParseTree.tokens, List.length_append, List.length_drop, List.length_drop,
    List.length_singleton] at hlength
  have hcolumn := f.chart.column_lt id item hitem
  rw [h.current] at hcolumn
  have hget : tokens[other.column]? = some token := by
    rw [← List.head?_drop, ha.rest]
    rfl
  have hmem := link_of_leaf h hitem ha.found (by omega) ha.key ha.next hkind hget
  refine ⟨_, hmem, rfl, ?_⟩
  cases takes h hitem hmem with
  | scanned _ left' terminal' token' hleft _ _ hnext hget' _ hone =>
      obtain rfl := Option.some.inj (ha.found.symm.trans hleft)
      obtain rfl := Option.some.inj (ha.next.symm.trans hnext)
      obtain rfl := Option.some.inj (hget.symm.trans hget')
      simp [children, hone]

include hg h in
/-- An applied rule that is awaited is completed, and advances the item that awaits
its left-hand side. -/
theorem through_node {rule : RuleId} {lhs : SymbolId} {inner : List ParseTree}
    (hitem : f.item? id = some item)
    (ha : f.Awaits tokens id other item left symbol (.node rule lhs inner)) :
    ∃ link ∈ item.links, link.left = other ∧
      .node rule lhs inner ∈ f.children tokens item link := by
  obtain ⟨rfl, r, hr, rfl, hinner⟩ := ha.derives
  have hlhs : f.grammar.lhs rule = r.lhs := by rw [Grammar.lhs, hr, Option.elim_some]
  have hrest := ha.rest
  rw [ParseTree.tokens] at hrest
  have hlength := congrArg List.length hrest
  rw [List.length_append, List.length_drop, List.length_drop] at hlength
  have hother := f.chart.column_lt other left ha.found
  have hcolumn := f.chart.column_lt id item hitem
  rw [h.current] at hother hcolumn
  have hbegun : f.chart.Begun ⟨rule, r.rhs.length, other.column⟩ :=
    (h.saturated other.column hother).predicted other left _ ha.found rfl ha.next
      (hg.lhs r (Array.mem_of_getElem? hr)) rule
      ((Grammar.mem_rulesFor_iff hg _ _).mpr ⟨r, hr, rfl⟩)
  obtain ⟨last, right, hright, hlast, hkey⟩ := item_of_deriveAll hg h hr (Nat.le_refl _) hbegun
    (by rwa [List.take_length]) hrest
  obtain ⟨hrule, hdot, horigin⟩ := Item.key_eq_iff.mp hkey
  have hend : f.grammar.next? right.rule right.dot = none := by
    simp [Grammar.next?, hrule, hr, hdot]
  have hmem := link_of_node h hitem ha.found hright horigin.symm (by omega) ha.key
    (by rw [ha.next, hrule, hlhs]) hend
  refine ⟨_, hmem, rfl, right, inner, hright, ?_, by rw [hrule, hlhs]⟩
  refine ⟨right, r, hright, by rw [hrule, hr], by rwa [hdot, List.take_length], ?_⟩
  rw [horigin, hrest]
  congr 2
  omega

end Awaits

include hg h in
/-- Every alternative of an item comes through a link. -/
theorem through_of_mem_alternatives {id : ItemId} {item : Item}
    (hitem : f.item? id = some item) (hlinks : item.links ≠ []) {row : List ParseTree}
    (hrow : row ∈ f.alternatives tokens id) :
    ∃ link ∈ item.links, row ∈ f.through tokens item link := by
  obtain ⟨front, last, other, left, symbol, rfl, hfront, ha⟩ :=
    awaits_of_mem_alternatives hg h hitem hlinks hrow
  obtain ⟨link, hlink, rfl, hchild⟩ : ∃ link ∈ item.links, link.left = other ∧
      last ∈ f.children tokens item link := by
    cases last with
    | leaf terminal token => exact ha.through_leaf h hitem
    | node rule lhs inner => exact ha.through_node hg h hitem
    | substituted | skipped => simpa [ParseTree.Derives] using ha.derives
  exact ⟨link, hlink, front, hfront, last, hchild, rfl⟩

include hg h in
theorem mem_alternatives_iff {id : ItemId} {item : Item} (hitem : f.item? id = some item)
    (hlinks : item.links ≠ []) (row : List ParseTree) : row ∈ f.alternatives tokens id ↔
      ∃ link ∈ item.links, row ∈ f.through tokens item link :=
  ⟨through_of_mem_alternatives hg h hitem hlinks,
    fun ⟨_, hlink, hrow⟩ => mem_alternatives_of_through h hitem hlink hrow⟩

end Reading

end Forest
end EarleyChart
