import EarleyChart.Forest.Build
import EarleyChart.Proofs.Chart.Below
import EarleyChart.Proofs.Forest.Derivation

/-!
What an item stands for, as a set: the sequences of trees for the symbols before
its dot that read the tokens since its origin. Without repair these come link by
link, each from one link only.
-/

namespace EarleyChart

/-- Trees that read the tokens from a column on stand there for a string. -/
theorem Grammar.stands_of_drop {g : Grammar} {tokens read rest : List Token} {column : Nat}
    {word : List SymbolId} (htokens : tokens.drop column = read ++ rest)
    (hread : read.map (fun token => g.terminalForKind? token.kind) = word.map some) :
    g.Stands tokens column word ∧ read.length = word.length := by
  refine ⟨fun i terminal hi => ?_, by simpa using congrArg List.length hread⟩
  have hi' := congrArg (·[i]?) hread
  simp only [List.getElem?_map, hi, Option.map_some, Option.map_eq_some_iff] at hi'
  obtain ⟨token, htoken, hkind⟩ := hi'
  refine ⟨token, ?_, hkind⟩
  rw [← List.getElem?_drop, htokens,
    List.getElem?_append_left (List.getElem?_eq_some_iff.mp htoken).1, htoken]

namespace Forest

/-- The sequences of trees for an item's part before its dot. -/
def alternatives (f : Forest) (tokens : List Token) (id : ItemId) : Set (List ParseTree) :=
  {row | ∃ item r, f.item? id = some item ∧ f.grammar.rule? item.rule = some r ∧
    ParseTree.DeriveAll f.grammar row (r.rhs.take item.dot) ∧
    tokens.drop item.origin = ParseTree.tokensOfAll row ++ tokens.drop id.column}

def children (f : Forest) (tokens : List Token) (item : Item) (link : Link) : Set ParseTree :=
  match link.right with
  | some right => {tree | ∃ last inner, f.item? right = some last ∧
      inner ∈ f.alternatives tokens right ∧
      tree = .node last.rule (f.grammar.lhs last.rule) inner}
  | none => {tree | tree ∈ f.tokenChild item link}

/-- The sequences of trees that a link leads to. -/
def through (f : Forest) (tokens : List Token) (item : Item) (link : Link) :
    Set (List ParseTree) :=
  {row | ∃ left ∈ f.alternatives tokens link.left, ∃ child ∈ f.children tokens item link,
    row = left ++ [child]}

section Reading

variable {f : Forest} (hg : f.grammar.Numbered) {ceiling : Nat} {tokens : List Token}
  (h : f.chart.Reading f.grammar .none ceiling tokens tokens.length)

include h in
theorem no_cost {id : ItemId} {item : Item} (hitem : f.item? id = some item) :
    item.errorCost = 0 :=
  (h.sound id item hitem).1.corrected.cost_eq_zero

include h in
/-- Every item goes back to a seed of its rule. -/
theorem begun {id : ItemId} {item : Item} (hitem : f.item? id = some item) :
    f.chart.Begun item.key := by
  induction id using ItemId.wellFounded_before.induction generalizing item with
  | _ id ih =>
  have hfits := h.valid.item id item hitem
  cases hlinks : item.links with
  | nil =>
      obtain ⟨hdot, horigin⟩ := hfits.links.mp hlinks
      refine ⟨id, item, hitem, horigin.symm, ?_, Nat.le_of_eq (no_cost h hitem), by simp⟩
      simp [Item.key, Candidate.key, hdot]
  | cons link links =>
      obtain ⟨holder, -⟩ := hfits.first link (by rw [hlinks, List.head?_cons])
      have hbegun : ∀ left, f.item? link.left = some left → item.key.rule = left.rule →
          item.key.origin = left.origin → f.chart.Begun item.key := by
        intro left hleft hrule horigin
        have := ih link.left holder hleft
        rw [Chart.Begun, hrule, horigin]
        exact this
      rcases (hfits.shape link (by simp [hlinks])).token_or_completed with
        ⟨-, -, left, hleft, hrule, horigin⟩ | ⟨_, left, _, -, hleft, -, -, -, hkey, -⟩
      · exact hbegun left hleft hrule horigin
      · exact hbegun left hleft (congrArg ItemKey.rule hkey) (congrArg ItemKey.origin hkey)

include hg h in
/-- Trees for the first symbols of a rule that was begun lead to an item. -/
theorem item_of_deriveAll {rule : RuleId} {r : Rule} {dot origin : Nat} {row : List ParseTree}
    {rest : List Token} (hr : f.grammar.rule? rule = some r) (hdot : dot ≤ r.rhs.length)
    (hbegun : f.chart.Begun ⟨rule, dot, origin⟩)
    (hrow : ParseTree.DeriveAll f.grammar row (r.rhs.take dot))
    (htokens : tokens.drop origin = ParseTree.tokensOfAll row ++ rest) :
    ∃ id item, f.item? id = some item ∧
      id.column = origin + (ParseTree.tokensOfAll row).length ∧
      item.key = ⟨rule, dot, origin⟩ := by
  obtain ⟨seed, first, hfirst, hseed, -⟩ := id hbegun
  have horigin := f.chart.column_lt seed first hfirst
  rw [h.current] at horigin
  have horigin : origin ≤ tokens.length := by simpa [hseed] using horigin
  obtain ⟨word, hspells, hread⟩ := ParseTree.spells_of_deriveAll hg row _ hrow
  obtain ⟨hstands, hlength⟩ := Grammar.stands_of_drop htokens hread
  have hroom := congrArg List.length htokens
  rw [List.length_drop, List.length_append] at hroom
  have hderived := hspells.corrected ⟨rule, 0, origin⟩ hr (List.take_prefix _ _) hstands
    (by omega) (.start origin rule horigin (by simp [hr]))
  rw [Nat.zero_add, List.length_take, Nat.min_eq_left hdot] at hderived
  obtain ⟨-, id, item, hitem, hcolumn, hkey, -⟩ := h.contains_of_corrected hg (by simp) hderived
    (Nat.zero_le _) hbegun
  exact ⟨id, item, hitem, by rw [hcolumn, hlength], hkey⟩

/-- A link of a run without repair: over a token that is read as itself, or over
a completed item. -/
inductive Takes (f : Forest) (tokens : List Token) (id : ItemId) (item : Item) : Link → Prop
  | scanned (other : ItemId) (left : Item) (terminal : SymbolId) (token : Token)
      (hleft : f.item? other = some left) (hcolumn : other.column + 1 = id.column)
      (hkey : item.key = ⟨left.rule, left.dot + 1, left.origin⟩)
      (hnext : f.grammar.next? left.rule left.dot = some terminal)
      (htoken : tokens[other.column]? = some token)
      (hkind : f.grammar.terminalForKind? token.kind = some terminal)
      (hchild : f.tokenChild item ⟨.scanned, other, none⟩ = [.leaf terminal token]) :
      Takes f tokens id item ⟨.scanned, other, none⟩
  | completed (other last : ItemId) (left right : Item) (hleft : f.item? other = some left)
      (hright : f.item? last = some right) (hmeet : other.column = right.origin)
      (hlast : last.column = id.column)
      (hkey : item.key = ⟨left.rule, left.dot + 1, left.origin⟩)
      (hnext : f.grammar.next? left.rule left.dot = some (f.grammar.lhs right.rule))
      (hend : f.grammar.next? right.rule right.dot = none) :
      Takes f tokens id item ⟨.completed, other, some last⟩

include h in
theorem takes {id : ItemId} {item : Item} (hitem : f.item? id = some item) {link : Link}
    (hlink : link ∈ item.links) : f.Takes tokens id item link := by
  have hallowed := (h.sound id item hitem).2 link hlink
  have hcolumn : item.column = id.column :=
    congrArg ItemId.column (Chart.item_id _ _ h.valid.filed id item hitem)
  cases (h.valid.item id item hitem).shape link hlink with
  | scanned other left terminal hleft hbefore hkey hnext hterminal =>
      obtain ⟨token, hget, hkind⟩ := Option.bind_eq_some_iff.mp hterminal
      have hlt := f.chart.column_lt id item hitem
      rw [h.current] at hlt
      have htoken := h.token other.column (by omega)
      rw [hbefore, hget] at htoken
      obtain ⟨hrule, hdot, -⟩ := Item.key_eq_iff.mp hkey
      refine .scanned other left terminal token hleft hbefore hkey hnext htoken.symm hkind ?_
      have hread : f.token? item.column = some token := by rw [hcolumn]; exact hget
      simp [tokenChild, hread, steppedTerminal?, hrule, hdot, hnext]
  | completed other last left right hleft hright hmeet hother hkey hnext hend =>
      exact .completed other last left right hleft hright hmeet hother hkey hnext hend
  | substituted | deleted => simpa using Quote.none_allows hallowed

include h in
theorem dot_pos {id : ItemId} {item : Item} (hitem : f.item? id = some item) {link : Link}
    (hlink : link ∈ item.links) : 0 < item.dot := by
  cases takes h hitem hlink with
  | scanned _ left _ _ _ _ hkey | completed _ _ left _ _ _ _ _ hkey =>
      rw [show item.dot = left.dot + 1 from congrArg ItemKey.dot hkey]
      exact Nat.succ_pos _

/-- The trees before and after the last symbol together. -/
theorem mem_alternatives_concat {id : ItemId} {item : Item} (left : Item) {r : Rule}
    (hitem : f.item? id = some item) (hr : f.grammar.rule? left.rule = some r)
    (hkey : item.key = ⟨left.rule, left.dot + 1, left.origin⟩) {symbol : SymbolId}
    (hsymbol : r.rhs[left.dot]? = some symbol) {row : List ParseTree} :
    row ∈ f.alternatives tokens id ↔ ∃ front last, row = front ++ [last] ∧
      ParseTree.DeriveAll f.grammar front (r.rhs.take left.dot) ∧
      last.Derives f.grammar symbol ∧ tokens.drop left.origin =
        ParseTree.tokensOfAll front ++ (last.tokens ++ tokens.drop id.column) := by
  obtain ⟨hrule, hdot, horigin⟩ := Item.key_eq_iff.mp hkey
  have htake : r.rhs.take item.dot = r.rhs.take left.dot ++ [symbol] := by
    rw [hdot, List.take_add_one, hsymbol, Option.toList_some]
  constructor
  · rintro ⟨item', r', hitem', hr', hrow, htokens⟩
    obtain rfl := Option.some.inj (hitem.symm.trans hitem')
    rw [hrule] at hr'
    obtain rfl := Option.some.inj (hr.symm.trans hr')
    rw [htake] at hrow
    obtain ⟨front, last, rfl, hfront, hlast⟩ := ParseTree.deriveAll_concat.mp hrow
    refine ⟨front, last, rfl, hfront, hlast, ?_⟩
    rw [← horigin, htokens, ParseTree.tokensOfAll_concat, List.append_assoc]
  · rintro ⟨front, last, rfl, hfront, hlast, htokens⟩
    refine ⟨item, r, hitem, by rw [hrule, hr], ?_, ?_⟩
    · rw [htake]
      exact ParseTree.deriveAll_concat.mpr ⟨front, last, rfl, hfront, hlast⟩
    · rw [horigin, htokens, ParseTree.tokensOfAll_concat, List.append_assoc]

end Reading

end Forest
end EarleyChart
