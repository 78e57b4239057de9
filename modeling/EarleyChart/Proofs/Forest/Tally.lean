import EarleyChart.Proofs.Forest.Links
import Mathlib.Data.Set.Card
import Mathlib.Data.Set.Finite.Lattice

/-!
The number of alternatives of an item. An alternative comes through one link
only, and what comes through a link is a pair of an alternative of its left end
and a tree for its step, so that the number is a sum of products over the links.
-/

namespace EarleyChart
namespace Forest

/-- The alternatives that some links lead to. -/
def gained (f : Forest) (tokens : List Token) (item : Item) (links : List Link) :
    Set (List ParseTree) :=
  {row | ∃ link ∈ links, row ∈ f.through tokens item link}

variable {f : Forest} {tokens : List Token}

theorem gained_nil (item : Item) : f.gained tokens item [] = ∅ := by
  simp [gained]

theorem gained_concat (item : Item) (links : List Link) (link : Link) :
    f.gained tokens item (links ++ [link]) =
      f.gained tokens item links ∪ f.through tokens item link := by
  ext row
  simp only [gained, List.mem_append, List.mem_singleton, Set.mem_ofPred_eq, Set.mem_union]
  constructor
  · rintro ⟨other, hother | rfl, hrow⟩
    · exact .inl ⟨other, hother, hrow⟩
    · exact .inr hrow
  · rintro (⟨other, hother, hrow⟩ | hrow)
    · exact ⟨other, .inl hother, hrow⟩
    · exact ⟨link, .inr rfl, hrow⟩

theorem concat_injective : Function.Injective fun pair : List ParseTree × ParseTree =>
    pair.1 ++ [pair.2] := by
  rintro ⟨front, last⟩ ⟨front', last'⟩ heq
  obtain ⟨hfront, hlast⟩ := List.append_inj' heq rfl
  exact Prod.ext hfront (List.singleton_inj.mp hlast)

theorem through_eq_image (item : Item) (link : Link) : f.through tokens item link =
    (fun pair : List ParseTree × ParseTree => pair.1 ++ [pair.2]) ''
      (f.alternatives tokens link.left ×ˢ f.children tokens item link) := by
  ext row
  constructor
  · rintro ⟨left, hleft, child, hchild, rfl⟩
    exact ⟨(left, child), ⟨hleft, hchild⟩, rfl⟩
  · rintro ⟨⟨left, child⟩, ⟨hleft, hchild⟩, rfl⟩
    exact ⟨left, hleft, child, hchild, rfl⟩

/-- As many as there are pairs of an alternative and a tree. -/
theorem ncard_through (item : Item) (link : Link) : (f.through tokens item link).ncard =
    (f.alternatives tokens link.left).ncard * (f.children tokens item link).ncard := by
  rw [through_eq_image, Set.ncard_image_of_injective _ concat_injective, Set.ncard_prod]

/-- A step over a token that is read as itself has one child. -/
theorem children_scanned {item : Item} {link : Link} {tree : ParseTree}
    (hright : link.right = none) (hone : f.tokenChild item link = [tree]) :
    f.children tokens item link = {tree} := by
  ext other
  simp [children, hright, hone]

theorem node_injective (rule : RuleId) (lhs : SymbolId) :
    Function.Injective (ParseTree.node rule lhs) := fun _ _ h => (ParseTree.node.inj h).2.2

theorem children_completed {item last : Item} {link : Link} {right : ItemId}
    (hright : link.right = some right) (hlast : f.item? right = some last) :
    f.children tokens item link =
      ParseTree.node last.rule (f.grammar.lhs last.rule) '' f.alternatives tokens right := by
  ext tree
  simp only [children, hright, Set.mem_ofPred_eq, Set.mem_image]
  constructor
  · rintro ⟨last', inner, hlast', hinner, rfl⟩
    obtain rfl := Option.some.inj (hlast.symm.trans hlast')
    exact ⟨inner, hinner, rfl⟩
  · rintro ⟨inner, hinner, rfl⟩
    exact ⟨last, inner, hlast, hinner, rfl⟩

section Reading

variable (hg : f.grammar.Numbered) {ceiling : Nat}
  (h : f.chart.Reading f.grammar .none ceiling tokens tokens.length)

include h in
/-- The column of an item is told by its alternatives. -/
theorem column_of_mem_alternatives {id : ItemId} {item : Item} (hitem : f.item? id = some item)
    {row : List ParseTree} (hrow : row ∈ f.alternatives tokens id) :
    id.column = item.origin + (ParseTree.tokensOfAll row).length := by
  obtain ⟨item', r, hitem', -, -, htokens⟩ := hrow
  obtain rfl := Option.some.inj (hitem.symm.trans hitem')
  have hlength := congrArg List.length htokens
  rw [List.length_append, List.length_drop, List.length_drop] at hlength
  have hcolumn := f.chart.column_lt id item hitem
  have horigin := (h.valid.item id item hitem).origin
  rw [h.current] at hcolumn
  omega

include h in
/-- An alternative comes through one link only. -/
theorem link_unique {id : ItemId} {item : Item} (hitem : f.item? id = some item)
    {link link' : Link} (hlink : link ∈ item.links) (hlink' : link' ∈ item.links)
    {row : List ParseTree} (hrow : row ∈ f.through tokens item link)
    (hrow' : row ∈ f.through tokens item link') : link = link' := by
  obtain ⟨front, hfront, child, hchild, rfl⟩ := hrow
  obtain ⟨front', hfront', child', hchild', heq⟩ := hrow'
  obtain ⟨rfl, hone⟩ := List.append_inj' heq rfl
  obtain rfl := List.singleton_inj.mp hone
  -- the left ends have one identity, and their columns are told by the sequence
  have hleft_unique : ∀ other other' left left', f.item? other = some left →
      f.item? other' = some left' → front ∈ f.alternatives tokens other →
      front ∈ f.alternatives tokens other' →
      item.key = ⟨left.rule, left.dot + 1, left.origin⟩ →
      item.key = ⟨left'.rule, left'.dot + 1, left'.origin⟩ → other = other' := by
    intro other other' left left' hleft hleft' hmem hmem' hkey hkey'
    have hcolumn := column_of_mem_alternatives h hleft hmem
    have hcolumn' := column_of_mem_alternatives h hleft' hmem'
    have hsame : left.key = left'.key := by
      rw [hkey, ItemKey.mk.injEq, Nat.add_right_cancel_iff] at hkey'
      exact Item.key_eq_iff.mpr hkey'
    have horigin : left.origin = left'.origin := congrArg ItemKey.origin hsame
    exact (f.chart.item_unique f.grammar h.valid.filed other other' left left' hleft hleft'
      (by omega) hsame).1
  cases takes h hitem hlink with
  | scanned other left terminal token hleft hcolumn hkey hnext htoken hkind hone =>
      obtain rfl : child = .leaf terminal token := by
        simpa [children_scanned rfl hone] using hchild
      cases takes h hitem hlink' with
      | scanned other' left' terminal' token' hleft' hcolumn' hkey' =>
          rw [hleft_unique other other' left left' hleft hleft' hfront hfront' hkey hkey']
      | completed other' last' left' right' hleft' hright' =>
          rw [children_completed rfl hright'] at hchild'
          simp at hchild'
  | completed other last left right hleft hright hmeet hlast hkey hnext hend =>
      rw [children_completed rfl hright] at hchild
      obtain ⟨inner, hinner, rfl⟩ := hchild
      cases takes h hitem hlink' with
      | scanned other' left' terminal' token' _ _ _ _ _ _ hone =>
          simp [children_scanned rfl hone] at hchild'
      | completed other' last' left' right' hleft' hright' hmeet' hlast' hkey' hnext' hend' =>
          rw [children_completed rfl hright'] at hchild'
          obtain ⟨inner', hinner', heq⟩ := hchild'
          obtain ⟨hrule, -, -⟩ := ParseTree.node.inj heq
          obtain rfl := hleft_unique other other' left left' hleft hleft' hfront hfront' hkey hkey'
          rw [h.valid.completed_unique hright hright' hend hend' hrule.symm
            (hmeet.symm.trans hmeet') (hlast.trans hlast'.symm)]

include hg h in
theorem gained_links {id : ItemId} {item : Item} (hitem : f.item? id = some item)
    (hlinks : item.links ≠ []) : f.gained tokens item item.links = f.alternatives tokens id :=
  Set.ext fun row => (mem_alternatives_iff hg h hitem hlinks row).symm

include h in
/-- What a link leads to is new to what the links before it lead to. -/
theorem not_mem_through {id : ItemId} {item : Item} (hitem : f.item? id = some item)
    {before after : List Link} {link : Link} (hlinks : item.links = before ++ link :: after) :
    ∀ row ∈ f.gained tokens item before, row ∉ f.through tokens item link := by
  rintro row ⟨other, hother, hrow⟩ hrow'
  have hnodup := (h.valid.item id item hitem).nodup
  rw [hlinks] at hnodup
  obtain rfl := link_unique h hitem (by simp [hlinks, hother]) (by simp [hlinks]) hrow hrow'
  exact (List.nodup_append.mp hnodup).2.2 other hother other (by simp) rfl

theorem alternatives_of_seed (hc : f.chart.Valid f.grammar) {id : ItemId} {item : Item}
    (hitem : f.item? id = some item) (hlinks : item.links = []) :
    f.alternatives tokens id = {[]} := by
  have hfits := hc.item id item hitem
  obtain ⟨hdot, horigin⟩ := hfits.links.mp hlinks
  ext row
  rw [Set.mem_singleton_iff]
  constructor
  · rintro ⟨item', r, hitem', -, hrow, -⟩
    obtain rfl := Option.some.inj (hitem.symm.trans hitem')
    rw [hdot, List.take_zero] at hrow
    cases row with
    | nil => rfl
    | cons child rest => simp [ParseTree.DeriveAll] at hrow
  · rintro rfl
    obtain ⟨r, hr, -⟩ := hfits.dot
    exact ⟨item, r, hitem, hr, by simp [hdot, ParseTree.DeriveAll], by rw [horigin]; rfl⟩

variable (hwell : WellFounded f.chart.Under)

include hg h hwell in
/-- Where no item is below itself there are finitely many alternatives. -/
theorem finite_alternatives (id : ItemId) : (f.alternatives tokens id).Finite := by
  induction id using hwell.induction with
  | _ id ih =>
  cases hitem : f.item? id with
  | none =>
      refine Set.finite_empty.subset ?_
      rintro row ⟨item, r, hitem', -⟩
      rw [hitem] at hitem'
      contradiction
  | some item =>
      by_cases hlinks : item.links = []
      · rw [alternatives_of_seed h.valid hitem hlinks]
        exact Set.finite_singleton _
      · rw [← gained_links hg h hitem hlinks]
        have hunion : f.gained tokens item item.links =
            ⋃ link ∈ {link | link ∈ item.links}, f.through tokens item link := by
          ext row
          simp [gained]
        rw [hunion]
        refine Set.Finite.biUnion item.links.finite_toSet fun link hlink => ?_
        rw [through_eq_image]
        refine ((ih link.left ⟨item, link, hitem, hlink, .inl rfl⟩).prod ?_).image _
        cases hright : link.right with
        | none =>
            refine (List.finite_toSet (f.tokenChild item link)).subset fun tree htree => ?_
            simpa [children, hright] using htree
        | some right =>
            have hunder : f.chart.Under right id := ⟨item, link, hitem, hlink, .inr hright⟩
            obtain ⟨last, hlast, -⟩ := hunder.within h.valid hitem
            rw [children_completed hright hlast]
            exact (ih right hunder).image _

include hg h hwell in
theorem finite_gained {id : ItemId} {item : Item} (hitem : f.item? id = some item)
    {links : List Link} (hlinks : links ⊆ item.links) : (f.gained tokens item links).Finite := by
  refine (finite_alternatives hg h hwell id).subset ?_
  rintro row ⟨link, hlink, hrow⟩
  exact mem_alternatives_of_through h hitem (hlinks hlink) hrow

include hg h hwell in
/-- Every further link adds a product. -/
theorem ncard_gained_concat {id : ItemId} {item : Item} (hitem : f.item? id = some item)
    {before after : List Link} {link : Link} (hlinks : item.links = before ++ link :: after) :
    (f.gained tokens item (before ++ [link])).ncard = (f.gained tokens item before).ncard +
      (f.alternatives tokens link.left).ncard * (f.children tokens item link).ncard := by
  have hsubset : before ++ [link] ⊆ item.links := by simp [hlinks]
  have hfinite := finite_gained hg h hwell hitem hsubset
  rw [gained_concat] at hfinite
  rw [gained_concat, Set.ncard_union_eq (Set.disjoint_left.mpr (not_mem_through h hitem hlinks))
    (hfinite.subset Set.subset_union_left) (hfinite.subset Set.subset_union_right),
    ncard_through]

end Reading

end Forest
end EarleyChart
