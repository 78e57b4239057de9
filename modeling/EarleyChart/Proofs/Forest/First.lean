import EarleyChart.Proofs.Chart.Below
import EarleyChart.Proofs.Forest.Correction
import EarleyChart.Proofs.Parser.AppendOnly

/-!
The first derivation of an item. The first link of an item was there when the item
was created, and names older items only; links that are packed into the item later
come after it, even where they lead back to the item. Following first links therefore
ends, at items that were predicted, and what it passes on the way is one row of
children, which keeps to the rule of the item and to the tokens that were read.
-/

namespace EarleyChart
namespace Chart

/-- The first link of an item names items of the chart, and they are older. -/
def FirstOlder (c : Chart) : Prop :=
  ∀ id item link, c.item? id = some item → item.links.head? = some link →
    ((c.item? link.left).isSome = true ∧ link.left.Before id) ∧
      ∀ other, link.right = some other → (c.item? other).isSome = true ∧ other.Before id

def Predicted (c : Chart) (id : ItemId) : Prop :=
  ∃ item, c.item? id = some item ∧ item.links = [] ∧ item.dot = 0 ∧ item.origin = id.column

section Valid

variable {g : Grammar} {c : Chart} (hc : c.Valid g)

include hc in
theorem Valid.firstOlder : c.FirstOlder := by
  intro id item link hitem hlink
  have hfits := hc.item id item hitem
  obtain ⟨hleft, hright⟩ := hfits.first link hlink
  rcases (hfits.shape link (List.mem_of_mem_head? hlink)).token_or_completed with
    ⟨hnone, -, left, hfound, -⟩ | ⟨last, left, right, hsome, hfound, hfound', -⟩
  · refine ⟨⟨by rw [hfound, Option.isSome_some], hleft⟩, fun other hother => ?_⟩
    rw [hnone] at hother
    contradiction
  · refine ⟨⟨by rw [hfound, Option.isSome_some], hleft⟩, fun other hother => ?_⟩
    obtain rfl := Option.some.inj (hsome.symm.trans hother)
    exact ⟨by rw [hfound', Option.isSome_some], hright last hsome⟩

include hc in
theorem Valid.wellFounded_first : WellFounded c.First :=
  Subrelation.wf (fun h => h.before hc) ItemId.wellFounded_before

include hc in
/-- Where first links lead, there is a first link again, or an item that was predicted. -/
theorem Valid.first_or_predicted {a id : ItemId} {item : Item} (hitem : c.item? id = some item)
    (h : Relation.ReflTransGen c.First a id) : (∃ b, c.First b a) ∨ c.Predicted a := by
  have hunder : Relation.ReflTransGen c.Under a id :=
    Relation.ReflTransGen.mono (fun _ _ hfirst => hfirst.under) a id h
  obtain ⟨found, hfound, -⟩ := Under.extent hc hunder hitem
  cases hlinks : found.links with
  | nil =>
      obtain ⟨hdot, horigin⟩ := (hc.item a found hfound).links.mp hlinks
      exact .inr ⟨found, hfound, hlinks, hdot, horigin⟩
  | cons link links =>
      exact .inl ⟨link.left, found, link, hfound, by rw [hlinks, List.head?_cons], .inl rfl⟩

end Valid

end Chart

namespace Forest

/-- The children that the first links of an item lead to. -/
inductive FirstRow (f : Forest) : ItemId → List ParseTree → Prop
  | predicted {id : ItemId} {item : Item} (hitem : f.item? id = some item)
      (hlinks : item.links = []) : FirstRow f id []
  | token {id : ItemId} {item : Item} {link : Link} {front : List ParseTree}
      (hitem : f.item? id = some item) (hlink : item.links.head? = some link)
      (hstep : link.step ≠ .completed) (hfront : FirstRow f link.left front) :
      FirstRow f id (front ++ f.tokenChild item link)
  | completed {id other : ItemId} {item right : Item} {link : Link} {front inner : List ParseTree}
      (hitem : f.item? id = some item) (hlink : item.links.head? = some link)
      (hstep : link.step = .completed) (hother : link.right = some other)
      (hright : f.item? other = some right) (hfront : FirstRow f link.left front)
      (hinner : FirstRow f other inner) :
      FirstRow f id (front ++ [.node right.rule (f.grammar.lhs right.rule) inner])

variable {f : Forest}

theorem FirstRow.unique {id : ItemId} {row row' : List ParseTree} (h : f.FirstRow id row)
    (k : f.FirstRow id row') : row = row' := by
  induction h generalizing row' with
  | predicted hitem hlinks =>
      cases k with
      | predicted => rfl
      | token hitem' hlink | completed hitem' hlink =>
          obtain rfl := Option.some.inj (hitem.symm.trans hitem')
          simp [hlinks] at hlink
  | token hitem hlink hstep hfront ih =>
      cases k with
      | predicted hitem' hlinks =>
          obtain rfl := Option.some.inj (hitem.symm.trans hitem')
          simp [hlinks] at hlink
      | token hitem' hlink' _ hfront' =>
          obtain rfl := Option.some.inj (hitem.symm.trans hitem')
          obtain rfl := Option.some.inj (hlink.symm.trans hlink')
          rw [ih hfront']
      | completed hitem' hlink' hstep' =>
          obtain rfl := Option.some.inj (hitem.symm.trans hitem')
          obtain rfl := Option.some.inj (hlink.symm.trans hlink')
          contradiction
  | completed hitem hlink hstep hother hright hfront hinner ih ih' =>
      cases k with
      | predicted hitem' hlinks =>
          obtain rfl := Option.some.inj (hitem.symm.trans hitem')
          simp [hlinks] at hlink
      | token hitem' hlink' hstep' =>
          obtain rfl := Option.some.inj (hitem.symm.trans hitem')
          obtain rfl := Option.some.inj (hlink.symm.trans hlink')
          contradiction
      | completed hitem' hlink' _ hother' hright' hfront' hinner' =>
          obtain rfl := Option.some.inj (hitem.symm.trans hitem')
          obtain rfl := Option.some.inj (hlink.symm.trans hlink')
          obtain rfl := Option.some.inj (hother.symm.trans hother')
          obtain rfl := Option.some.inj (hright.symm.trans hright')
          rw [ih hfront', ih' hinner']

/-- Every item has a first derivation. The induction is on the age of the item. -/
theorem exists_firstRow (hc : f.chart.Valid f.grammar) {id : ItemId} {item : Item}
    (hitem : f.item? id = some item) : ∃ row, f.FirstRow id row ∧ row ∈ f.corrected id := by
  induction id using ItemId.wellFounded_before.induction generalizing item with
  | _ id ih =>
  have hfits := hc.item id item hitem
  cases hlinks : item.links with
  | nil => exact ⟨[], .predicted hitem hlinks, nil_mem_corrected hitem hfits hlinks⟩
  | cons link links =>
      have hmem : link ∈ item.links := by simp [hlinks]
      have hlink : item.links.head? = some link := by rw [hlinks, List.head?_cons]
      obtain ⟨hbefore, hbefore'⟩ := hfits.first link hlink
      by_cases hstep : link.step = .completed
      · cases hfits.shape link hmem with
        | scanned | substituted | deleted => contradiction
        | completed other last left right hleft hright hmeet hlast hkey hnext hend =>
            obtain ⟨front, hfront, hspelled⟩ := ih other hbefore hleft
            obtain ⟨inner, hinner, hspelled'⟩ := ih last (hbefore' last rfl) hright
            have hled := node_ledBy (f := f) hleft hright hmeet hlast hkey hnext hend hspelled'
            exact ⟨_, .completed hitem hlink rfl rfl hright hfront hinner,
              hled.concat hitem hspelled⟩
      · obtain ⟨left, child, heq, hled⟩ := tokenChild_ledBy hc hitem hmem hstep
        obtain ⟨front, hfront, hspelled⟩ := ih link.left hbefore hled.found
        refine ⟨front ++ f.tokenChild item link, .token hitem hlink hstep hfront, ?_⟩
        rw [heq]
        exact hled.concat hitem hspelled

end Forest

namespace Chart

/-- First links name older items and end in predicted ones, and what they lead to is one
row of children for each item, which derives its rule up to the dot. -/
structure FirstDerived (g : Grammar) (c : Chart) : Prop where
  older : c.FirstOlder
  ends : WellFounded c.First
  predicted : ∀ id item a, c.item? id = some item → Relation.ReflTransGen c.First a id →
    (∃ b, c.First b a) ∨ c.Predicted a
  row : ∀ id item, c.item? id = some item → ∃ row, Forest.FirstRow ⟨g, c⟩ id row ∧
    row ∈ Forest.corrected ⟨g, c⟩ id ∧ ∀ other, Forest.FirstRow ⟨g, c⟩ id other → other = row

theorem Valid.firstDerived {g : Grammar} {c : Chart} (hc : c.Valid g) : c.FirstDerived g := by
  constructor
  case older => exact hc.firstOlder
  case ends => exact hc.wellFounded_first
  case predicted => exact fun id item a hitem h => hc.first_or_predicted hitem h
  case row =>
    intro id item hitem
    obtain ⟨row, hrow, hcorrected⟩ := Forest.exists_firstRow (f := ⟨g, c⟩) hc hitem
    exact ⟨row, hrow, hcorrected, fun other hother => hother.unique hrow⟩

end Chart

namespace Parser

/-- First links name older items and stay as they are, from the moment that an item is
created until the parser is reset, and following them gives one derivation of every item.
This holds of every chart that a parser can come to, and of the chart after any number of
steps of a closure; no item that enters changes a first link. -/
theorem first_derivation (d : GrammarDef) (g : Grammar) (hd : d.toGrammar = .ok g) :
    (∀ p, Reached g p → p.chart.FirstDerived g ∧
      ∀ operations : List Operation, .reset ∉ operations → ∀ id meaning,
        p.chart.meaning? id = some meaning →
        (p.performAll operations).2.chart.meaning? id = some meaning) ∧
    (∀ (c : Chart) (new : Candidate), c.Valid g → 0 < c.columns.size → c.Fits g new →
      ∀ id meaning, c.meaning? id = some meaning →
        (c.insert g new).1.meaning? id = some meaning) ∧
    ∀ q, Filled g q → ∀ steps : Nat, (q.closeFor steps).1.chart.FirstDerived g ∧
      ∀ id meaning, (q.closeFor steps).1.chart.meaning? id = some meaning →
        (∀ more, steps ≤ more → (q.closeFor more).1.chart.meaning? id = some meaning) ∧
        ∀ operations : List Operation, .reset ∉ operations →
          (q.closeColumn.2.performAll operations).2.chart.meaning? id = some meaning := by
  have hg := d.toGrammar_numbered g hd
  refine ⟨?_, ?_, ?_⟩
  · intro p hp
    refine ⟨(hp.healthy hg).valid.firstDerived, fun operations hkeep id meaning hid => ?_⟩
    exact (hp.performAll_keeps hg operations hkeep).meaning id meaning hid
  · intro c new hc hne hfits id meaning hid
    exact (Chart.appends_insert hg hc hne hfits).meaning id meaning hid
  · intro q hq steps
    obtain ⟨hgrammar, hclosable⟩ := hq.closable hg
    refine ⟨?_, fun id meaning hid => ⟨fun more hle => ?_, fun operations hkeep => ?_⟩⟩
    · subst hgrammar
      exact (closeFor_continues hg hclosable steps).closable.valid.firstDerived
    · exact (hq.appends hg hle).meaning id meaning hid
    · have hclosed := hq.meaning hg steps id meaning hid
      exact ((hq.closed hg).performAll_keeps hg operations hkeep).meaning id meaning hclosed

/-- The start symbol of `ring` derives itself, and the item that completes it is below
itself; its first derivation leads past the dropped token all the same. -/
theorem first_derivation_skipping :
    skipping.chart.Under ⟨3, 1⟩ ⟨3, 1⟩ ∧ WellFounded skipping.chart.First ∧
      ∃ row, Forest.FirstRow ⟨ring, skipping.chart⟩ ⟨3, 1⟩ row ∧
        row ∈ Forest.corrected ⟨ring, skipping.chart⟩ ⟨3, 1⟩ := by
  have hreached : Reached ring skipping := .parse (.setCosts (.created _) _) _
  have hitem : skipping.item? ⟨3, 1⟩ = some ⟨0, 1, 0, 2, 3, 1,
      [⟨.completed, ⟨0, 0⟩, some ⟨3, 0⟩⟩, ⟨.completed, ⟨0, 0⟩, some ⟨3, 1⟩⟩]⟩ := by
    decide +kernel
  obtain ⟨hrun, -⟩ := first_derivation ringDef ring rfl
  obtain ⟨hderived, -⟩ := hrun skipping hreached
  obtain ⟨row, hrow, hcorrected, -⟩ := hderived.row ⟨3, 1⟩ _ hitem
  refine ⟨⟨_, ⟨.completed, ⟨0, 0⟩, some ⟨3, 1⟩⟩, hitem, by simp, .inr rfl⟩, hderived.ends, ?_⟩
  exact ⟨row, hrow, hcorrected⟩

end Parser
end EarleyChart
