import EarleyChart.Proofs.Chart.Below
import EarleyChart.Proofs.Forest.Pass

/-!
A pass finds something in an item although it drops what it meets below itself.
What was cut short before can be in the way of a first derivation only where the
two ends of a link share an item; such an item has no extent, and items without
extent are never cut short where none of them is below itself.
-/

namespace EarleyChart
namespace Pass

variable {V A : Type}

/-- What makes the first derivation of an item count: a link whose ends are there
is gathered first, and what is gathered stays. -/
structure Lives (pass : Pass V A) (f : Forest) (live : A → Prop) : Prop where
  right : ∀ id item link, f.item? id = some item → link ∈ item.links →
    pass.right? link = link.right
  unit : pass.calls pass.unit = true
  open_start : pass.full pass.start = false
  first : ∀ id item link left right, f.item? id = some item → link ∈ item.links →
    pass.calls left = true → (link.right.isSome = true → pass.calls right = true) →
    live (pass.add item link left right pass.start)
  add : ∀ item link left right gathered, live gathered →
    live (pass.add item link left right gathered)
  finish : ∀ gathered, live gathered → pass.calls (pass.finish gathered) = true

/-- What a table may hold after the items below one were visited: items without
extent are there, and what is missing was missing before or is below. -/
structure Keeps (pass : Pass V A) (f : Forest) (id : ItemId) (known after : Std.TreeMap ItemId V) :
    Prop where
  flat : ∀ x v, after[x]? = some v → f.chart.Flat x → pass.calls v = true
  cut : ∀ x v, after[x]? = some v → pass.calls v = false →
    known[x]? = some v ∨ Relation.ReflTransGen f.chart.Under x id

/-- What a visit to an item comes to: if its first derivation meets no item above
and nothing missing, the item is there. -/
structure Visited (pass : Pass V A) (f : Forest) (above : List ItemId) (id : ItemId)
    (known : Std.TreeMap ItemId V) (result : V × Std.TreeMap ItemId V) : Prop where
  keeps : pass.Keeps f id known result.2
  present : (∀ x, Relation.ReflTransGen f.chart.First x id →
    x ∉ above ∧ ∀ v, known[x]? = some v → pass.calls v = true) → pass.calls result.1 = true

section run

variable {pass : Pass V A} {f : Forest} {live : A → Prop} (h : pass.Lives f live)
  (hc : f.chart.Valid f.grammar)

theorem Keeps.refl {id : ItemId} {known : Std.TreeMap ItemId V}
    (hflat : ∀ x v, known[x]? = some v → f.chart.Flat x → pass.calls v = true) :
    pass.Keeps f id known known :=
  ⟨hflat, fun _ _ hx _ => .inl hx⟩

theorem Keeps.trans {a b : ItemId} {known mid after : Std.TreeMap ItemId V}
    (hfirst : pass.Keeps f b known mid) (hsecond : pass.Keeps f a mid after)
    (hunder : Relation.ReflTransGen f.chart.Under a b) : pass.Keeps f b known after := by
  refine ⟨hsecond.flat, fun x v hx hcalls => ?_⟩
  rcases hsecond.cut x v hx hcalls with hmid | hbelow
  · exact hfirst.cut x v hmid hcalls
  · exact .inr (hbelow.trans hunder)

/-- The value of the item itself is remembered. -/
theorem Keeps.insert {id : ItemId} {known after : Std.TreeMap ItemId V} {value : V}
    (h : pass.Keeps f id known after) (hvalue : f.chart.Flat id → pass.calls value = true) :
    pass.Keeps f id known (after.insert id value) := by
  refine ⟨fun x v hx hflat => ?_, fun x v hx hcalls => ?_⟩ <;>
    rw [Std.TreeMap.getElem?_insert] at hx <;> split at hx
  · next hsame =>
      obtain rfl := Std.compare_eq_iff_eq.mp hsame
      exact Option.some.inj hx ▸ hvalue hflat
  · exact h.flat x v hx hflat
  · next hsame =>
      obtain rfl := Std.compare_eq_iff_eq.mp hsame
      exact .inr .refl
  · exact h.cut x v hx hcalls

section step

variable {id : ItemId} {item : Item} (hitem : f.item? id = some item) {above : List ItemId}
  {visit : ItemId → Std.TreeMap ItemId V → V × Std.TreeMap ItemId V}
  (hvisit : ∀ child known, f.chart.Under child id →
    (∀ x v, known[x]? = some v → f.chart.Flat x → pass.calls v = true) →
    pass.Visited f (id :: above) child known (visit child known))

include h hitem hvisit in
/-- Gathering a link keeps what the table may hold, and what was gathered. -/
theorem step_keeps {known : Std.TreeMap ItemId V} {s : A × Std.TreeMap ItemId V} {link : Link}
    (hlink : link ∈ item.links) (hs : pass.Keeps f id known s.2) :
    pass.Keeps f id known (pass.step visit item s link).2 ∧
      (live s.1 → live (pass.step visit item s link).1) := by
  have hunder : f.chart.Under link.left id := ⟨item, link, hitem, hlink, .inl rfl⟩
  have hleft := hs.trans (hvisit link.left s.2 hunder hs.flat).keeps (.single hunder)
  rcases pass.step_cases visit item s link with
    ⟨-, hstep⟩ | ⟨-, ⟨-, hstep⟩ | ⟨right, -, hright, hstep⟩⟩
  · rw [hstep]
    exact ⟨hs, fun hlive => hlive⟩
  · rw [hstep]
    exact ⟨hleft, h.add item link _ _ _⟩
  · rw [hstep]
    rw [h.right id item link hitem hlink] at hright
    have hunder' : f.chart.Under right id := ⟨item, link, hitem, hlink, .inr hright⟩
    exact ⟨hleft.trans (hvisit right _ hunder' hleft.flat).keeps (.single hunder'),
      h.add item link _ _ _⟩

include h hitem hvisit in
theorem foldl_keeps {known : Std.TreeMap ItemId V} (links : List Link)
    (hlinks : ∀ link ∈ links, link ∈ item.links) {s : A × Std.TreeMap ItemId V}
    (hs : pass.Keeps f id known s.2) :
    pass.Keeps f id known (links.foldl (pass.step visit item) s).2 ∧
      (live s.1 → live (links.foldl (pass.step visit item) s).1) := by
  induction links generalizing s with
  | nil => exact ⟨hs, fun hlive => hlive⟩
  | cons link links ih =>
      obtain ⟨hkeeps, hlive⟩ := step_keeps h hitem hvisit (hlinks link (by simp)) hs
      obtain ⟨hkeeps', hlive'⟩ := ih (fun other hother => hlinks other (by simp [hother])) hkeeps
      exact ⟨hkeeps', fun hs => hlive' (hlive hs)⟩

include h hc hitem hvisit in
/-- Where the first derivation is not cut short, the first link is gathered. -/
theorem step_live {known : Std.TreeMap ItemId V} {link : Link}
    (hflat : ∀ x v, known[x]? = some v → f.chart.Flat x → pass.calls v = true)
    (hlink : item.links.head? = some link)
    (hfirst : ∀ x, Relation.ReflTransGen f.chart.First x id →
      x ∉ above ∧ ∀ v, known[x]? = some v → pass.calls v = true) :
    live (pass.step visit item (pass.start, known) link).1 := by
  have hmem := List.mem_of_mem_head? hlink
  have hbelow : ∀ child, f.chart.First child id → ∀ x,
      Relation.ReflTransGen f.chart.First x child → x ∉ id :: above := by
    rintro child hchild x hx (_ | ⟨_, hx'⟩)
    · exact hchild.not_back hc hx
    · exact (hfirst x (hx.tail hchild)).1 hx'
  have hleft : f.chart.First link.left id := ⟨item, link, hitem, hlink, .inl rfl⟩
  have hvisited := hvisit link.left known hleft.under hflat
  have hcalls : pass.calls (visit link.left known).1 = true :=
    hvisited.present fun x hx => ⟨hbelow _ hleft x hx, (hfirst x (hx.tail hleft)).2⟩
  rcases pass.step_cases visit item (pass.start, known) link with
    ⟨hfull, -⟩ | ⟨-, ⟨hnone, hstep⟩ | ⟨right, -, hright, hstep⟩⟩
  · rw [h.open_start] at hfull
    contradiction
  · rw [hstep]
    refine h.first id item link _ _ hitem hmem hcalls fun hsome => ?_
    rw [← h.right id item link hitem hmem, hnone hcalls] at hsome
    contradiction
  · rw [hstep]
    rw [h.right id item link hitem hmem] at hright
    have hright' : f.chart.First right id := ⟨item, link, hitem, hlink, .inr hright⟩
    refine h.first id item link _ _ hitem hmem hcalls fun _ => ?_
    refine (hvisit right _ hright'.under hvisited.keeps.flat).present fun x hx => ?_
    refine ⟨hbelow right hright' x hx, fun v hv => ?_⟩
    by_contra hcut
    rw [Bool.not_eq_true] at hcut
    -- a value that was cut short on the left is that of a shared item
    rcases hvisited.keeps.cut x v hv hcut with hold | hshared
    · rw [(hfirst x (hx.tail hright')).2 v hold] at hcut
      contradiction
    · have hreach := Relation.ReflTransGen.mono (fun _ _ h => h.under) _ _ hx
      have := Chart.flat_of_shared hc hitem hmem hright hshared hreach
      rw [hvisited.keeps.flat x v hv this] at hcut
      contradiction

include h hc hitem hvisit in
theorem foldl_live {known : Std.TreeMap ItemId V} (hlinks : item.links ≠ [])
    (hflat : ∀ x v, known[x]? = some v → f.chart.Flat x → pass.calls v = true)
    (hfirst : ∀ x, Relation.ReflTransGen f.chart.First x id →
      x ∉ above ∧ ∀ v, known[x]? = some v → pass.calls v = true) :
    live (item.links.foldl (pass.step visit item) (pass.start, known)).1 := by
  obtain ⟨link, links, heq⟩ := List.exists_cons_of_ne_nil hlinks
  have hlive := step_live h hc hitem hvisit hflat (by rw [heq, List.head?_cons]) hfirst
  obtain ⟨hkeeps, -⟩ := step_keeps h hitem hvisit (s := (pass.start, known))
    (show link ∈ item.links by simp [heq]) (Keeps.refl hflat)
  rw [heq, List.foldl_cons]
  exact (foldl_keeps h hitem hvisit links (fun other hother => by simp [heq, hother])
    hkeeps).2 hlive

end step

include h hc in
/-- No item without extent is below itself, so that every visit comes to this. -/
theorem run_visited (hacyclic : ∀ id, f.chart.Flat id → ¬ Relation.TransGen f.chart.Under id id)
    (depth : Nat) (above : List ItemId) (id : ItemId) (item : Item)
    (known : Std.TreeMap ItemId V) (hitem : f.item? id = some item)
    (hroom : f.Room depth above id)
    (hflat : ∀ x v, known[x]? = some v → f.chart.Flat x → pass.calls v = true) :
    pass.Visited f above id known (pass.run f depth above id known) := by
  induction depth generalizing above id item known with
  | zero => exact absurd hroom.pos (Nat.lt_irrefl 0)
  | succ depth ih =>
      rw [run]
      cases hknown : known[id]? with
      | some v => exact ⟨.refl hflat, fun hfirst => (hfirst id .refl).2 v hknown⟩
      | none =>
          simp only [hitem]
          split
          · exact ⟨.refl hflat, fun _ => h.unit⟩
          next hlinks =>
          split
          · next hin =>
              refine ⟨.refl hflat, fun hfirst => ?_⟩
              exact absurd (List.contains_iff_mem.mp hin) (hfirst id .refl).1
          next hid =>
          rw [List.contains_iff_mem] at hid
          have hlinks : item.links ≠ [] := by simpa [Item.isPredicted] using hlinks
          have hvisit : ∀ child known, f.chart.Under child id →
              (∀ x v, known[x]? = some v → f.chart.Flat x → pass.calls v = true) →
              pass.Visited f (id :: above) child known
                (pass.run f depth (id :: above) child known) := by
            intro child known hchild hflat
            obtain ⟨next, hnext, -⟩ := hchild.within hc hitem
            exact ih (id :: above) child next known hnext (hroom.below hitem hid hchild) hflat
          obtain ⟨hkeeps, -⟩ := foldl_keeps h hitem hvisit item.links (fun _ hlink => hlink)
            (s := (pass.start, known)) (Keeps.refl hflat)
          have hpresent := fun hfirst => h.finish _
            (foldl_live h hc hitem hvisit hlinks hflat hfirst)
          refine ⟨hkeeps.insert fun hidflat => hpresent fun x hx => ?_, hpresent⟩
          have hunder := Relation.ReflTransGen.mono (fun _ _ h => h.under) _ _ hx
          have hxflat := hidflat.below hc hunder
          refine ⟨fun hxabove => ?_, fun v hv => hflat x v hv hxflat⟩
          exact hacyclic x hxflat (Relation.TransGen.trans_right hunder (hroom.under x hxabove))

end run

end Pass
end EarleyChart
