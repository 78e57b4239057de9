import EarleyChart.Proofs.Forest.Pass

/-!
A pass whose specification is met link by link. Where no item is below itself it
gives to every item the value that is specified. It does so in any forest where
the specification also allows the value that stands for nothing.
-/

namespace EarleyChart
namespace Pass

variable {V A : Type}

/-- A specification of the values of items, and of what is gathered from the
first links of an item, that the operations of a pass meet. -/
structure Models (pass : Pass V A) (f : Forest) (spec : ItemId → V → Prop)
    (part : ItemId → List Link → A → Prop) : Prop where
  right : ∀ link other, pass.right? link = some other → link.right = some other
  unit : ∀ id item, f.item? id = some item → item.links = [] → spec id pass.unit
  start : ∀ id item, f.item? id = some item → part id [] pass.start
  full : ∀ id item before link after gathered, f.item? id = some item →
    item.links = before ++ link :: after → part id before gathered →
    pass.full gathered = true → part id (before ++ [link]) gathered
  add : ∀ id item before link after left right gathered, f.item? id = some item →
    item.links = before ++ link :: after → part id before gathered →
    pass.full gathered = false → spec link.left left →
    (∀ other, pass.calls left = true → pass.right? link = some other → spec other right) →
    part id (before ++ [link]) (pass.add item link left right gathered)
  finish : ∀ id item gathered, f.item? id = some item → item.links ≠ [] →
    part id item.links gathered → spec id (pass.finish gathered)

def Remembers (spec : ItemId → V → Prop) (known : Std.TreeMap ItemId V) : Prop :=
  ∀ id value, known[id]? = some value → spec id value

theorem remembers_empty (spec : ItemId → V → Prop) : Remembers spec {} := by
  simp [Remembers]

theorem Remembers.insert {spec : ItemId → V → Prop} {known : Std.TreeMap ItemId V}
    (h : Remembers spec known) {id : ItemId} {value : V} (hvalue : spec id value) :
    Remembers spec (known.insert id value) := by
  intro other found hfound
  rw [Std.TreeMap.getElem?_insert] at hfound
  split at hfound
  · next hsame =>
      obtain rfl := Std.compare_eq_iff_eq.mp hsame
      exact Option.some.inj hfound ▸ hvalue
  · exact h other found hfound

/-- A visit gives an item its value and remembers specified values only. -/
def Exact (spec : ItemId → V → Prop) (id : ItemId) (result : V × Std.TreeMap ItemId V) : Prop :=
  spec id result.1 ∧ Remembers spec result.2

section step

variable {pass : Pass V A} {f : Forest} {spec : ItemId → V → Prop}
  {part : ItemId → List Link → A → Prop} (h : pass.Models f spec part) {id : ItemId}
  {item : Item} (hitem : f.item? id = some item)
  {visit : ItemId → Std.TreeMap ItemId V → V × Std.TreeMap ItemId V}
  (hvisit : ∀ child known, f.chart.Under child id → Remembers spec known →
    Exact spec child (visit child known))

include h hitem hvisit in
theorem step_exact {before after : List Link} {link : Link}
    (hlinks : item.links = before ++ link :: after) {s : A × Std.TreeMap ItemId V}
    (hs : part id before s.1 ∧ Remembers spec s.2) :
    part id (before ++ [link]) (pass.step visit item s link).1 ∧
      Remembers spec (pass.step visit item s link).2 := by
  have hmem : link ∈ item.links := by simp [hlinks]
  have hleft := hvisit link.left s.2 ⟨item, link, hitem, hmem, .inl rfl⟩ hs.2
  have hadd := h.add id item before link after
  rcases pass.step_cases visit item s link with
    ⟨hfull, hstep⟩ | ⟨hfull, ⟨hnone, hstep⟩ | ⟨right, hcalls, hright, hstep⟩⟩
  · rw [hstep]
    exact ⟨h.full id item before link after s.1 hitem hlinks hs.1 hfull, hs.2⟩
  · rw [hstep]
    refine ⟨hadd _ _ s.1 hitem hlinks hs.1 hfull hleft.1 fun other hcalls hother => ?_, hleft.2⟩
    rw [hnone hcalls] at hother
    contradiction
  · rw [hstep]
    obtain ⟨hvalue, hknown⟩ := hvisit right _
      ⟨item, link, hitem, hmem, .inr (h.right link right hright)⟩ hleft.2
    refine ⟨hadd _ _ s.1 hitem hlinks hs.1 hfull hleft.1 fun other _ hother => ?_, hknown⟩
    obtain rfl := Option.some.inj (hright.symm.trans hother)
    exact hvalue

include h hitem hvisit in
theorem foldl_exact (before after : List Link) (hlinks : item.links = before ++ after)
    {s : A × Std.TreeMap ItemId V} (hs : part id before s.1 ∧ Remembers spec s.2) :
    part id item.links (after.foldl (pass.step visit item) s).1 ∧
      Remembers spec (after.foldl (pass.step visit item) s).2 := by
  induction after generalizing before s with
  | nil =>
      rw [hlinks, List.append_nil]
      exact hs
  | cons link after ih =>
      exact ih (before ++ [link]) (by rw [hlinks, List.append_assoc, List.singleton_append])
        (step_exact h hitem hvisit hlinks hs)

include h hitem hvisit in
/-- What is gathered from all links of an item is its value, and is remembered. -/
theorem gathered_exact (hlinks : item.links ≠ []) {known : Std.TreeMap ItemId V}
    (hknown : Remembers spec known) :
    let gathered := item.links.foldl (pass.step visit item) (pass.start, known)
    Exact spec id (pass.finish gathered.1, gathered.2.insert id (pass.finish gathered.1)) := by
  intro gathered
  obtain ⟨hpart, hafter⟩ := foldl_exact h hitem hvisit [] item.links rfl
    (s := (pass.start, known)) ⟨h.start id item hitem, hknown⟩
  have hvalue := h.finish id item gathered.1 hitem hlinks hpart
  exact ⟨hvalue, hafter.insert hvalue⟩

end step

variable {pass : Pass V A} {f : Forest} {spec : ItemId → V → Prop}
  {part : ItemId → List Link → A → Prop} (h : pass.Models f spec part)

include h in
/-- A visit gives the specified value where the value of what is cut short is as
specified: that of an item that is not there or is below itself. -/
theorem run_within (allowed : ItemId → Prop)
    (hbelow : ∀ a b, f.chart.Under a b → allowed b → allowed a)
    (hcut : ∀ id, allowed id → f.item? id = none ∨ Relation.TransGen f.chart.Under id id →
      spec id pass.missing)
    (depth : Nat) (above : List ItemId) (id : ItemId) (known : Std.TreeMap ItemId V)
    (hid : allowed id) (hroom : f.Room depth above id) (hknown : Remembers spec known) :
    Exact spec id (pass.run f depth above id known) := by
  induction depth generalizing above id known with
  | zero => exact absurd hroom.pos (Nat.lt_irrefl 0)
  | succ depth ih =>
      rw [run]
      cases hfound : known[id]? with
      | some value => exact ⟨hknown id value hfound, hknown⟩
      | none =>
          cases hitem : f.item? id with
          | none => exact ⟨hcut id hid (.inl hitem), hknown⟩
          | some item =>
              dsimp only
              split
              · next hpredicted =>
                  exact ⟨h.unit id item hitem (List.isEmpty_iff.mp hpredicted), hknown⟩
              next hlinks =>
              split
              · next hin =>
                  have hcycle := hroom.under id (List.contains_iff_mem.mp hin)
                  exact ⟨hcut id hid (.inr hcycle), hknown⟩
              next habove =>
              rw [List.contains_iff_mem] at habove
              refine gathered_exact h hitem ?_ (by simpa [Item.isPredicted] using hlinks) hknown
              intro child known hchild hknown
              exact ih (id :: above) child known (hbelow child id hchild hid)
                (hroom.below hitem habove hchild) hknown

include h in
/-- In a forest without cycles every visit gives the specified value. -/
theorem run_exact (hc : f.chart.Valid f.grammar) (hwell : WellFounded f.chart.Under) (depth : Nat)
    (above : List ItemId) (id : ItemId) (item : Item) (known : Std.TreeMap ItemId V)
    (hitem : f.item? id = some item) (hroom : f.Room depth above id)
    (hknown : Remembers spec known) : Exact spec id (pass.run f depth above id known) := by
  refine run_within h (fun id => ∃ item, f.item? id = some item) (fun a b hunder => ?_)
    (fun id hid hcut => ?_) depth above id known ⟨item, hitem⟩ hroom hknown
  · rintro ⟨parent, hparent⟩
    obtain ⟨child, hchild, -⟩ := hunder.within hc hparent
    exact ⟨child, hchild⟩
  · obtain ⟨item, hitem⟩ := hid
    rcases hcut with hnone | hcycle
    · rw [hitem] at hnone
      contradiction
    · exact absurd hcycle (hwell.transGen.irrefl.irrefl id)

include h in
/-- Where the value of what is cut short is as specified too, every visit gives the
specified value, whatever is below itself and however deep the visits may go. -/
theorem run_sound (hmissing : ∀ id, spec id pass.missing) (depth : Nat) (above : List ItemId)
    (id : ItemId) (known : Std.TreeMap ItemId V) (hknown : Remembers spec known) :
    Exact spec id (pass.run f depth above id known) := by
  induction depth generalizing above id known with
  | zero => exact ⟨hmissing id, hknown⟩
  | succ depth ih =>
      rw [run]
      cases hfound : known[id]? with
      | some value => exact ⟨hknown id value hfound, hknown⟩
      | none =>
          cases hitem : f.item? id with
          | none => exact ⟨hmissing id, hknown⟩
          | some item =>
              dsimp only
              split
              · next hpredicted =>
                  exact ⟨h.unit id item hitem (List.isEmpty_iff.mp hpredicted), hknown⟩
              next hlinks =>
              split
              · -- the item is below itself
                exact ⟨hmissing id, hknown⟩
              refine gathered_exact h hitem ?_ (by simpa [Item.isPredicted] using hlinks) hknown
              exact fun child known _ hknown => ih (id :: above) child known hknown

end Pass
end EarleyChart
