import EarleyChart.Proofs.Forest.Exact

/-!
Passes that must not meet an item below itself. A strict pass does what a pass does,
but fails where the item that it comes to is being looked at already, and where its
depth is used up. Without a cycle warning no item of a chart is below itself, so that
the strict pass does not fail: neither counting nor building ever comes to the case
that cuts a cycle off.
-/

namespace EarleyChart
namespace Pass

variable {V A : Type} (pass : Pass V A)

def strictStep (visit : ItemId → Std.TreeMap ItemId V → Option (V × Std.TreeMap ItemId V))
    (item : Item) (s : A × Std.TreeMap ItemId V) (link : Link) :
    Option (A × Std.TreeMap ItemId V) :=
  if pass.full s.1 then some s
  else
    (visit link.left s.2).bind fun left =>
      match if pass.calls left.1 then pass.right? link else none with
      | some right => (visit right left.2).map fun value =>
          (pass.add item link left.1 value.1 s.1, value.2)
      | none => some (pass.add item link left.1 pass.missing s.1, left.2)

def strictRun (f : Forest) :
    Nat → List ItemId → ItemId → Std.TreeMap ItemId V → Option (V × Std.TreeMap ItemId V)
  | 0, _, _, _ => none
  | depth + 1, above, id, known =>
      match known[id]? with
      | some value => some (value, known)
      | none =>
          match f.item? id with
          | none => some (pass.missing, known)
          | some item =>
              if item.isPredicted then some (pass.unit, known)
              else if above.contains id then none
              else
                (item.links.foldlM (pass.strictStep (strictRun f depth (id :: above)) item)
                  (pass.start, known)).map fun gathered =>
                    (pass.finish gathered.1, gathered.2.insert id (pass.finish gathered.1))

section Linked

variable (hright : ∀ link other, pass.right? link = some other → link.right = some other)

include hright in
/-- Where the ends of a link are visited without failing, the link is gathered as in
a pass that cannot fail. -/
theorem strictStep_eq
    {strict : ItemId → Std.TreeMap ItemId V → Option (V × Std.TreeMap ItemId V)}
    {visit : ItemId → Std.TreeMap ItemId V → V × Std.TreeMap ItemId V} (item : Item) {link : Link}
    (hvisit : ∀ child, link.left = child ∨ link.right = some child →
      ∀ known, strict child known = some (visit child known)) (s : A × Std.TreeMap ItemId V) :
    pass.strictStep strict item s link = some (pass.step visit item s link) := by
  rw [strictStep, step]
  split
  · rfl
  rw [hvisit link.left (.inl rfl), Option.bind_some]
  dsimp only
  cases hcalled : if pass.calls (visit link.left s.2).1 then pass.right? link else none with
  | none => rfl
  | some right =>
      have hlink : link.right = some right := by
        split at hcalled
        · exact hright link right hcalled
        · contradiction
      dsimp only
      rw [hvisit right (.inr hlink), Option.map_some]

include hright in
theorem foldlM_strictStep
    {strict : ItemId → Std.TreeMap ItemId V → Option (V × Std.TreeMap ItemId V)}
    {visit : ItemId → Std.TreeMap ItemId V → V × Std.TreeMap ItemId V} (item : Item)
    {links : List Link} (hvisit : ∀ link ∈ links, ∀ child,
      link.left = child ∨ link.right = some child →
      ∀ known, strict child known = some (visit child known)) (s : A × Std.TreeMap ItemId V) :
    links.foldlM (pass.strictStep strict item) s = some (links.foldl (pass.step visit item) s) := by
  induction links generalizing s with
  | nil => rfl
  | cons link links ih =>
      have hfirst := pass.strictStep_eq hright item (hvisit link (by simp)) s
      rw [List.foldlM_cons, hfirst, List.foldl_cons]
      exact ih (fun other hother => hvisit other (by simp [hother])) _

include hright in
/-- Where no item is below itself, a pass meets none: the strict pass does not fail,
and gives what the pass gives. -/
theorem strictRun_eq
    {f : Forest} (hwell : WellFounded f.chart.Under) {depth : Nat} {above : List ItemId}
    {id : ItemId} (h : f.Room depth above id) (known : Std.TreeMap ItemId V) :
    pass.strictRun f depth above id known = some (pass.run f depth above id known) := by
  induction depth generalizing above id known with
  | zero => exact absurd h.pos (Nat.lt_irrefl 0)
  | succ depth ih =>
      rw [strictRun, run]
      cases known[id]? with
      | some value => rfl
      | none =>
          cases hitem : f.item? id with
          | none => rfl
          | some item =>
              have hnot : id ∉ above := fun hid =>
                (WellFounded.transGen hwell).irrefl.irrefl id (h.under id hid)
              have hvisit : ∀ link ∈ item.links, ∀ child,
                  link.left = child ∨ link.right = some child → ∀ known,
                  pass.strictRun f depth (id :: above) child known =
                    some (pass.run f depth (id :: above) child known) := by
                intro link hlink child hchild known'
                exact ih (h.below hitem hnot ⟨item, link, hitem, hlink, hchild⟩) known'
              dsimp only
              split
              · rfl
              · rw [if_neg (by simpa using hnot), if_neg (by simpa using hnot),
                  pass.foldlM_strictStep hright item hvisit, Option.map_some]

end Linked

end Pass

namespace Parser

/-- Where a symbol derives itself the strict pass fails. -/
example :
    let f : Forest := ⟨knot, ((new knot).parse (TokenStream.ofList [])).parser.chart⟩
    (Pass.counting.strictRun f (f.itemCount + 1) [] ⟨0, 9⟩ {}).isNone = true := by
  decide +kernel

/-- For a grammar that is not warned to have a cycle no item of any chart is below
itself, and a pass over the chart that fails where it meets such an item counts and
builds what the counter and the builder do. -/
theorem acyclic_pass_strict (d : GrammarDef) (g : Grammar) (hd : d.toGrammar = .ok g)
    (hacyclic : ∀ w ∈ g.warnings, w.kind ≠ .cyclic) (p : Parser) (hp : Reached g p) :
    WellFounded p.chart.Under ∧ (∀ id, ¬ Relation.TransGen p.chart.Under id id) ∧
      let f : Forest := ⟨g, p.chart⟩
      (∀ id known, ∃ n known',
        Pass.counting.strictRun f (f.itemCount + 1) [] id known = some (n, known') ∧
        DerivationCounter.count ⟨f, known⟩ id = (n, ⟨f, known'⟩)) ∧
      ∀ limit id known, ∃ sequences known',
        (Pass.building f limit).strictRun f (f.itemCount + 1) [] id known =
          some (sequences, known') ∧
        TreeBuilder.nodes ⟨f, limit, known⟩ id =
          (f.nodesWith id sequences, ⟨f, limit, known'⟩) := by
  have hg := d.toGrammar_numbered g hd
  have hwell := Chart.wellFounded_of_warnings hg hacyclic (hp.healthy hg).valid
  refine ⟨hwell, fun id hcycle => (WellFounded.transGen hwell).irrefl.irrefl id hcycle, ?_⟩
  intro f
  constructor
  · intro id known
    have hstrict := Pass.counting.strictRun_eq (fun _ _ h => h) (f := f) hwell (f.room_root id)
      known
    refine ⟨_, _, hstrict, ?_⟩
    rw [DerivationCounter.count, f.countFrom_eq]
    rfl
  · intro limit id known
    have hstrict := (Pass.building f limit).strictRun_eq (fun _ _ => Pass.building_right) hwell
      (f.room_root id) known
    exact ⟨_, _, hstrict, f.nodes_eq limit known id⟩

/-- Both ways to add three numbers are counted without an item being met below itself. -/
theorem acyclic_pass_strict_sum :
    let p := ((fresh sum ⟨.disabled, 0, 0, 0, 0, 0⟩ .standard).parse
      (TokenStream.ofList [⟨0, "1", .start⟩, ⟨1, "+", .start⟩, ⟨0, "2", .start⟩,
        ⟨1, "+", .start⟩, ⟨0, "3", .start⟩])).parser
    let f : Forest := ⟨sum, p.chart⟩
    (∀ w ∈ sum.warnings, w.kind ≠ .cyclic) ∧ ¬ Relation.TransGen p.chart.Under ⟨5, 2⟩ ⟨5, 2⟩ ∧
      (Pass.counting.strictRun f (f.itemCount + 1) [] ⟨5, 2⟩ {}).map Prod.fst = some 2 := by
  intro p f
  have hreached : Reached sum p := .parse (.setCosts (.created _) _) _
  have hacyclic : ∀ w ∈ sum.warnings, w.kind ≠ .cyclic := by decide +kernel
  obtain ⟨-, hcycle, hcounts, -⟩ := acyclic_pass_strict sumDef sum rfl hacyclic p hreached
  obtain ⟨n, known, hstrict, hcount⟩ := hcounts ⟨5, 2⟩ {}
  have htwo : (DerivationCounter.count ⟨f, {}⟩ ⟨5, 2⟩).1 = 2 := by decide +kernel
  rw [hcount] at htwo
  rw [hstrict]
  exact ⟨hacyclic, hcycle ⟨5, 2⟩, congrArg some htwo⟩

end Parser
end EarleyChart
