import EarleyChart.Proofs.Forest.Exactness
import EarleyChart.Proofs.Forest.Memory

/-!
Passes without a table. An item that has nothing below it that is below itself
has one value, whatever the table holds and whatever the item is visited for, so
that two visits differ only by what was cut short in a cycle before.
-/

namespace EarleyChart

/-- Nothing that is below an item, or the item itself, is below itself. -/
def Chart.Founded (c : Chart) (id : ItemId) : Prop :=
  ∀ other, Relation.ReflTransGen c.Under other id → ¬ Relation.TransGen c.Under other other

theorem Chart.Founded.below {c : Chart} {a b : ItemId} (h : c.Founded b)
    (hbelow : Relation.ReflTransGen c.Under a b) : c.Founded a :=
  fun other hother => h other (hother.trans hbelow)

namespace Pass

variable {V A : Type} (pass : Pass V A)

def gather (value : ItemId → V) (item : Item) (gathered : A) (link : Link) : A :=
  if pass.full gathered then gathered
  else
    match if pass.calls (value link.left) then pass.right? link else none with
    | some right => pass.add item link (value link.left) (value right) gathered
    | none => pass.add item link (value link.left) pass.missing gathered

/-- The value of an item that is worked out anew wherever it is needed, down to a
depth. -/
def plain (f : Forest) : Nat → ItemId → V
  | 0, _ => pass.missing
  | depth + 1, id =>
      match f.item? id with
      | none => pass.missing
      | some item =>
          if item.isPredicted then pass.unit
          else pass.finish (item.links.foldl (pass.gather (plain f depth) item) pass.start)

/-- The value of an item no longer depends on the depth. -/
def Settles (f : Forest) (id : ItemId) (value : V) : Prop :=
  ∃ depth, ∀ more, depth ≤ more → pass.plain f more id = value

theorem Settles.unique {pass : Pass V A} {f : Forest} {id : ItemId} {first second : V}
    (h : pass.Settles f id first) (k : pass.Settles f id second) : first = second := by
  obtain ⟨n, hn⟩ := h
  obtain ⟨m, hm⟩ := k
  rw [← hn (max n m) (Nat.le_max_left n m), hm (max n m) (Nat.le_max_right n m)]

/-- The value of an item that is not there. -/
theorem settles_absent {f : Forest} {id : ItemId} (h : f.item? id = none) :
    pass.Settles f id pass.missing := by
  refine ⟨0, fun more _ => ?_⟩
  cases more with
  | zero => rfl
  | succ more => rw [plain, h]

/-- A pass visits the right end of a link at most, and makes nothing of a right
end that it does not visit. -/
structure Heeds (pass : Pass V A) : Prop where
  right : ∀ link other, pass.right? link = some other → link.right = some other
  add : ∀ item link left right gathered, (pass.calls left = true → pass.right? link = none) →
    pass.add item link left right gathered = pass.add item link left pass.missing gathered

/-- The specification of a value that depends on the item alone. -/
def Settled (f : Forest) (id : ItemId) (value : V) : Prop :=
  f.chart.Founded id → pass.Settles f id value

section settled

variable {pass : Pass V A} (h : pass.Heeds) {f : Forest}

include h in
theorem settled_models : pass.Models f (pass.Settled f) fun id links gathered =>
    ∀ item, f.item? id = some item → f.chart.Founded id → ∃ depth, ∀ more, depth ≤ more →
      links.foldl (pass.gather (pass.plain f more) item) pass.start = gathered where
  right := h.right
  unit id item hitem hlinks _ := by
    refine ⟨1, fun more hmore => ?_⟩
    obtain ⟨more, rfl⟩ := Nat.exists_eq_succ_of_ne_zero (Nat.ne_of_gt hmore)
    simp [plain, hitem, Item.isPredicted, hlinks]
  start id item _ _ _ _ := ⟨0, fun _ _ => rfl⟩
  full id item before link after gathered _ _ hpart hfull item' hitem' hfounded := by
    obtain ⟨depth, hdepth⟩ := hpart item' hitem' hfounded
    refine ⟨depth, fun more hmore => ?_⟩
    rw [List.foldl_concat, hdepth more hmore, gather, if_pos hfull]
  add id item before link after left right gathered hitem hlinks hpart hfull hleft hright := by
    intro item' hitem' hfounded
    obtain rfl := Option.some.inj (hitem.symm.trans hitem')
    have hlink : link ∈ item.links := by simp [hlinks]
    obtain ⟨depth, hdepth⟩ := hpart item hitem hfounded
    obtain ⟨depth', hleft⟩ := hleft (hfounded.below (.single ⟨item, link, hitem, hlink, .inl rfl⟩))
    -- a right end that is visited has a value of its own, the other values do not matter
    have hgather : ∃ depth, ∀ more, depth ≤ more → pass.plain f more link.left = left →
        pass.gather (pass.plain f more) item gathered link =
          pass.add item link left right gathered := by
      cases hvisit : if pass.calls left then pass.right? link else none with
      | none =>
          refine ⟨0, fun more _ heq => ?_⟩
          simp only [gather, hfull, heq, hvisit, Bool.false_eq_true, if_false]
          exact (h.add item link left right gathered fun hcalls => by
            rwa [if_pos hcalls] at hvisit).symm
      | some other =>
          obtain ⟨hcalls, hother⟩ : pass.calls left = true ∧ pass.right? link = some other := by
            split at hvisit
            · next hcalls => exact ⟨hcalls, hvisit⟩
            · contradiction
          obtain ⟨depth, hdepth⟩ := hright other hcalls hother
            (hfounded.below (.single ⟨item, link, hitem, hlink, .inr (h.right link other hother)⟩))
          refine ⟨depth, fun more hmore heq => ?_⟩
          simp only [gather, hfull, heq, hvisit, hdepth more hmore, Bool.false_eq_true, if_false]
    obtain ⟨depth'', hgather⟩ := hgather
    refine ⟨max depth (max depth' depth''), fun more hmore => ?_⟩
    rw [List.foldl_concat, hdepth more (by omega),
      hgather more (by omega) (hleft more (by omega))]
  finish id item gathered hitem hlinks hpart hfounded := by
    obtain ⟨depth, hdepth⟩ := hpart item hitem hfounded
    refine ⟨depth + 1, fun more hmore => ?_⟩
    obtain ⟨more, rfl⟩ := Nat.exists_eq_succ_of_ne_zero (show more ≠ 0 by omega)
    simp [plain, hitem, Item.isPredicted, hlinks, hdepth more (by omega)]

include h in
/-- A visit gives an item with nothing cyclic below it the value that depends on
the item alone. -/
theorem run_settled (depth : Nat) (above : List ItemId) (id : ItemId)
    (known : Std.TreeMap ItemId V) (hroom : f.Room depth above id)
    (hknown : Remembers (pass.Settled f) known) :
    Exact (pass.Settled f) id (pass.run f depth above id known) := by
  refine run_within (settled_models h) (fun _ => True) (fun _ _ _ _ => trivial) ?_ depth above id
    known trivial hroom hknown
  rintro id - (hnone | hcycle) hfounded
  · exact pass.settles_absent hnone
  · exact absurd hcycle (hfounded id .refl)

end settled

/-- Two tables that agree over the items of a region whose values depend on what is
remembered. Over the others, whose values depend on the item alone, one may hold more
than the other. -/
structure Alike (f : Forest) (region : ItemId → Prop) (known other : Std.TreeMap ItemId V) :
    Prop where
  left : Remembers (pass.Settled f) known
  right : Remembers (pass.Settled f) other
  same : ∀ id : ItemId, region id → ¬ f.chart.Founded id → known[id]? = other[id]?

section alike

variable {pass : Pass V A} {f : Forest} {region : ItemId → Prop}

theorem Alike.insert {known other : Std.TreeMap ItemId V} (h : pass.Alike f region known other)
    {id : ItemId} (hcyclic : ¬ f.chart.Founded id) (value : V) :
    pass.Alike f region (known.insert id value) (other.insert id value) := by
  refine ⟨h.left.insert fun hfounded => absurd hfounded hcyclic,
    h.right.insert fun hfounded => absurd hfounded hcyclic, fun x hx hfounded => ?_⟩
  rw [Std.TreeMap.getElem?_insert, Std.TreeMap.getElem?_insert, h.same x hx hfounded]

variable (h : pass.Heeds) (hregion : ∀ a b, f.chart.Under a b → region b → region a)

section fold

variable {id : ItemId} {item : Item} (hitem : f.item? id = some item) (hid : region id)
  {visit : ItemId → Std.TreeMap ItemId V → V × Std.TreeMap ItemId V}
  (hvisit : ∀ child known other, f.chart.Under child id → region child →
    pass.Alike f region known other → (visit child known).1 = (visit child other).1 ∧
      pass.Alike f region (visit child known).2 (visit child other).2)

include h hregion hitem hid hvisit in
theorem step_alike {link : Link} (hlink : link ∈ item.links) (gathered : A)
    {known other : Std.TreeMap ItemId V} (halike : pass.Alike f region known other) :
    (pass.step visit item (gathered, known) link).1 =
        (pass.step visit item (gathered, other) link).1 ∧
      pass.Alike f region (pass.step visit item (gathered, known) link).2
        (pass.step visit item (gathered, other) link).2 := by
  have hunder : f.chart.Under link.left id := ⟨item, link, hitem, hlink, .inl rfl⟩
  obtain ⟨hleft, hmid⟩ := hvisit link.left known other hunder (hregion _ id hunder hid) halike
  simp only [step]
  cases pass.full gathered with
  | true => exact ⟨rfl, halike⟩
  | false =>
      simp only [Bool.false_eq_true, if_false, ← hleft]
      cases hright : if pass.calls (visit link.left known).1 then pass.right? link else none with
      | none => exact ⟨rfl, hmid⟩
      | some right =>
          have hlink' : link.right = some right := by
            split at hright
            · exact h.right link right hright
            · contradiction
          have hunder' : f.chart.Under right id := ⟨item, link, hitem, hlink, .inr hlink'⟩
          obtain ⟨hvalue, hlast⟩ := hvisit right _ _ hunder' (hregion _ id hunder' hid) hmid
          exact ⟨congrArg (pass.add item link _ · gathered) hvalue, hlast⟩

include h hregion hitem hid hvisit in
theorem foldl_alike (links : List Link) (hlinks : ∀ link ∈ links, link ∈ item.links)
    (gathered : A) {known other : Std.TreeMap ItemId V}
    (halike : pass.Alike f region known other) :
    (links.foldl (pass.step visit item) (gathered, known)).1 =
        (links.foldl (pass.step visit item) (gathered, other)).1 ∧
      pass.Alike f region (links.foldl (pass.step visit item) (gathered, known)).2
        (links.foldl (pass.step visit item) (gathered, other)).2 := by
  induction links generalizing gathered known other with
  | nil => exact ⟨rfl, halike⟩
  | cons link links ih =>
      obtain ⟨hsame, hafter⟩ := step_alike h hregion hitem hid hvisit
        (hlinks link (by simp)) gathered halike
      have hrest := ih (fun other hother => hlinks other (by simp [hother]))
        (pass.step visit item (gathered, known) link).1 hafter
      rw [List.foldl_cons, List.foldl_cons]
      rwa [Prod.mk.eta, hsame, Prod.mk.eta] at hrest

end fold

include h hregion in
/-- Visits with tables that are alike give the same value, and tables that are
alike again. -/
theorem run_alike (depth : Nat) (above : List ItemId) (id : ItemId)
    (known other : Std.TreeMap ItemId V) (hid : region id) (hroom : f.Room depth above id)
    (halike : pass.Alike f region known other) :
    (pass.run f depth above id known).1 = (pass.run f depth above id other).1 ∧
      pass.Alike f region (pass.run f depth above id known).2
        (pass.run f depth above id other).2 := by
  induction depth generalizing above id known other with
  | zero => exact ⟨rfl, halike⟩
  | succ depth ih =>
      by_cases hfounded : f.chart.Founded id
      · obtain ⟨hvalue, hafter⟩ := run_settled h _ above id known hroom halike.left
        obtain ⟨hvalue', hafter'⟩ := run_settled h _ above id other hroom halike.right
        refine ⟨(hvalue hfounded).unique (hvalue' hfounded), hafter, hafter', ?_⟩
        intro x hx hcyclic
        -- what is new is below the item, where nothing is cyclic
        have hout : ¬ Relation.ReflTransGen f.chart.Under x id :=
          fun hbelow => hcyclic (hfounded.below hbelow)
        rw [(pass.run_adds f h.right _ above id known).unchanged hout,
          (pass.run_adds f h.right _ above id other).unchanged hout, halike.same x hx hcyclic]
      rw [run, run, ← halike.same id hid hfounded]
      cases known[id]? with
      | some value => exact ⟨rfl, halike⟩
      | none =>
          cases hitem : f.item? id with
          | none => exact ⟨rfl, halike⟩
          | some item =>
              dsimp only
              split
              · exact ⟨rfl, halike⟩
              split
              · exact ⟨rfl, halike⟩
              next habove =>
              rw [List.contains_iff_mem] at habove
              obtain ⟨hsame, hafter⟩ := foldl_alike h hregion hitem hid
                (fun child known other hchild hregion' =>
                  ih (id :: above) child known other hregion' (hroom.below hitem habove hchild))
                item.links (fun _ hlink => hlink) pass.start halike
              rw [hsame]
              exact ⟨rfl, hafter.insert hfounded _⟩

end alike

end Pass
end EarleyChart
