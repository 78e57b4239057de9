import EarleyChart.Proofs.Forest.Accepted
import EarleyChart.Proofs.Forest.Counting
import EarleyChart.Proofs.Forest.Memory

/-!
Counting and building keep step. Both are measured by exact counts: as long as
none of these goes beyond a bound, what a pass gives to an item is as large as
its exact count, and its table has the same items. Counting keeps step up to the
greatest count and building up to its limit, so that where neither is exceeded
there are as many trees as were counted, cycles or not.
-/

namespace EarleyChart
namespace Pass

variable {V A : Type}

/-- The pass that counts derivations exactly. -/
def tallying : Pass Nat Nat where
  missing := 0
  unit := 1
  start := 0
  full _ := false
  calls n := decide (n > 0)
  right? link := link.right
  add _ link left right total :=
    if link.right.isSome then total + left * right else total + left
  finish total := total

/-- A pass whose values are as large as the exact counts, as long as these stay
within a bound. -/
structure Follows (pass : Pass V A) (f : Forest) (bound : Nat) (size : V → Nat)
    (total : A → Nat) : Prop where
  missing : size pass.missing = 0
  unit : size pass.unit = 1
  start : total pass.start = 0
  open_start : pass.full pass.start = false
  calls : ∀ value, pass.calls value = decide (size value > 0)
  right : ∀ id item link, f.item? id = some item → link ∈ item.links →
    pass.right? link = link.right
  add : ∀ id item link left right gathered, f.item? id = some item → link ∈ item.links →
    pass.full gathered = false →
    tallying.add item link (size left) (size right) (total gathered) ≤ bound →
    pass.full (pass.add item link left right gathered) = false ∧
      total (pass.add item link left right gathered) =
        tallying.add item link (size left) (size right) (total gathered)
  finish : ∀ gathered, size (pass.finish gathered) = total gathered

/-- Two tables have the same items, with values as large as the counts. -/
def Measures (size : V → Nat) (tallies : Std.TreeMap ItemId Nat)
    (known : Std.TreeMap ItemId V) : Prop :=
  ∀ id : ItemId, tallies[id]? = known[id]?.map size

def Below (bound : Nat) (tallies : Std.TreeMap ItemId Nat) : Prop :=
  ∀ (id : ItemId) n, tallies[id]? = some n → n ≤ bound

theorem Below.of_adds {f : Forest} {above : List ItemId} {id : ItemId} {bound : Nat}
    {tallies after : Std.TreeMap ItemId Nat} (hadds : Adds f above id tallies after)
    (h : Below bound after) : Below bound tallies :=
  fun x n hx => h x n (hadds.kept x n hx)

theorem Measures.insert {size : V → Nat} {tallies : Std.TreeMap ItemId Nat}
    {known : Std.TreeMap ItemId V} (h : Measures size tallies known) {n : Nat} {value : V}
    (hvalue : n = size value) (id : ItemId) :
    Measures size (tallies.insert id n) (known.insert id value) := by
  intro x
  rw [Std.TreeMap.getElem?_insert, Std.TreeMap.getElem?_insert]
  split
  · rw [hvalue, Option.map_some]
  · exact h x

theorem tallying_right (link : Link) (other : ItemId) (h : tallying.right? link = some other) :
    link.right = some other := h

section fold

variable {f : Forest} {above : List ItemId} {id : ItemId} {item : Item}
  (hitem : f.item? id = some item)
  {tally : ItemId → Std.TreeMap ItemId Nat → Nat × Std.TreeMap ItemId Nat}
  (htally : ∀ child tallies, Adds f above child tallies (tally child tallies).2)

/-- What is tallied only grows. -/
theorem le_step_tallying (s : Nat × Std.TreeMap ItemId Nat) (link : Link) :
    s.1 ≤ (tallying.step tally item s link).1 := by
  have hadd : ∀ left right, s.1 ≤ tallying.add item link left right s.1 := by
    intro left right
    simp only [tallying]
    split <;> exact Nat.le_add_right _ _
  rcases tallying.step_cases tally item s link with
    ⟨-, hstep⟩ | ⟨-, ⟨-, hstep⟩ | ⟨right, -, -, hstep⟩⟩
  · rw [hstep]
  · rw [hstep]
    exact hadd _ _
  · rw [hstep]
    exact hadd _ _

variable {pass : Pass V A} {bound : Nat} {size : V → Nat} {total : A → Nat}
  (h : pass.Follows f bound size total)
  {visit : ItemId → Std.TreeMap ItemId V → V × Std.TreeMap ItemId V}
  (hvisit : ∀ child tallies known, Measures size tallies known →
    Below bound (tally child tallies).2 → (tally child tallies).1 = size (visit child known).1 ∧
      Measures size (tally child tallies).2 (visit child known).2)

include hitem htally h hvisit in
/-- A pass keeps step over one link. -/
theorem step_follows {link : Link} (hlink : link ∈ item.links)
    {r : Nat × Std.TreeMap ItemId Nat} {s : A × Std.TreeMap ItemId V}
    (hopen : pass.full s.1 = false) (htotal : r.1 = total s.1) (hknown : Measures size r.2 s.2)
    (hle : (tallying.step tally item r link).1 ≤ bound)
    (hbelow : Below bound (tallying.step tally item r link).2) :
    pass.full (pass.step visit item s link).1 = false ∧
      (tallying.step tally item r link).1 = total (pass.step visit item s link).1 ∧
      Measures size (tallying.step tally item r link).2 (pass.step visit item s link).2 := by
  have hright := h.right id item link hitem hlink
  have hadd := h.add id item link
  rcases tallying.step_cases tally item r link with
    ⟨hfull, -⟩ | ⟨-, ⟨hnone, hstep⟩ | ⟨right, hcalls, hother, hstep⟩⟩
  · contradiction
  · -- there is no right end, or nothing that it could extend
    rw [hstep] at hle hbelow ⊢
    obtain ⟨hleft, hafter⟩ := hvisit link.left r.2 s.2 hknown hbelow
    have hskip : pass.calls (visit link.left s.2).1 = true → pass.right? link = none := by
      rw [h.calls, ← hleft, hright]
      exact hnone
    rcases pass.step_cases visit item s link with
      ⟨hfull, -⟩ | ⟨-, ⟨-, hsame⟩ | ⟨right, hcalls, hother, -⟩⟩
    · rw [hopen] at hfull
      contradiction
    · rw [hsame]
      have hmissing : tallying.missing = size pass.missing := h.missing.symm
      simp only [hleft, htotal, hmissing] at hle ⊢
      obtain ⟨hfull, heq⟩ := hadd _ _ _ hitem hlink hopen hle
      exact ⟨hfull, heq.symm, hafter⟩
    · rw [hskip hcalls] at hother
      contradiction
  · rw [hstep] at hle hbelow ⊢
    have hlink' : link.right = some right := hother
    have hunder : f.chart.Under right id := ⟨item, link, hitem, hlink, .inr hlink'⟩
    obtain ⟨hleft, hmid⟩ := hvisit link.left r.2 s.2 hknown (hbelow.of_adds (htally right _))
    obtain ⟨hvalue, hafter⟩ := hvisit right _ _ hmid hbelow
    rcases pass.step_cases visit item s link with
      ⟨hfull, -⟩ | ⟨-, ⟨hnone, -⟩ | ⟨other, -, hother', hsame⟩⟩
    · rw [hopen] at hfull
      contradiction
    · have hcalls' : pass.calls (visit link.left s.2).1 = true := by
        rw [h.calls, ← hleft]
        exact hcalls
      rw [← hright, hnone hcalls'] at hlink'
      contradiction
    · rw [hright, hlink'] at hother'
      obtain rfl := Option.some.inj hother'
      rw [hsame]
      simp only [hleft, hvalue, htotal] at hle ⊢
      obtain ⟨hfull, heq⟩ := hadd _ _ _ hitem hlink hopen hle
      exact ⟨hfull, heq.symm, hafter⟩

include hitem htally h hvisit in
/-- A pass keeps step over some links. The bounds hold at the end, and from there
they are carried back link by link. -/
theorem foldl_follows (links : List Link) (hlinks : ∀ link ∈ links, link ∈ item.links)
    {tallies : Std.TreeMap ItemId Nat} {known : Std.TreeMap ItemId V}
    (hknown : Measures size tallies known)
    (hle : (links.foldl (tallying.step tally item) (0, tallies)).1 ≤ bound)
    (hbelow : Below bound (links.foldl (tallying.step tally item) (0, tallies)).2) :
    let gathered := links.foldl (pass.step visit item) (pass.start, known)
    pass.full gathered.1 = false ∧
      (links.foldl (tallying.step tally item) (0, tallies)).1 = total gathered.1 ∧
      Measures size (links.foldl (tallying.step tally item) (0, tallies)).2 gathered.2 := by
  induction links using List.reverseRecOn with
  | nil => exact ⟨h.open_start, h.start.symm, hknown⟩
  | append_singleton links link ih =>
      rw [List.foldl_concat] at hle hbelow ⊢
      rw [List.foldl_concat]
      have hlink : link ∈ item.links := hlinks link (by simp)
      obtain ⟨hopen, htotal, hmid⟩ := ih (fun other hother => hlinks other (by simp [hother]))
        (Nat.le_trans (le_step_tallying _ link) hle)
        (hbelow.of_adds (step_adds tallying_right hitem htally hlink _))
      exact step_follows hitem htally h hvisit hlink hopen htotal hmid hle hbelow

end fold

section run

variable {pass : Pass V A} {f : Forest} {bound : Nat} {size : V → Nat} {total : A → Nat}
  (h : pass.Follows f bound size total)

include h in
/-- A visit gives a value as large as the exact count, if no count that is found
on the way goes beyond the bound. -/
theorem run_follows (depth : Nat) (above : List ItemId) (id : ItemId)
    (tallies : Std.TreeMap ItemId Nat) (known : Std.TreeMap ItemId V)
    (hknown : Measures size tallies known)
    (hbelow : Below bound (tallying.run f depth above id tallies).2) :
    (tallying.run f depth above id tallies).1 = size (pass.run f depth above id known).1 ∧
      Measures size (tallying.run f depth above id tallies).2
        (pass.run f depth above id known).2 := by
  induction depth generalizing above id tallies known with
  | zero => exact ⟨h.missing.symm, hknown⟩
  | succ depth ih =>
      have hsame := hknown id
      cases hfound : known[id]? with
      | some value =>
          rw [hfound, Option.map_some] at hsame
          simp only [run, hfound, hsame]
          exact ⟨trivial, hknown⟩
      | none =>
          rw [hfound, Option.map_none] at hsame
          simp only [run, hfound, hsame] at hbelow ⊢
          cases hitem : f.item? id with
          | none => exact ⟨h.missing.symm, hknown⟩
          | some item =>
              simp only [hitem] at hbelow ⊢
              by_cases hpredicted : item.isPredicted = true
              · rw [if_pos hpredicted, if_pos hpredicted]
                exact ⟨h.unit.symm, hknown⟩
              by_cases hid : above.contains id = true
              · rw [if_neg hpredicted, if_neg hpredicted, if_pos hid, if_pos hid]
                exact ⟨h.missing.symm, hknown⟩
              simp only [if_neg hpredicted, if_neg hid] at hbelow ⊢
              have htally := tallying.run_adds f tallying_right depth (id :: above)
              have hadds := tallying.foldl_adds tallying_right hitem htally item.links
                (fun _ hlink => hlink) (0, tallies)
              -- the count is put in last, so that it and all before it are within the bound
              obtain ⟨-, htotal, hafter⟩ := foldl_follows hitem htally h
                (fun child tallies known => ih (id :: above) child tallies known) item.links
                (fun _ hlink => hlink) hknown
                (hbelow id _ (by rw [Std.TreeMap.getElem?_insert_self]; rfl))
                (fun x n hx => hbelow x n (hadds.kept_insert hsame _ x n hx))
              have hvalue := htotal.trans (h.finish _).symm
              exact ⟨hvalue, hafter.insert hvalue id⟩

include h in
theorem runAll_follows (ids : List ItemId) (tallies : Std.TreeMap ItemId Nat)
    (known : Std.TreeMap ItemId V) (hknown : Measures size tallies known)
    (hbelow : Below bound (tallying.runAll f ids tallies).2) :
    (tallying.runAll f ids tallies).1 = (pass.runAll f ids known).1.map size ∧
      Measures size (tallying.runAll f ids tallies).2 (pass.runAll f ids known).2 := by
  induction ids generalizing tallies known with
  | nil => exact ⟨rfl, hknown⟩
  | cons id ids ih =>
      obtain ⟨hvalue, hafter⟩ := run_follows h _ [] id tallies known hknown
        fun x n hx => hbelow x n (tallying.runAll_kept f tallying_right ids _ x n hx)
      obtain ⟨hvalues, hlast⟩ := ih _ _ hafter hbelow
      exact ⟨by rw [runAll, runAll, List.map_cons, hvalue, hvalues], hlast⟩

end run

/-- Counting keeps step as long as no sum or product is cut off. -/
theorem counting_follows (f : Forest) : counting.Follows f maxCount id id where
  missing := rfl
  unit := rfl
  start := rfl
  open_start := rfl
  calls _ := rfl
  right _ _ _ _ _ := rfl
  add id item link left right total _ _ _ hle := by
    refine ⟨rfl, ?_⟩
    simp only [counting, tallying, id_eq] at hle ⊢
    by_cases hright : link.right.isSome = true
    · rw [if_pos hright] at hle ⊢
      rw [if_pos hright]
      omega
    · rw [if_neg hright] at hle ⊢
      rw [if_neg hright]
      omega
  finish _ := rfl

/-- Building keeps step as long as no item has more sequences than the limit. -/
theorem building_follows {f : Forest} (hc : f.chart.Valid f.grammar) (limit : Nat) :
    (building f limit).Follows f limit List.length fun gathered => gathered.1.length where
  missing := rfl
  unit := rfl
  start := rfl
  open_start := rfl
  calls sequences := by cases sequences <;> rfl
  right _ _ _ hitem hlink := Forest.building_right_eq hc limit hitem hlink
  add id item link left right gathered hitem hlink _ hle := by
    have hcount : ∀ children : List ParseTree,
        gathered.1.length + left.length * children.length ≤ limit →
        decide (left.length * children.length > limit - gathered.1.length) = false ∧
          (gathered.1 ++ extendSequences children (limit - gathered.1.length) left).length =
            gathered.1.length + left.length * children.length := by
      intro children hle
      rw [List.length_append, Forest.length_extendSequences, decide_eq_false_iff_not]
      omega
    simp only [building, tallying] at hle ⊢
    by_cases hstep : link.step = .completed
    · cases (hc.item id item hitem).shape link hlink with
      | scanned | substituted | deleted => contradiction
      | completed other last _ next _ hnext =>
          have hnode : f.item? last = some next := hnext
          simpa [Forest.nodesWith, hnode] using
            hcount (f.nodesWith last right) (by simpa [Forest.nodesWith, hnode] using hle)
    · obtain ⟨_, child, hchild, -⟩ := Forest.tokenChild_ledBy hc hitem hlink hstep
      have hnone : link.right = none := Forest.right_eq_none hc hitem hlink hstep
      simp only [hnone, Option.isSome_none, Bool.false_eq_true, if_false] at hle ⊢
      rw [if_neg hstep, hchild]
      simpa using hcount [child] (by simpa using hle)
  finish _ := rfl

end Pass

def DerivationCounter.after (c : DerivationCounter) (ids : List ItemId) : DerivationCounter :=
  ids.foldl (fun c id => (c.count id).2) c

namespace Forest

variable (f : Forest)

def tallies (ids : List ItemId) : Std.TreeMap ItemId Nat := (Pass.tallying.runAll f ids {}).2

theorem known_after (ids : List ItemId) (known : Std.TreeMap ItemId Nat) :
    (DerivationCounter.after ⟨f, known⟩ ids).known = (Pass.counting.runAll f ids known).2 := by
  induction ids generalizing known with
  | nil => rfl
  | cons id ids ih =>
      rw [DerivationCounter.after, List.foldl_cons, DerivationCounter.count, f.countFrom_eq]
      exact ih _

/-- An item that is not there has no sequences either, so that there are as many
nodes as sequences. -/
theorem length_nodesOfAll (limit : Nat) (ids : List ItemId) (known : KnownSequences)
    (hknown : ∀ (x : ItemId) rows, known[x]? = some rows → (f.item? x).isSome = true) :
    (TreeBuilder.nodesOfAll ⟨f, limit, known⟩ ids).map List.length =
      ((Pass.building f limit).runAll f ids known).1.map List.length := by
  rw [nodesOfAll_eq]
  induction ids generalizing known with
  | nil => rfl
  | cons id ids ih =>
      have hadds := (Pass.building f limit).run_adds f (fun _ _ => Pass.building_right)
        (f.itemCount + 1) [] id known
      rw [Pass.runAll, List.zipWith_cons_cons, List.map_cons, List.map_cons,
        ih _ fun x rows hx => (hadds.new x rows hx).elim (hknown x rows) And.left]
      refine congrArg (List.cons · _) ?_
      cases hitem : f.item? id with
      | some item => rw [nodesWith, hitem, List.length_map]
      | none =>
          have hfresh : known[id]? = none := by
            cases hrows : known[id]? with
            | none => rfl
            | some rows =>
                have := hknown id rows hrows
                rw [hitem] at this
                contradiction
          simp [nodesWith, Pass.run, hfresh, hitem, Pass.building]

end Forest

namespace Parser

/-- However a run came about, if it is accepted then a shared counter and a shared
builder that are asked for the same items agree, as long as the builder's limit is
not below a count that the counter holds and no count is cut off. -/
theorem accepted_nodes_counted (d : GrammarDef) (g : Grammar) (hd : d.toGrammar = .ok g)
    (p : Parser) (hp : Reached g p) (f : Forest) (hf : p.forest? = some f) (ids : List ItemId)
    (limit : Nat)
    (hlimit : ∀ (id : ItemId) n,
      ((DerivationCounter.new f).after ids).known[id]? = some n → n ≤ limit)
    (hexact : ∀ (id : ItemId) n, (f.tallies ids)[id]? = some n → n ≤ maxCount) :
    ((TreeBuilder.new f limit).nodesOfAll ids).map List.length =
      (DerivationCounter.new f).countAll ids := by
  have hg := d.toGrammar_numbered g hd
  have hhealthy := hp.healthy hg
  rw [forest?] at hf
  split at hf
  · obtain rfl := Option.some.inj hf
    have hgrammar := hhealthy.grammar_eq
    subst hgrammar
    have hc := hhealthy.valid
    generalize hforest : (⟨p.grammar, p.chart⟩ : Forest) = f at hlimit hexact
    have hc : f.chart.Valid f.grammar := hforest ▸ hc
    -- the counter holds the exact counts, and so these are within the limit as well
    obtain ⟨hcounts, hheld⟩ := Pass.runAll_follows (Pass.counting_follows f) ids {} {}
      (fun _ => rfl) hexact
    have hwithin : Pass.Below limit (f.tallies ids) := by
      intro id n hn
      rw [DerivationCounter.new, f.known_after] at hlimit
      have hsame := hheld id
      rw [Option.map_id, id_eq] at hsame
      exact hlimit id n (hsame ▸ hn)
    obtain ⟨hlengths, -⟩ := Pass.runAll_follows (Pass.building_follows hc limit) ids {} {}
      (fun _ => rfl) hwithin
    rw [TreeBuilder.new, f.length_nodesOfAll limit ids {} (by simp), ← hlengths, hcounts,
      List.map_id, DerivationCounter.new, f.countAll_eq]
  · contradiction

def crossDef : GrammarDef :=
  ((((((GrammarDef.empty.terminal "a").rule "S" ["A"]).rule "S" ["B"]).rule "A"
    ["B"]).rule "A" ["a"]).rule "B" ["A"]).rule "B" ["a"]

def cross : Grammar where
  terminals := [⟨"a", 0⟩]
  nonterminals := ["S", "A", "B"]
  rules := #[⟨2, [3]⟩, ⟨2, [4]⟩, ⟨3, [4]⟩, ⟨3, [1]⟩, ⟨4, [3]⟩, ⟨4, [1]⟩]
  start := 2

def crossed : Parser := ((new cross).parse (TokenStream.ofList [⟨0, "a", .start⟩])).parser

theorem crossed_reached : Reached cross crossed := .parse (.created .standard) _

theorem crossed_forest : crossed.forest? = some ⟨crossed.grammar, crossed.chart⟩ :=
  forest?_of_accepted (by decide +kernel)

/-- The second root shares what was cut short below the first, in the count and in
the trees alike. -/
theorem accepted_nodes_counted_cross : crossDef.toGrammar = .ok cross ∧
    ∃ f, crossed.forest? = some f ∧ (DerivationCounter.new f).countAll f.roots = [3, 2] ∧
      ((TreeBuilder.new f 3).nodesOfAll f.roots).map List.length = [3, 2] := by
  have hsmall : ∀ table : Std.TreeMap ItemId Nat, table.toList.all (·.2 ≤ 3) = true →
      ∀ (id : ItemId) n, table[id]? = some n → n ≤ 3 := by
    intro table hall id n hn
    have hmem := Std.TreeMap.mem_toList_iff_getElem?_eq_some.mpr hn
    exact of_decide_eq_true (List.all_eq_true.mp hall (id, n) hmem)
  have hcounts : (DerivationCounter.new ⟨crossed.grammar, crossed.chart⟩).countAll
      (Forest.roots ⟨crossed.grammar, crossed.chart⟩) = [3, 2] := by
    decide +kernel
  refine ⟨rfl, _, crossed_forest, hcounts, hcounts ▸ ?_⟩
  refine accepted_nodes_counted crossDef cross rfl crossed crossed_reached _ crossed_forest _ 3
    (hsmall _ (by decide +kernel)) fun id n hn => ?_
  exact Nat.le_trans (hsmall _ (by decide +kernel) id n hn) (by decide)

end Parser
end EarleyChart
