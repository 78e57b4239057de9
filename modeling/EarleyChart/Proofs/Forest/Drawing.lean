import EarleyChart.Forest.Graph
import EarleyChart.Proofs.Forest.Accepted

/-!
The diagram of a forest shows what is below its roots. The search for it sees each
item once, and ends when nothing that was seen is left to be drawn, also where
items are below themselves. Each item has a line of its own and one for every end
of its links.
-/

namespace EarleyChart
namespace Forest

/-- A line of a diagram: an item, an edge between two, or the mark of a root. -/
inductive DiagramLine where
  | node (id : ItemId) (item : Item)
  | edge (source target : ItemId) (style : String)
  | filled (root : ItemId)

def nodeLabel (g : Grammar) (id : ItemId) (item : Item) : String :=
  id.render ++ ": " ++ g.dotted item.rule (some item.dot) ++ "\\ncost " ++ toString item.errorCost

def DiagramLine.text (g : Grammar) : DiagramLine → String
  | .node id item =>
      "  \"" ++ id.render ++ "\" [label=\"" ++ nodeLabel g id item ++ "\"]\n"
  | .edge source target style =>
      "  \"" ++ source.render ++ "\" -> \"" ++ target.render ++ "\" [style=" ++ style ++ "]\n"
  | .filled root => "  \"" ++ root.render ++ "\" [style=filled, fillcolor=lightblue]\n"

def leftStyle (link : Link) : String :=
  match link.step with
  | .scanned | .completed => "solid"
  | .deleted | .substituted => "dotted"

def linkLines (id : ItemId) (link : Link) : List DiagramLine :=
  .edge id link.left (leftStyle link) :: link.right.toList.map (.edge id · "dashed")

def itemLines (f : Forest) (id : ItemId) : List DiagramLine :=
  (f.item? id).elim [] fun item => .node id item :: item.links.flatMap (linkLines id)

def diagramLines (f : Forest) (ids : List ItemId) : List DiagramLine :=
  ids.flatMap f.itemLines ++ f.roots.map .filled

theorem itemNode_eq (f : Forest) (id : ItemId) (item : Item) :
    f.itemNode id item = (DiagramLine.node id item).text f.grammar := by
  rw [DiagramLine.text, nodeLabel]
  simp only [← String.append_assoc]
  rfl

theorem linkEdges_eq (g : Grammar) (id : ItemId) (link : Link) :
    linkEdges id link = String.join ((linkLines id link).map (DiagramLine.text g)) := by
  rw [linkLines, List.map_cons, String.join_cons, linkEdges]
  cases link.right with
  | none => rfl
  | some right =>
      have hstyle : "\" [style=" ++ ("dashed" ++ "]\n") = "\" [style=dashed]\n" := by decide
      rw [Option.toList_some, List.map_singleton, List.map_singleton, String.join_cons,
        String.join_nil, String.append_empty, Option.elim_some]
      simp only [DiagramLine.text, String.append_assoc, hstyle]
      rfl

/-- The items that were drawn, those that are still to be drawn, and what was seen. -/
structure Drawing (f : Forest) (drawn : List ItemId) (seen : Std.TreeSet ItemId)
    (stack : List ItemId) : Prop where
  nodup : (drawn ++ stack).Nodup
  mem_seen : ∀ id, id ∈ seen ↔ id ∈ drawn ++ stack
  present : ∀ id ∈ drawn ++ stack, (f.item? id).isSome = true
  roots : ∀ root ∈ f.roots, root ∈ drawn ++ stack
  below : ∀ id ∈ drawn ++ stack, ∃ root ∈ f.roots, Relation.ReflTransGen f.chart.Under id root
  closed : ∀ id ∈ drawn, ∀ child, f.chart.Under child id → child ∈ drawn ++ stack

/-- What is put on the stack is what was not seen, each item once. -/
theorem pushFresh_spec (seen : Std.TreeSet ItemId) (stack ids : List ItemId) :
    ∃ fresh, (pushFresh seen stack ids).2 = fresh ++ stack ∧ fresh.Nodup ∧
      (∀ id ∈ fresh, id ∈ ids ∧ id ∉ seen) ∧
      (∀ id, id ∈ (pushFresh seen stack ids).1 ↔ id ∈ seen ∨ id ∈ fresh) ∧
      ∀ id ∈ ids, id ∈ (pushFresh seen stack ids).1 := by
  induction ids generalizing seen stack with
  | nil => exact ⟨[], rfl, .nil, by simp, by simp [pushFresh], by simp⟩
  | cons first ids ih =>
      rw [pushFresh]
      split
      · next hseen =>
        rw [Std.TreeSet.contains_iff_mem] at hseen
        obtain ⟨fresh, hstack, hnodup, hfresh, hmem, hids⟩ := ih seen stack
        refine ⟨fresh, hstack, hnodup, fun id hid => ?_, hmem, ?_⟩
        · exact ⟨List.mem_cons_of_mem _ (hfresh id hid).1, (hfresh id hid).2⟩
        · rintro id (_ | ⟨_, hid⟩)
          · exact (hmem first).mpr (.inl hseen)
          · exact hids id hid
      · next hseen =>
        rw [Std.TreeSet.contains_iff_mem] at hseen
        obtain ⟨fresh, hstack, hnodup, hfresh, hmem, hids⟩ :=
          ih (seen.insert first) (first :: stack)
        have hinsert : ∀ id, id ∈ seen.insert first ↔ id = first ∨ id ∈ seen := by
          intro id
          rw [Std.TreeSet.mem_insert, Std.compare_eq_iff_eq, eq_comm]
        simp only [hinsert] at hfresh hmem
        refine ⟨fresh ++ [first], by simp [hstack], ?_, fun id hid => ?_, fun id => ?_, ?_⟩
        · rw [List.nodup_append_comm]
          exact List.nodup_cons.mpr ⟨fun hid => (hfresh first hid).2 (.inl rfl), hnodup⟩
        · rcases List.mem_append.mp hid with hid | hid
          · exact ⟨List.mem_cons_of_mem _ (hfresh id hid).1, fun h => (hfresh id hid).2 (.inr h)⟩
          · obtain rfl := List.mem_singleton.mp hid
            exact ⟨List.mem_cons_self, hseen⟩
        · rw [hmem, List.mem_append, List.mem_singleton]
          tauto
        · rintro id (_ | ⟨_, hid⟩)
          · exact (hmem first).mpr (.inl (.inl rfl))
          · exact hids id hid

theorem stack_pushFresh {seen : Std.TreeSet ItemId} {ids : List ItemId} (hnodup : ids.Nodup)
    (hseen : ∀ id ∈ ids, id ∉ seen) (stack : List ItemId) :
    (pushFresh seen stack ids).2 = ids.reverse ++ stack := by
  induction ids generalizing seen stack with
  | nil => rfl
  | cons first ids ih =>
      obtain ⟨hfirst, hnodup⟩ := List.nodup_cons.mp hnodup
      have hfresh : ¬ seen.contains first = true :=
        mt Std.TreeSet.contains_iff_mem.mp (hseen first List.mem_cons_self)
      rw [pushFresh, if_neg hfresh, ih hnodup, List.reverse_cons, List.append_assoc]
      · rfl
      · intro id hid hmem
        rw [Std.TreeSet.mem_insert, Std.compare_eq_iff_eq] at hmem
        obtain rfl | hmem := hmem
        · exact hfirst hid
        · exact hseen id (List.mem_cons_of_mem _ hid) hmem

/-- No root is met twice, so that the search begins with the roots, the last one on top. -/
theorem stack_pushFresh_roots (f : Forest) (hfiled : f.chart.Filed f.grammar) :
    (pushFresh {} [] f.roots).2 = f.roots.reverse := by
  rw [stack_pushFresh (f.nodup_roots hfiled) fun _ _ => Std.TreeSet.not_mem_emptyc,
    List.append_nil]

theorem mem_linkTargets (link : Link) (id : ItemId) :
    id ∈ linkTargets link ↔ link.left = id ∨ link.right = some id := by
  rw [linkTargets, List.mem_cons, Option.mem_toList, eq_comm]

/-- The ends of an item's links are the items below it. -/
theorem mem_targets (f : Forest) {id : ItemId} {item : Item} (hitem : f.item? id = some item)
    (child : ItemId) :
    child ∈ item.links.flatMap linkTargets ↔ f.chart.Under child id := by
  simp only [List.mem_flatMap, mem_linkTargets]
  constructor
  · rintro ⟨link, hlink, hends⟩
    exact ⟨item, link, hitem, hlink, hends⟩
  · rintro ⟨item', link, hitem', hlink, hends⟩
    obtain rfl := Option.some.inj (hitem.symm.trans hitem')
    exact ⟨link, hlink, hends⟩

def itemTexts (f : Forest) (id : ItemId) : List String :=
  (f.item? id).elim [] fun item => f.itemNode id item :: item.links.map (linkEdges id)

theorem join_itemTexts (f : Forest) (ids : List ItemId) :
    String.join (ids.flatMap f.itemTexts) =
      String.join ((ids.flatMap f.itemLines).map (DiagramLine.text f.grammar)) := by
  have hlinks : ∀ (id : ItemId) (links : List Link), String.join (links.map (linkEdges id)) =
      String.join ((links.flatMap (linkLines id)).map (DiagramLine.text f.grammar)) := by
    intro id links
    induction links with
    | nil => rfl
    | cons link links ih =>
        rw [List.map_cons, String.join_cons, ih, linkEdges_eq f.grammar, List.flatMap_cons,
          List.map_append, String.join_append]
  induction ids with
  | nil => rfl
  | cons id ids ih =>
      rw [List.flatMap_cons, List.flatMap_cons, List.map_append, String.join_append,
        String.join_append, ih, itemTexts, itemLines]
      cases f.item? id with
      | none => rfl
      | some item =>
          rw [Option.elim_some, Option.elim_some, List.map_cons, String.join_cons,
            String.join_cons, itemNode_eq, hlinks]

theorem drawFrom_nil (f : Forest) (steps : Nat) (seen : Std.TreeSet ItemId) :
    f.drawFrom steps seen [] = [] := by
  cases steps <;> rfl

theorem drawFrom_cons {f : Forest} {id : ItemId} {item : Item} (hitem : f.item? id = some item)
    (steps : Nat) (seen : Std.TreeSet ItemId) (stack : List ItemId) :
    f.drawFrom (steps + 1) seen (id :: stack) = f.itemTexts id ++
      f.drawFrom steps (pushFresh seen stack (item.links.flatMap linkTargets)).1
        (pushFresh seen stack (item.links.flatMap linkTargets)).2 := by
  rw [drawFrom, itemTexts, hitem, Option.elim_some]

namespace Drawing

variable {f : Forest} (hc : f.chart.Valid f.grammar) {drawn stack : List ItemId}
  {seen : Std.TreeSet ItemId} {id : ItemId}

include hc in
/-- Drawing an item puts what is below it on the stack. -/
theorem step (h : f.Drawing drawn seen (id :: stack)) {item : Item}
    (hitem : f.item? id = some item) :
    f.Drawing (drawn ++ [id])
      (pushFresh seen stack (item.links.flatMap linkTargets)).1
      (pushFresh seen stack (item.links.flatMap linkTargets)).2 := by
  obtain ⟨fresh, hstack, hnodup, hfresh, hmem, htargets⟩ :=
    pushFresh_spec seen stack (item.links.flatMap linkTargets)
  simp only [h.mem_seen, f.mem_targets hitem] at hfresh hmem htargets
  have hsplit : ∀ other, other ∈ (drawn ++ [id]) ++ (fresh ++ stack) ↔
      other ∈ drawn ++ id :: stack ∨ other ∈ fresh := by
    intro other
    simp only [List.mem_append, List.mem_cons, List.not_mem_nil, or_false]
    tauto
  rw [hstack]
  constructor
  case nodup =>
    have hperm : ((drawn ++ [id]) ++ (fresh ++ stack)).Perm (fresh ++ (drawn ++ id :: stack)) := by
      rw [List.append_assoc, List.singleton_append]
      refine List.Perm.trans (List.Perm.append_left drawn List.perm_middle.symm) ?_
      exact List.perm_append_comm_assoc ..
    rw [hperm.nodup_iff, List.nodup_append']
    exact ⟨hnodup, h.nodup, fun other hother => (hfresh other hother).2⟩
  case mem_seen => exact fun other => (hmem other).trans (hsplit other).symm
  case present =>
    intro other hother
    rcases (hsplit other).mp hother with hold | hnew
    · exact h.present other hold
    · obtain ⟨child, hchild, -⟩ := (hfresh other hnew).1.within hc hitem
      exact Option.isSome_iff_exists.mpr ⟨child, hchild⟩
  case roots => exact fun root hroot => (hsplit root).mpr (.inl (h.roots root hroot))
  case below =>
    intro other hother
    rcases (hsplit other).mp hother with hold | hnew
    · exact h.below other hold
    · obtain ⟨root, hroot, hreach⟩ := h.below id (by simp)
      exact ⟨root, hroot, .head (hfresh other hnew).1 hreach⟩
  case closed =>
    intro other hother child hchild
    refine (hsplit child).mpr ?_
    rcases List.mem_append.mp hother with hother | hother
    · exact .inl (h.closed other hother child hchild)
    · obtain rfl := List.mem_singleton.mp hother
      exact (hmem child).mp (htargets child hchild)

/-- Nothing is drawn yet, and the roots are to be. -/
theorem start (hg : f.grammar.Numbered) (hfiled : f.chart.Filed f.grammar) :
    f.Drawing [] (pushFresh {} [] f.roots).1 (pushFresh {} [] f.roots).2 := by
  obtain ⟨fresh, -, -, hfresh, hmem, hroots⟩ := pushFresh_spec {} [] f.roots
  simp only [Std.TreeSet.not_mem_emptyc, false_or] at hmem
  have hseen : ∀ id, id ∈ (pushFresh {} [] f.roots).1 ↔ id ∈ f.roots := fun id =>
    ⟨fun hid => (hfresh id ((hmem id).mp hid)).1, hroots id⟩
  rw [stack_pushFresh_roots f hfiled]
  constructor
  case nodup => exact List.nodup_reverse.mpr (f.nodup_roots hfiled)
  case mem_seen => exact fun id => (hseen id).trans List.mem_reverse.symm
  case present =>
    intro id hid
    obtain ⟨item, hitem, -⟩ := (f.mem_roots hg hfiled id).mp (List.mem_reverse.mp hid)
    exact Option.isSome_iff_exists.mpr ⟨item, hitem⟩
  case roots => exact fun root hroot => List.mem_reverse.mpr hroot
  case below => exact fun id hid => ⟨id, List.mem_reverse.mp hid, .refl⟩
  case closed => exact fun id hid => absurd hid List.not_mem_nil

include hc in
/-- The room for items that are not drawn yet bounds the steps that are left. -/
theorem run {n : Nat} (h : f.Drawing drawn seen stack) (hroom : f.itemCount ≤ drawn.length + n) :
    ∃ ids last, f.Drawing (drawn ++ ids) last [] ∧
      ∀ steps, f.itemCount < drawn.length + steps →
        f.drawFrom steps seen stack = ids.flatMap f.itemTexts := by
  have hlength := f.length_le_itemCount _ h.nodup h.present
  rw [List.length_append] at hlength
  induction n generalizing drawn seen stack with
  | zero =>
      obtain rfl : stack = [] := List.length_eq_zero_iff.mp (by omega)
      exact ⟨[], seen, by simpa using h, fun steps _ => f.drawFrom_nil steps seen⟩
  | succ n ih =>
      cases stack with
      | nil => exact ⟨[], seen, by simpa using h, fun steps _ => f.drawFrom_nil steps seen⟩
      | cons id stack =>
          obtain ⟨item, hitem⟩ := Option.isSome_iff_exists.mp (h.present id (by simp))
          have hnext := h.step hc hitem
          have hdrawn : (drawn ++ [id]).length = drawn.length + 1 := by simp
          have hroom' := f.length_le_itemCount _ hnext.nodup hnext.present
          rw [List.length_append] at hroom'
          obtain ⟨ids, last, hlast, htexts⟩ := ih hnext (by omega) hroom'
          refine ⟨id :: ids, last, by simpa using hlast, fun steps hsteps => ?_⟩
          rw [List.length_cons] at hlength
          obtain ⟨steps, rfl⟩ : ∃ rest, steps = rest + 1 := ⟨steps - 1, by omega⟩
          rw [drawFrom_cons hitem, htexts steps (by omega), List.flatMap_cons]

/-- When nothing is left to be drawn, what was drawn is what the roots lead to. -/
theorem mem_iff (h : f.Drawing drawn seen []) :
    id ∈ drawn ↔ ∃ root ∈ f.roots, Relation.ReflTransGen f.chart.Under id root := by
  constructor
  · exact fun hid => h.below id (List.mem_append_left _ hid)
  · rintro ⟨root, hroot, hreach⟩
    induction hreach using Relation.ReflTransGen.head_induction_on with
    | refl => simpa using h.roots root hroot
    | head hunder _ ih => simpa using h.closed _ ih _ hunder

end Drawing

/-- Some items, each once, are those within reach of the roots. -/
structure Reaches (f : Forest) (ids : List ItemId) : Prop where
  nodup : ids.Nodup
  mem_iff : ∀ id, id ∈ ids ↔ ∃ root ∈ f.roots, Relation.ReflTransGen f.chart.Under id root
  present : ∀ id ∈ ids, ∃ item, f.item? id = some item

def diagramHead : String :=
  "digraph Forest \x7b\n" ++ "  rankdir=RL;\n" ++ "  node [shape=box];\n"

theorem toDot_eq (f : Forest) :
    f.toDot = diagramHead ++
      String.join (f.drawFrom (f.itemCount + 1) (pushFresh {} [] f.roots).1
        (pushFresh {} [] f.roots).2) ++
      String.join ((f.roots.map .filled).map (DiagramLine.text f.grammar)) ++ "\x7d\n" := by
  rw [List.map_map]
  rfl

/-- The diagram is made of the lines of the items within reach of the roots, and no
further step of the search adds to it. -/
theorem exists_reaches (f : Forest) (hg : f.grammar.Numbered) (hc : f.chart.Valid f.grammar) :
    ∃ ids, f.Reaches ids ∧
      f.toDot = diagramHead ++
        String.join ((f.diagramLines ids).map (DiagramLine.text f.grammar)) ++ "\x7d\n" ∧
      ∀ steps, f.itemCount < steps →
        f.drawFrom steps (pushFresh {} [] f.roots).1 (pushFresh {} [] f.roots).2 =
          ids.flatMap f.itemTexts := by
  obtain ⟨ids, last, hlast, htexts⟩ :=
    (Drawing.start hg hc.filed).run hc (n := f.itemCount) (by simp)
  simp only [List.nil_append, List.length_nil, Nat.zero_add] at hlast htexts
  refine ⟨ids, ⟨?_, fun id => hlast.mem_iff, fun id hid => ?_⟩, ?_, htexts⟩
  · simpa using hlast.nodup
  · exact Option.isSome_iff_exists.mp (hlast.present id (List.mem_append_left _ hid))
  · rw [toDot_eq, htexts _ (Nat.lt_succ_self _), join_itemTexts, diagramLines, List.map_append,
      String.join_append]
    simp only [String.append_assoc]

/-- An edge of a diagram is an end of a link. -/
theorem edge_cases {f : Forest} {ids : List ItemId} {source target : ItemId} {style : String}
    (hedge : .edge source target style ∈ f.diagramLines ids) :
    source ∈ ids ∧ ∃ item, f.item? source = some item ∧ ∃ link ∈ item.links,
      link.left = target ∧ style = leftStyle link ∨
        link.right = some target ∧ style = "dashed" := by
  rcases List.mem_append.mp hedge with hedge | hedge
  · obtain ⟨id, hid, hedge⟩ := List.mem_flatMap.mp hedge
    rw [itemLines] at hedge
    cases hitem : f.item? id with
    | none => simp [hitem] at hedge
    | some item =>
        rw [hitem, Option.elim_some] at hedge
        rcases List.mem_cons.mp hedge with hnode | hedge
        · contradiction
        · obtain ⟨link, hlink, hedge⟩ := List.mem_flatMap.mp hedge
          simp only [linkLines, List.mem_cons, List.mem_map, Option.mem_toList] at hedge
          rcases hedge with hedge | ⟨right, hright, hedge⟩
          · injection hedge with hsource htarget hstyle
            subst hsource
            exact ⟨hid, item, hitem, link, hlink, .inl ⟨htarget.symm, hstyle⟩⟩
          · injection hedge with hsource htarget hstyle
            subst hsource htarget
            exact ⟨hid, item, hitem, link, hlink, .inr ⟨hright, hstyle.symm⟩⟩
  · obtain ⟨root, -, hmark⟩ := List.mem_map.mp hedge
    contradiction

/-- Every edge of a diagram is between items that have lines of their own. -/
theorem Reaches.ends {f : Forest} {ids : List ItemId} (h : f.Reaches ids) {source target : ItemId}
    {style : String} (hedge : .edge source target style ∈ f.diagramLines ids) :
    source ∈ ids ∧ target ∈ ids := by
  obtain ⟨hsource, item, hitem, link, hlink, hends⟩ := edge_cases hedge
  obtain ⟨root, hroot, hreach⟩ := (h.mem_iff source).mp hsource
  have hunder : f.chart.Under target source :=
    ⟨item, link, hitem, hlink, hends.imp And.left And.left⟩
  exact ⟨hsource, (h.mem_iff target).mpr ⟨root, hroot, .head hunder hreach⟩⟩

end Forest

namespace Parser

end Parser
end EarleyChart
