import EarleyChart.Proofs.Chart.Validity
import EarleyChart.Proofs.Grammar.UnitStep
import Mathlib.Data.Prod.Lex
import Mathlib.Data.Set.Card

/-!
The links of a chart as a relation between items. An item below another lies
within it. Where both have the same extent, the part of the rule that is left
out derives nothing, so that a way back from an item to itself is a cycle of
unit steps of the grammar. The first link of an item leads to older items. An item
that both ends of a link lead to has no extent, and no such item is below itself
where no nullable symbol derives itself.
-/

namespace EarleyChart

theorem ItemId.wellFounded_before : WellFounded ItemId.Before := by
  refine Subrelation.wf ?_ (InvImage.wf (fun id : ItemId => toLex (id.column, id.seq))
    wellFounded_lt)
  intro a b h
  exact Prod.Lex.toLex_lt_toLex.mpr h

namespace Grammar

def NullableUpTo (g : Grammar) (rule : RuleId) (dot : Nat) : Prop :=
  ∀ r, g.rule? rule = some r → ∀ s ∈ r.rhs.take dot, g.nullable s = true

def NullableFrom (g : Grammar) (rule : RuleId) (dot : Nat) : Prop :=
  ∀ r, g.rule? rule = some r → ∀ s ∈ r.rhs.drop dot, g.nullable s = true

/-- A relation on bounded numbers without cycles is ranked. -/
theorem exists_rank {R : Nat → Nat → Prop} (bound : Nat) (hbound : ∀ a b, R a b → b ≤ bound)
    (hacyclic : ∀ a, ¬ Relation.TransGen R a a) :
    ∃ rank : Nat → Nat, ∀ a b, R a b → rank b < rank a := by
  refine ⟨fun a => {b | Relation.TransGen R a b}.ncard, fun a b h => ?_⟩
  refine Set.ncard_lt_ncard ⟨fun last hlast => .head h hlast, fun hsub => ?_⟩ ?_
  · exact hacyclic b (hsub (.single h))
  · refine (Set.finite_le_nat bound).subset fun last hlast => ?_
    cases hlast with
    | single hstep => exact hbound _ _ hstep
    | tail _ hstep => exact hbound _ _ hstep

end Grammar

namespace Chart

/-- One item is directly below another: a link of the other leads to it. -/
def Under (c : Chart) (a b : ItemId) : Prop :=
  ∃ item link, c.item? b = some item ∧ link ∈ item.links ∧
    (link.left = a ∨ link.right = some a)

/-- A link leads over a token from the column before, or over a completed item. -/
theorem LinkFits.token_or_completed {g : Grammar} {c : Chart} {key : ItemKey} {k : Nat}
    {link : Link} (h : c.LinkFits g key k link) :
    (link.right = none ∧ link.left.column + 1 = k ∧ ∃ left, c.item? link.left = some left ∧
      key.rule = left.rule ∧ key.origin = left.origin) ∨
    ∃ other left right, link.right = some other ∧ c.item? link.left = some left ∧
      c.item? other = some right ∧ link.left.column = right.origin ∧ other.column = k ∧
      key = ⟨left.rule, left.dot + 1, left.origin⟩ ∧
      g.next? left.rule left.dot = some (g.lhs right.rule) ∧
      g.next? right.rule right.dot = none := by
  cases h with
  | scanned id left _ hleft hcolumn hkey | substituted id left _ _ hleft hcolumn hkey
  | deleted id left _ _ hleft hcolumn hkey =>
      exact .inl ⟨rfl, hcolumn, left, hleft, congrArg ItemKey.rule hkey,
        congrArg ItemKey.origin hkey⟩
  | completed id other left right hleft hright hcolumn hother hkey hnext hend =>
      exact .inr ⟨other, left, right, rfl, hleft, hright, hcolumn, hother, hkey, hnext, hend⟩

section Valid

variable {g : Grammar} {c : Chart} (hc : c.Valid g)

include hc in
/-- What is below an item is an item within it. -/
theorem Under.within {a b : ItemId} {parent : Item} (h : c.Under a b)
    (hparent : c.item? b = some parent) : ∃ child, c.item? a = some child ∧
      parent.origin ≤ child.origin ∧ a.column ≤ b.column := by
  obtain ⟨item, link, hitem, hlink, hends⟩ := h
  obtain rfl := Option.some.inj (hparent.symm.trans hitem)
  rcases ((hc.item b parent hparent).shape link hlink).token_or_completed with
    ⟨hnone, hcolumn, left, hleft, -, horigin⟩ |
    ⟨other, left, right, hsome, hleft, hright, hcolumn, hother, hkey, -⟩
  · rw [hnone] at hends
    obtain rfl := hends.resolve_right (by simp)
    exact ⟨left, hleft, Nat.le_of_eq horigin, by omega⟩
  · have hright' := (hc.item other right hright).origin
    have hleft' := (hc.item link.left left hleft).origin
    have horigin : parent.origin = left.origin := congrArg ItemKey.origin hkey
    rcases hends with rfl | hends
    · exact ⟨left, hleft, Nat.le_of_eq horigin, by omega⟩
    · obtain rfl := Option.some.inj (hsome.symm.trans hends)
      exact ⟨right, hright, by omega, by omega⟩

variable (hg : g.Numbered)

include hc hg in
/-- A completed item without extent has a nullable left-hand side. -/
theorem Valid.nullable_lhs {id : ItemId} {item : Item} (hitem : c.item? id = some item)
    (hend : g.next? item.rule item.dot = none) (h : g.NullableUpTo item.rule item.dot) :
    g.nullable (g.lhs item.rule) = true := by
  obtain ⟨r, hr, -⟩ := (hc.item id item hitem).dot
  have hfull : r.rhs.take item.dot = r.rhs := by
    refine List.take_of_length_le ?_
    simpa [Grammar.next?, hr] using hend
  rw [Grammar.lhs, hr]
  exact g.nullable_of_rule hg r (Array.mem_of_getElem? hr) (hfull ▸ h r hr)

include hc hg in
/-- The symbols before the dot of an item without extent derive nothing. The
first link leads to older items without extent. -/
theorem Valid.nullableUpTo {id : ItemId} {item : Item} (hitem : c.item? id = some item)
    (hextent : item.origin = id.column) : g.NullableUpTo item.rule item.dot := by
  induction id using ItemId.wellFounded_before.induction generalizing item with
  | _ id ih =>
  have hfits := hc.item id item hitem
  intro r hr s hs
  cases hlinks : item.links with
  | nil =>
      rw [(hfits.links.mp hlinks).1, List.take_zero] at hs
      contradiction
  | cons link links =>
      obtain ⟨holder, holder'⟩ := hfits.first link (by rw [hlinks, List.head?_cons])
      rcases (hfits.shape link (by simp [hlinks])).token_or_completed with
        ⟨-, hcolumn, left, hleft, -, horigin⟩ |
        ⟨other, left, right, hsome, hleft, hright, hcolumn, hother, hkey, hnext, hend⟩
      · have := (hc.item link.left left hleft).origin
        have : item.origin = left.origin := horigin
        omega
      · have hleft' := (hc.item link.left left hleft).origin
        have hright' := (hc.item other right hright).origin
        obtain ⟨hrule, hdot, horigin⟩ := Item.key_eq_iff.mp hkey
        have hbefore := ih link.left holder hleft (by omega)
        have hlhs := hc.nullable_lhs hg hright hend
          (ih other (holder' other hsome) hright (by omega))
        rw [hrule] at hr
        rw [hdot, List.take_add_one, List.mem_append, Option.mem_toList] at hs
        rcases hs with hs | hs
        · exact hbefore r hr s hs
        · obtain rfl : g.lhs right.rule = s := by
            simpa [Grammar.next?, hr, hs, eq_comm] using hnext
          exact hlhs

/-- What is below an item of the same extent is the item before a nullable
symbol, or a completed item of a symbol with nothing but nullable ones before it. -/
inductive Within (g : Grammar) (child parent : Item) : Prop
  | shorter (hrule : child.rule = parent.rule) (hdot : child.dot + 1 = parent.dot)
      (hnullable : g.NullableFrom parent.rule parent.dot →
        g.NullableFrom child.rule child.dot)
  | inner (hend : g.NullableFrom child.rule child.dot)
      (hunit : g.NullableFrom parent.rule parent.dot →
        g.UnitStep (g.lhs parent.rule) (g.lhs child.rule))

include hc hg in
theorem Under.sameExtent {a b : ItemId} {child parent : Item} (h : c.Under a b)
    (hchild : c.item? a = some child) (hparent : c.item? b = some parent)
    (horigin : child.origin = parent.origin) (hcolumn : a.column = b.column) :
    Within g child parent := by
  obtain ⟨item, link, hitem, hlink, hends⟩ := h
  obtain rfl := Option.some.inj (hparent.symm.trans hitem)
  rcases ((hc.item b parent hparent).shape link hlink).token_or_completed with
    ⟨hnone, hbefore, -⟩ |
    ⟨other, left, right, hsome, hleft, hright, hmeet, hother, hkey, hnext, hend⟩
  · rw [hnone] at hends
    obtain rfl := hends.resolve_right (by simp)
    omega
  · obtain ⟨hrule, hdot, horigin'⟩ := Item.key_eq_iff.mp hkey
    obtain ⟨r, hr, hsymbol⟩ := Option.bind_eq_some_iff.mp hnext
    obtain ⟨hlt, hget⟩ := List.getElem?_eq_some_iff.mp hsymbol
    have hsplit : r.rhs.drop left.dot = g.lhs right.rule :: r.rhs.drop (left.dot + 1) := by
      rw [List.drop_eq_getElem_cons hlt, hget]
    rcases hends with rfl | hends
    · obtain rfl := Option.some.inj (hleft.symm.trans hchild)
      have hnullable := hc.nullable_lhs hg hright hend
        (hc.nullableUpTo hg hright (by omega))
      refine .shorter hrule.symm hdot.symm fun hafter r' hr' s hs => ?_
      obtain rfl := Option.some.inj (hr.symm.trans hr')
      rw [hsplit] at hs
      rcases List.mem_cons.mp hs with rfl | hs
      · exact hnullable
      · exact hafter r (by rw [hrule, hr]) s (by rwa [hdot])
    · obtain rfl := Option.some.inj (hsome.symm.trans hends)
      obtain rfl := Option.some.inj (hright.symm.trans hchild)
      have hbefore := hc.nullableUpTo hg hleft (by omega)
      obtain ⟨r', hr', -⟩ := (hc.item other right hright).dot
      have hnonterminal := g.lhs_nonterminal hg right.rule 0 ⟨r', hr', Nat.zero_le _⟩
      refine .inner ?_ fun hafter => ?_
      · intro r'' hr'' s hs
        obtain rfl := Option.some.inj (hr'.symm.trans hr'')
        rw [List.drop_eq_nil_of_le (by simpa [Grammar.next?, hr'] using hend)] at hs
        contradiction
      · refine ⟨r, Array.mem_of_getElem? hr, ?_, r.rhs.take left.dot,
          r.rhs.drop (left.dot + 1), ?_, hnonterminal, hbefore r hr, ?_⟩
        · rw [Grammar.lhs, hrule, hr, Option.elim_some]
        · rw [← hsplit, List.take_append_drop]
        · exact hdot ▸ hafter r (by rw [hrule, hr])

end Valid

section acyclic

variable {g : Grammar} (hg : g.Numbered) {c : Chart} (hc : c.Valid g)

/-- What decreases from an item to what is below it: its extent, then whether
something may follow the dot, the rank of its left-hand side, and its dot. -/
noncomputable def weight (g : Grammar) (c : Chart) (rank : SymbolId → Nat) (id : ItemId) :
    Nat ×ₗ Nat ×ₗ Nat ×ₗ Nat :=
  open Classical in
  (c.item? id).elim (toLex (0, toLex (0, toLex (0, 0)))) fun item =>
    toLex (id.column - item.origin, toLex (if g.NullableFrom item.rule item.dot then 0 else 1,
      toLex (rank (g.lhs item.rule), item.dot)))

include hg hc in
theorem Under.weight_lt {rank : SymbolId → Nat} {a b : ItemId} (h : c.Under a b)
    (hrank : ∀ item, c.item? b = some item → g.NullableFrom item.rule item.dot →
      ∀ symbol, g.UnitStep (g.lhs item.rule) symbol → rank symbol < rank (g.lhs item.rule)) :
    c.weight g rank a < c.weight g rank b := by
  obtain ⟨parent, -, hparent, -⟩ := id h
  obtain ⟨child, hchild, horigin, hcolumn⟩ := h.within hc hparent
  have hfits := (hc.item a child hchild).origin
  simp only [weight, hchild, hparent, Option.elim_some, Prod.Lex.toLex_lt_toLex]
  by_cases hextent : a.column - child.origin < b.column - parent.origin
  · exact .inl hextent
  refine .inr ⟨by omega, ?_⟩
  cases h.sameExtent hc hg hchild hparent (by omega) (by omega) with
  | shorter hrule hdot hnullable =>
      by_cases hafter : g.NullableFrom parent.rule parent.dot
      · rw [if_pos hafter, if_pos (hnullable hafter), hrule]
        exact .inr ⟨rfl, .inr ⟨rfl, by omega⟩⟩
      · rw [if_neg hafter]
        split
        · exact .inl Nat.zero_lt_one
        · exact .inr ⟨rfl, .inr ⟨by rw [hrule], by omega⟩⟩
  | inner hend hunit =>
      rw [if_pos hend]
      by_cases hafter : g.NullableFrom parent.rule parent.dot
      · rw [if_pos hafter]
        exact .inr ⟨rfl, .inl (hrank parent hparent hafter _ (hunit hafter))⟩
      · rw [if_neg hafter]
        exact .inl Nat.zero_lt_one

include hg hc in
/-- Among the items for which the symbols that may stand alone do not derive
themselves, none is below itself. -/
theorem wellFounded_under (P : SymbolId → Prop)
    (hacyclic : ∀ a, P a → ¬ Relation.TransGen g.UnitStep a a) :
    WellFounded fun a b => c.Under a b ∧ ∀ item, c.item? b = some item →
      g.NullableFrom item.rule item.dot → P (g.lhs item.rule) := by
  have hP : ∀ {a b}, Relation.TransGen (fun a b => g.UnitStep a b ∧ P a) a b →
      P a ∧ Relation.TransGen g.UnitStep a b := by
    intro a b h
    induction h with
    | single h => exact ⟨h.2, .single h.1⟩
    | tail _ hstep ih => exact ⟨ih.1, ih.2.tail hstep.1⟩
  have hbound : ∀ a b, g.UnitStep a b ∧ P a → b ≤ g.symbolCount := fun a b h =>
    ((g.isNonterminal_iff b).mp h.1.nonterminal).2
  obtain ⟨rank, hrank⟩ := Grammar.exists_rank g.symbolCount hbound
    fun a h => hacyclic a (hP h).1 (hP h).2
  refine Subrelation.wf ?_ (InvImage.wf (c.weight g rank) wellFounded_lt)
  intro a b ⟨hunder, hb⟩
  exact hunder.weight_lt hg hc fun item hitem hafter symbol hstep =>
    hrank _ symbol ⟨hstep, hb item hitem hafter⟩

end acyclic

end Chart

namespace Chart

def First (c : Chart) (a b : ItemId) : Prop :=
  ∃ item link, c.item? b = some item ∧ item.links.head? = some link ∧
    (link.left = a ∨ link.right = some a)

def Flat (c : Chart) (id : ItemId) : Prop :=
  ∃ item, c.item? id = some item ∧ item.origin = id.column

variable {g : Grammar} {c : Chart}

theorem First.under {a b : ItemId} (h : c.First a b) : c.Under a b := by
  obtain ⟨item, link, hitem, hlink, hends⟩ := h
  exact ⟨item, link, hitem, List.mem_of_mem_head? hlink, hends⟩

section Valid

variable (hc : c.Valid g)

include hc in
theorem First.before {a b : ItemId} (h : c.First a b) : a.Before b := by
  obtain ⟨item, link, hitem, hlink, hends⟩ := h
  obtain ⟨hleft, hright⟩ := (hc.item b item hitem).first link hlink
  exact hends.elim (fun heq => heq ▸ hleft) (hright a)

include hc in
/-- The first derivation of what the first link leads to does not come back. -/
theorem First.not_back {a b : ItemId} (h : c.First a b) : ¬ Relation.ReflTransGen c.First b a := by
  intro hback
  have hcycle : Relation.TransGen c.First b b := .tail' hback h
  have := ItemId.wellFounded_before.transGen.irrefl
  exact this.irrefl b (Relation.TransGen.mono (fun _ _ h => h.before hc) _ _ hcycle)

include hc in
theorem Under.extent {a b : ItemId} {parent : Item}
    (h : Relation.ReflTransGen c.Under a b) (hparent : c.item? b = some parent) :
    ∃ child, c.item? a = some child ∧ parent.origin ≤ child.origin ∧ a.column ≤ b.column := by
  induction h using Relation.ReflTransGen.head_induction_on with
  | refl => exact ⟨parent, hparent, Nat.le_refl _, Nat.le_refl _⟩
  | head hstep _ ih =>
      obtain ⟨mid, hmid, horigin, hcolumn⟩ := ih
      obtain ⟨child, hchild, horigin', hcolumn'⟩ := hstep.within hc hmid
      exact ⟨child, hchild, by omega, by omega⟩

include hc in
theorem Flat.below {a b : ItemId} (hb : c.Flat b) (h : Relation.ReflTransGen c.Under a b) :
    c.Flat a := by
  obtain ⟨parent, hparent, hflat⟩ := hb
  obtain ⟨child, hchild, horigin, hcolumn⟩ := Under.extent hc h hparent
  have := (hc.item a child hchild).origin
  exact ⟨child, hchild, by omega⟩

include hc in
/-- What both ends of a link lead to has no extent. -/
theorem flat_of_shared {id a : ItemId} {item : Item} {link : Link} {other : ItemId}
    (hitem : c.item? id = some item) (hlink : link ∈ item.links) (hother : link.right = some other)
    (hleft : Relation.ReflTransGen c.Under a link.left)
    (hright : Relation.ReflTransGen c.Under a other) : c.Flat a := by
  rcases ((hc.item id item hitem).shape link hlink).token_or_completed with
    ⟨hnone, -⟩ | ⟨other', left, right, hsome, hleft', hright', hmeet, -⟩
  · rw [hnone] at hother
    contradiction
  · obtain rfl := Option.some.inj (hother.symm.trans hsome)
    obtain ⟨first, hfirst, -, hcolumn⟩ := Under.extent hc hleft hleft'
    obtain ⟨second, hsecond, horigin, -⟩ := Under.extent hc hright hright'
    obtain rfl := Option.some.inj (hfirst.symm.trans hsecond)
    have := (hc.item a first hfirst).origin
    exact ⟨first, hfirst, by omega⟩

/-- Where no nullable symbol derives itself, an item without extent is not below
itself. -/
theorem Valid.not_under_of_flat (hc : c.Valid g) (hg : g.Numbered)
    (hacyclic : ∀ a, g.nullable a = true → ¬ Relation.TransGen g.UnitStep a a) {id : ItemId}
    (hflat : c.Flat id) : ¬ Relation.TransGen c.Under id id := by
  have hwell := wellFounded_under hg hc (fun a => g.nullable a = true) hacyclic
  have hnullable : ∀ b, c.Flat b → ∀ item, c.item? b = some item →
      g.NullableFrom item.rule item.dot → g.nullable (g.lhs item.rule) = true := by
    rintro b ⟨item, hitem, hextent⟩ other hother hfrom
    obtain rfl := Option.some.inj (hitem.symm.trans hother)
    obtain ⟨r, hr, -⟩ := (hc.item b item hitem).dot
    rw [Grammar.lhs, hr]
    refine g.nullable_of_rule hg r (Array.mem_of_getElem? hr) fun s hs => ?_
    rw [← List.take_append_drop item.dot r.rhs, List.mem_append] at hs
    exact hs.elim (hc.nullableUpTo hg hitem hextent r hr s) (hfrom r hr s)
  intro hcycle
  refine hwell.transGen.irrefl.irrefl id ?_
  have hlift : ∀ {a b}, Relation.TransGen c.Under a b → c.Flat b → Relation.TransGen
      (fun a b => c.Under a b ∧ ∀ item, c.item? b = some item →
        g.NullableFrom item.rule item.dot → g.nullable (g.lhs item.rule) = true) a b := by
    intro a b h hb
    induction h using Relation.TransGen.head_induction_on with
    | single hstep => exact .single ⟨hstep, hnullable _ hb⟩
    | head hstep hrest ih =>
        exact .head ⟨hstep, hnullable _ (hb.below hc hrest.to_reflTransGen)⟩ ih
  exact hlift hcycle hflat

end Valid

end Chart
end EarleyChart
