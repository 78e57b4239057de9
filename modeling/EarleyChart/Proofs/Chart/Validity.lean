import EarleyChart.Proofs.Chart.Candidates
import EarleyChart.Proofs.Chart.Insertion
import EarleyChart.Proofs.Chart.Opening

/-!
Well-formed items and links. A link names an item of the right shape: before a
token in the column before, before a completed item in the column where that
one began. The first link of an item names older items only. A candidate whose
link is of the right shape keeps all this when it enters.
-/

namespace EarleyChart

/-- One position is older than another: in an earlier column, or before it in
the same column. -/
def ItemId.Before (a b : ItemId) : Prop :=
  a.column < b.column ∨ a.column = b.column ∧ a.seq < b.seq

namespace Chart

def terminal? (g : Grammar) (c : Chart) (column : Nat) : Option SymbolId :=
  (c.token? column).bind fun token => g.terminalForKind? token.kind

/-- A link leads to an item with an identity in a column. -/
inductive LinkFits (g : Grammar) (c : Chart) (key : ItemKey) (column : Nat) : Link → Prop
  | scanned (id : ItemId) (left : Item) (terminal : SymbolId)
      (hleft : c.item? id = some left) (hcolumn : id.column + 1 = column)
      (hkey : key = ⟨left.rule, left.dot + 1, left.origin⟩)
      (hnext : g.next? left.rule left.dot = some terminal)
      (htoken : c.terminal? g column = some terminal) :
      LinkFits g c key column ⟨.scanned, id, none⟩
  | substituted (id : ItemId) (left : Item) (terminal : SymbolId) (token : Token)
      (hleft : c.item? id = some left) (hcolumn : id.column + 1 = column)
      (hkey : key = ⟨left.rule, left.dot + 1, left.origin⟩)
      (hnext : g.next? left.rule left.dot = some terminal)
      (hterminal : g.isTerminal terminal = true) (htoken : c.token? column = some token)
      (hother : g.terminalForKind? token.kind ≠ some terminal) :
      LinkFits g c key column ⟨.substituted, id, none⟩
  | deleted (id : ItemId) (left : Item) (terminal : SymbolId) (token : Token)
      (hleft : c.item? id = some left) (hcolumn : id.column + 1 = column)
      (hkey : key = left.key) (hnext : g.next? left.rule left.dot = some terminal)
      (hterminal : g.isTerminal terminal = true) (htoken : c.token? column = some token) :
      LinkFits g c key column ⟨.deleted, id, none⟩
  | completed (id other : ItemId) (left right : Item) (hleft : c.item? id = some left)
      (hright : c.item? other = some right) (hcolumn : id.column = right.origin)
      (hother : other.column = column)
      (hkey : key = ⟨left.rule, left.dot + 1, left.origin⟩)
      (hnext : g.next? left.rule left.dot = some (g.lhs right.rule))
      (hend : g.next? right.rule right.dot = none) :
      LinkFits g c key column ⟨.completed, id, some other⟩

structure ItemFits (g : Grammar) (c : Chart) (id : ItemId) (item : Item) : Prop where
  dot : g.HasDot item.rule item.dot
  origin : item.origin ≤ id.column
  cost : item.errorCost ≤ maxCost
  links : item.links = [] ↔ item.dot = 0 ∧ item.origin = id.column
  nodup : item.links.Nodup
  shape : ∀ link ∈ item.links, c.LinkFits g item.key id.column link
  first : ∀ link, item.links.head? = some link →
    link.left.Before id ∧ ∀ right, link.right = some right → right.Before id

/-- The tables agree and all items are well formed. -/
structure Valid (g : Grammar) (c : Chart) : Prop where
  filed : c.Filed g
  item : ∀ id item, c.item? id = some item → c.ItemFits g id item

structure Fits (g : Grammar) (c : Chart) (new : Candidate) : Prop where
  dot : g.HasDot new.rule new.dot
  origin : new.origin ≤ c.current
  cost : new.errorCost ≤ maxCost
  seed : new.link = none → new.dot = 0 ∧ new.origin = c.current
  link : ∀ link, new.link = some link → c.LinkFits g new.key c.current link

/-- Items stay where they are under their identity; their costs only fall and
links are only added at the end. Tokens stay too. -/
structure Grows (c c' : Chart) : Prop where
  item : ∀ id item, c.item? id = some item → ∃ item', c'.item? id = some item' ∧
    item'.key = item.key ∧ item'.errorCost ≤ item.errorCost ∧ item.links <+: item'.links
  token : ∀ i token, c.token? i = some token → c'.token? i = some token

theorem Grows.refl (c : Chart) : c.Grows c :=
  ⟨fun _ item h => ⟨item, h, rfl, Nat.le_refl _, List.prefix_refl _⟩, fun _ _ h => h⟩

theorem Grows.trans {a b c : Chart} (h : a.Grows b) (k : b.Grows c) : a.Grows c := by
  refine ⟨fun id item hitem => ?_, fun i token ht => k.token i token (h.token i token ht)⟩
  obtain ⟨next, hnext, hkey, hcost, hlinks⟩ := h.item id item hitem
  obtain ⟨last, hlast, hkey', hcost', hlinks'⟩ := k.item id next hnext
  exact ⟨last, hlast, hkey'.trans hkey, Nat.le_trans hcost' hcost, hlinks.trans hlinks'⟩

theorem Grows.of_items {c c' : Chart} (h : ∀ id item, c.item? id = some item →
    c'.item? id = some item) (ht : ∀ i token, c.token? i = some token →
    c'.token? i = some token) : c.Grows c' :=
  ⟨fun id item hitem => ⟨item, h id item hitem, rfl, Nat.le_refl _, List.prefix_refl _⟩, ht⟩

theorem LinkFits.grows {g : Grammar} {c c' : Chart} {key : ItemKey} {k : Nat} {link : Link}
    (h : c.LinkFits g key k link) (hc : c.Grows c') : c'.LinkFits g key k link := by
  cases h with
  | scanned id left terminal hleft hcolumn hkey hnext htoken =>
      obtain ⟨left', hleft', hsame, -⟩ := hc.item id left hleft
      obtain ⟨hrule, hdot, horigin⟩ := Item.key_eq_iff.mp hsame
      obtain ⟨token, ht, hkind⟩ := Option.bind_eq_some_iff.mp htoken
      exact .scanned id left' terminal hleft' hcolumn (by rw [hkey, hrule, hdot, horigin])
        (by rw [hrule, hdot, hnext])
        (Option.bind_eq_some_iff.mpr ⟨token, hc.token k token ht, hkind⟩)
  | substituted id left terminal token hleft hcolumn hkey hnext hterminal htoken hother =>
      obtain ⟨left', hleft', hsame, -⟩ := hc.item id left hleft
      obtain ⟨hrule, hdot, horigin⟩ := Item.key_eq_iff.mp hsame
      exact .substituted id left' terminal token hleft' hcolumn
        (by rw [hkey, hrule, hdot, horigin]) (by rw [hrule, hdot, hnext]) hterminal
        (hc.token k token htoken) hother
  | deleted id left terminal token hleft hcolumn hkey hnext hterminal htoken =>
      obtain ⟨left', hleft', hsame, -⟩ := hc.item id left hleft
      obtain ⟨hrule, hdot, -⟩ := Item.key_eq_iff.mp hsame
      exact .deleted id left' terminal token hleft' hcolumn (hkey.trans hsame.symm)
        (by rw [hrule, hdot, hnext]) hterminal (hc.token k token htoken)
  | completed id other left right hleft hright hcolumn hother hkey hnext hend =>
      obtain ⟨left', hleft', hsame, -⟩ := hc.item id left hleft
      obtain ⟨hrule, hdot, horigin⟩ := Item.key_eq_iff.mp hsame
      obtain ⟨right', hright', hsame', -⟩ := hc.item other right hright
      obtain ⟨hrule', hdot', horigin'⟩ := Item.key_eq_iff.mp hsame'
      exact .completed id other left' right' hleft' hright' (by rw [hcolumn, horigin']) hother
        (by rw [hkey, hrule, hdot, horigin]) (by rw [hrule, hdot, hrule', hnext])
        (by rw [hrule', hdot', hend])

theorem ItemFits.grows {g : Grammar} {c c' : Chart} {id : ItemId} {item : Item}
    (h : c.ItemFits g id item) (hc : c.Grows c') : c'.ItemFits g id item :=
  { h with shape := fun link hlink => (h.shape link hlink).grows hc }

theorem Fits.grows {g : Grammar} {c c' : Chart} {new : Candidate} (h : c.Fits g new)
    (hc : c.Grows c') (hcurrent : c'.current = c.current) : c'.Fits g new where
  dot := h.dot
  origin := hcurrent ▸ h.origin
  cost := h.cost
  seed := hcurrent ▸ h.seed
  link link hlink := hcurrent ▸ (h.link link hlink).grows hc

/-- A completed item is told by its rule, its origin and its column. -/
theorem Valid.completed_unique {g : Grammar} {c : Chart} (hc : c.Valid g) {a b : ItemId}
    {first second : Item} (ha : c.item? a = some first) (hb : c.item? b = some second)
    (hend : g.next? first.rule first.dot = none) (hend' : g.next? second.rule second.dot = none)
    (hrule : first.rule = second.rule) (horigin : first.origin = second.origin)
    (hcolumn : a.column = b.column) : a = b := by
  obtain ⟨r, hr, hdot⟩ := Grammar.dot_of_end (hc.item a first ha).dot hend
  obtain ⟨r', hr', hdot'⟩ := Grammar.dot_of_end (hc.item b second hb).dot hend'
  rw [← hrule] at hr'
  obtain rfl := Option.some.inj (hr.symm.trans hr')
  have hkey : first.key = second.key :=
    Item.key_eq_iff.mpr ⟨hrule, hdot.trans hdot'.symm, horigin⟩
  exact (c.item_unique g hc.filed a b first second ha hb hcolumn hkey).1

/-- An item that a link leads to is not a seed of its column. -/
theorem LinkFits.not_seed {g : Grammar} {c : Chart} {key : ItemKey} {k : Nat} {link : Link}
    (h : c.LinkFits g key k link)
    (hc : ∀ id item, c.item? id = some item → c.ItemFits g id item) :
    ¬ (key.dot = 0 ∧ key.origin = k) := by
  cases h with
  | scanned id left _ _ _ hkey _ _ => simp [hkey]
  | substituted id left _ _ _ _ hkey _ _ _ _ => simp [hkey]
  | deleted id left _ _ hleft hcolumn hkey _ _ _ =>
      have := (hc id left hleft).origin
      rintro ⟨-, horigin⟩
      rw [hkey, Item.key] at horigin
      simp only at horigin
      omega
  | completed id other left right _ _ _ _ hkey _ _ => simp [hkey]

theorem Fits.link_iff {g : Grammar} {c : Chart} {new : Candidate} (h : c.Fits g new)
    (hc : c.Valid g) : new.link = none ↔ new.dot = 0 ∧ new.origin = c.current := by
  refine ⟨h.seed, fun hseed => ?_⟩
  cases hlink : new.link with
  | none => rfl
  | some link => exact absurd hseed ((h.link link hlink).not_seed hc.item)

/-- All items are older than the place where the next one is created. -/
theorem before_fresh (g : Grammar) (c : Chart) (hc : c.Filed g) (id : ItemId) (item : Item)
    (h : c.item? id = some item) : id.Before ⟨c.current, c.newestSize⟩ := by
  rcases Nat.lt_or_eq_of_le (c.column_lt id item h) with hlt | heq
  · exact .inl hlt
  · refine .inr ⟨heq, (c.newest_isSome_iff g hc id.seq).mp ?_⟩
    rw [← heq]
    simp [h]

/-- Both ends of a link are items of the chart. -/
theorem LinkFits.ends {g : Grammar} {c : Chart} {key : ItemKey} {k : Nat} {link : Link}
    (h : c.LinkFits g key k link) : (∃ left, c.item? link.left = some left) ∧
      ∀ right, link.right = some right → ∃ last, c.item? right = some last := by
  cases h with
  | scanned id left _ hleft | substituted id left _ _ hleft | deleted id left _ _ hleft =>
      exact ⟨⟨left, hleft⟩, by simp⟩
  | completed id other left right hleft hright =>
      refine ⟨⟨left, hleft⟩, ?_⟩
      rintro _ ⟨⟩
      exact ⟨right, hright⟩

theorem LinkFits.older {g : Grammar} {c : Chart} {key : ItemKey} {k : Nat} {link : Link}
    (h : c.LinkFits g key k link) (hc : c.Filed g) :
    link.left.Before ⟨c.current, c.newestSize⟩ ∧
      ∀ right, link.right = some right → right.Before ⟨c.current, c.newestSize⟩ := by
  cases h with
  | scanned id left _ hleft => exact ⟨before_fresh g c hc id left hleft, by simp⟩
  | substituted id left _ _ hleft => exact ⟨before_fresh g c hc id left hleft, by simp⟩
  | deleted id left _ _ hleft => exact ⟨before_fresh g c hc id left hleft, by simp⟩
  | completed id other left right hleft hright =>
      refine ⟨before_fresh g c hc id left hleft, ?_⟩
      rintro _ ⟨⟩
      exact before_fresh g c hc other right hright

end Chart
end EarleyChart
