import EarleyChart.Forest.Build
import Mathlib.Data.List.ProdSigma
import Mathlib.Data.Set.Card

/-!
Lists of some members of a set without repetition, as many as there are up to a
limit. They are built from one another as the set is built from other sets, and
where the limit suffices they have all members.
-/

namespace EarleyChart

/-- A product of bounded factors, itself bounded by no more than they are. -/
theorem min_mul_min {room limit : Nat} (h : room ≤ limit) (a b : Nat) :
    min room (min limit a * min limit b) = min room (a * b) := by
  have hlarge : ∀ a b, limit ≤ a → min room (limit * min limit b) = min room (a * b) := by
    intro a b ha
    rcases Nat.eq_zero_or_pos b with rfl | hb
    · simp
    rcases Nat.eq_zero_or_pos limit with rfl | hlimit
    · obtain rfl := Nat.le_zero.mp h
      simp
    have hfirst : limit ≤ limit * min limit b := Nat.le_mul_of_pos_right _ (by omega)
    have hsecond : a ≤ a * b := Nat.le_mul_of_pos_right _ hb
    omega
  rcases Nat.le_total limit a with ha | ha
  · rw [Nat.min_eq_left ha, hlarge a b ha]
  rcases Nat.le_total limit b with hb | hb
  · rw [Nat.mul_comm, Nat.mul_comm a, Nat.min_eq_left hb, hlarge b a hb]
  · rw [Nat.min_eq_right ha, Nat.min_eq_right hb]

/-- As many members of a set as there are, up to a limit, each once. -/
structure Selection {α : Type} (limit : Nat) (chosen : List α) (all : Set α) : Prop where
  nodup : chosen.Nodup
  mem : ∀ a ∈ chosen, a ∈ all
  length : chosen.length = min limit all.ncard

namespace Selection

variable {α β : Type} {limit : Nat} {chosen : List α} {all : Set α}

theorem empty (limit : Nat) : Selection limit [] (∅ : Set α) :=
  ⟨.nil, by simp, by simp⟩

theorem zero (all : Set α) : Selection 0 [] all := ⟨.nil, by simp, by simp⟩

theorem singleton (hlimit : 0 < limit) (a : α) : Selection limit [a] {a} :=
  ⟨by simp, by simp, by
    rw [Set.ncard_singleton, List.length_singleton]
    omega⟩

theorem map {f : α → β} (hf : Function.Injective f) (h : Selection limit chosen all) :
    Selection limit (chosen.map f) (f '' all) where
  nodup := h.nodup.map hf
  mem := by
    intro b hb
    obtain ⟨a, ha, rfl⟩ := List.mem_map.mp hb
    exact ⟨a, h.mem a ha, rfl⟩
  length := by rw [List.length_map, h.length, Set.ncard_image_of_injective _ hf]

/-- A lower limit cuts the list short. -/
theorem take {room : Nat} (hroom : room ≤ limit) (h : Selection limit chosen all) :
    Selection room (chosen.take room) all where
  nodup := h.nodup.sublist (List.take_sublist _ _)
  mem a ha := h.mem a (List.mem_of_mem_take ha)
  length := by
    rw [List.length_take, h.length]
    omega

theorem product {room : Nat} (hroom : room ≤ limit) {others : List β} {rest : Set β}
    (h : Selection limit chosen all) (hothers : Selection limit others rest) :
    Selection room ((chosen ×ˢ others).take room) (all ×ˢ rest) where
  nodup := (h.nodup.product hothers.nodup).sublist (List.take_sublist _ _)
  mem := by
    rintro ⟨a, b⟩ hmem
    obtain ⟨ha, hb⟩ := List.pair_mem_product.mp (List.mem_of_mem_take hmem)
    exact ⟨h.mem a ha, hothers.mem b hb⟩
  length := by
    rw [List.length_take, List.length_product, h.length, hothers.length, Set.ncard_prod,
      min_mul_min hroom]

/-- Members of another set fill the room that is left. -/
theorem append {others : List α} {rest : Set α} (hall : all.Finite) (hrest : rest.Finite)
    (hdisjoint : ∀ a ∈ all, a ∉ rest) (h : Selection limit chosen all)
    (hothers : Selection (limit - chosen.length) others rest) :
    Selection limit (chosen ++ others) (all ∪ rest) where
  nodup := List.nodup_append.mpr ⟨h.nodup, hothers.nodup, fun a ha b hb heq =>
    hdisjoint a (h.mem a ha) (heq ▸ hothers.mem b hb)⟩
  mem a ha := (List.mem_append.mp ha).imp (h.mem a) (hothers.mem a)
  length := by
    rw [List.length_append, hothers.length, h.length,
      Set.ncard_union_eq (Set.disjoint_left.mpr hdisjoint) hall hrest]
    omega

/-- A full list is one of a larger set too. -/
theorem grow {larger : Set α} (hfinite : larger.Finite) (hsubset : all ⊆ larger)
    (hfull : limit ≤ chosen.length) (h : Selection limit chosen all) :
    Selection limit chosen larger where
  nodup := h.nodup
  mem a ha := hsubset (h.mem a ha)
  length := by
    have hle := Set.ncard_le_ncard hsubset hfinite
    have hlength := h.length
    omega

/-- Within the limit nothing is left out. -/
theorem mem_of_le (hfinite : all.Finite) (hlimit : all.ncard ≤ limit)
    (h : Selection limit chosen all) {a : α} (ha : a ∈ all) : a ∈ chosen := by
  classical
  have hsubset : (chosen.toFinset : Set α) ⊆ all := fun b hb =>
    h.mem b (List.mem_toFinset.mp hb)
  have hcard : all.ncard ≤ (chosen.toFinset : Set α).ncard := by
    rw [Set.ncard_coe_finset, List.toFinset_card_of_nodup h.nodup, h.length]
    omega
  rw [← Set.eq_of_subset_of_ncard_le hsubset hcard hfinite] at ha
  exact List.mem_toFinset.mp ha

end Selection

/-- Extending is pairing, up to the number of results. -/
theorem extendSequences_eq (children : List ParseTree) (room : Nat)
    (sequences : List (List ParseTree)) : extendSequences children room sequences =
      ((sequences ×ˢ children).take room).map fun pair => pair.1 ++ [pair.2] := by
  induction sequences generalizing room with
  | nil => simp [extendSequences]
  | cons sequence rest ih =>
      have hfirst : (children.take room).map (fun child => sequence ++ [child]) =
          ((children.map (Prod.mk sequence)).take room).map fun pair => pair.1 ++ [pair.2] := by
        rw [← List.map_take, List.map_map]
        rfl
      rw [extendSequences, List.product_cons, List.take_append, List.map_append,
        List.length_map, ← ih, ← hfirst]
      split
      · next hroom =>
          rw [ih, Nat.sub_eq_zero_of_le hroom, List.take_zero, List.map_nil, List.append_nil]
      · rfl

end EarleyChart
