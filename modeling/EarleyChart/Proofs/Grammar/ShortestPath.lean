import EarleyChart.Proofs.Grammar.UnitStep
import Mathlib.Data.List.Chain

/-!
What the search for a way back finds. A walk starts at the root and goes from
each symbol to one of its successors. The paths of a frontier are walks that all
have the same length, and whatever a walk no longer than they are leads to is
visited. A target that was not visited so far is therefore at the end of no
shorter walk, and the path that meets it is a shortest one.
-/

namespace EarleyChart
namespace Grammar

/-- A list of symbols that starts at the root, each a successor of the one before. -/
structure Walk (successors : SymbolId → List SymbolId) (root : SymbolId)
    (path : List SymbolId) : Prop where
  head : path.head? = some root
  chain : path.IsChain fun a b => b ∈ successors a

structure LeadsTo (successors : SymbolId → List SymbolId) (root target : SymbolId)
    (path : List SymbolId) : Prop extends Walk successors root path where
  leaves : 2 ≤ path.length
  last : path.getLast? = some target

section Walk

variable {successors : SymbolId → List SymbolId} {root target : SymbolId}

theorem walk_root : Walk successors root [root] := ⟨rfl, .singleton root⟩

theorem Walk.ne_nil {path : List SymbolId} (h : Walk successors root path) : path ≠ [] := by
  rintro rfl
  exact absurd h.head (by simp)

theorem walk_concat {front : List SymbolId} {b : SymbolId} (hfront : front ≠ []) :
    Walk successors root (front ++ [b]) ↔
      Walk successors root front ∧ b ∈ successors (pathEnd front) := by
  have hlast : front.getLast? = some (pathEnd front) := by
    rw [pathEnd, List.getLast?_eq_some_getLast hfront, Option.getD_some]
  constructor
  · rintro ⟨hhead, hchain⟩
    obtain ⟨hinit, -, hstep⟩ := List.isChain_append.mp hchain
    exact ⟨⟨by rwa [List.head?_append_of_ne_nil _ hfront] at hhead, hinit⟩,
      hstep _ hlast b rfl⟩
  · rintro ⟨⟨hhead, hchain⟩, hb⟩
    refine ⟨by rwa [List.head?_append_of_ne_nil _ hfront], ?_⟩
    refine hchain.append (.singleton b) fun a ha c hc => ?_
    rw [hlast, Option.mem_some_iff] at ha
    rw [List.head?_cons, Option.mem_some_iff] at hc
    rwa [← ha, ← hc]

/-- A walk that leaves the root is one that is shorter by a step, and that step. -/
theorem Walk.split {path : List SymbolId} (h : Walk successors root path)
    (hleaves : 2 ≤ path.length) :
    ∃ front b, path = front ++ [b] ∧ Walk successors root front ∧
      b ∈ successors (pathEnd front) := by
  obtain rfl | ⟨front, b, rfl⟩ := List.eq_nil_or_concat' path
  · simp at hleaves
  · have hfront : front ≠ [] := by
      rintro rfl
      simp at hleaves
    exact ⟨front, b, rfl, (walk_concat hfront).mp h⟩

theorem Walk.pathEnd_of_length {path : List SymbolId} (h : Walk successors root path)
    (hlength : path.length < 2) : pathEnd path = root := by
  match path, h.head with
  | [a], hhead => simpa [pathEnd] using hhead
  | _ :: _ :: _, _ =>
      simp only [List.length_cons] at hlength
      omega

end Walk

/-- The paths of a frontier are walks of one length, and the ends of all walks up
to that length are visited. -/
structure Abreast (successors : SymbolId → List SymbolId) (root : SymbolId) (size : Nat)
    (visited : List SymbolId) (frontier : List (List SymbolId)) : Prop where
  walk : ∀ path ∈ frontier, Walk successors root path
  length : ∀ path ∈ frontier, path.length = size
  near : ∀ path, Walk successors root path → 2 ≤ path.length → path.length ≤ size →
    pathEnd path ∈ visited

section Search

variable {successors : SymbolId → List SymbolId} {root target : SymbolId} {size : Nat}
  {symbols visited : List SymbolId} {frontier : List (List SymbolId)}

theorem abreast_root : Abreast successors root 1 [] [[root]] where
  walk := by simpa using walk_root
  length := by simp
  near := fun path _ hleaves hnear => by omega

theorem Abreast.lengthened (h : Abreast successors root size visited frontier)
    {path : List SymbolId} (hpath : path ∈ lengthened successors frontier) :
    Walk successors root path ∧ path.length = size + 1 := by
  obtain ⟨front, hfront, hpath⟩ := List.mem_flatMap.mp hpath
  obtain ⟨b, hb, rfl⟩ := List.mem_map.mp hpath
  have hwalk := h.walk front hfront
  exact ⟨(walk_concat hwalk.ne_nil).mpr ⟨hwalk, hb⟩, by simp [h.length front hfront]⟩

theorem Abreast.step (h : Abreast successors root size visited frontier)
    (hunmet : Unmet successors root target symbols visited frontier) :
    Abreast successors root (size + 1)
      (keepFresh visited (Grammar.lengthened successors frontier)).2
      (keepFresh visited (Grammar.lengthened successors frontier)).1 := by
  obtain ⟨-, hkept, -, -⟩ := keepFresh_spec visited (Grammar.lengthened successors frontier)
  constructor
  case walk => exact fun path hpath => (h.lengthened (hkept path hpath)).1
  case length => exact fun path hpath => (h.lengthened (hkept path hpath)).2
  case near =>
    intro path hwalk hleaves hnear
    obtain ⟨front, b, rfl, hfront, hb⟩ := hwalk.split hleaves
    rw [List.length_append, List.length_singleton] at hnear
    rw [pathEnd, List.getLast?_concat, Option.getD_some]
    refine hunmet.round ?_ hb
    rcases Nat.lt_or_ge front.length 2 with hshort | hlong
    · exact List.mem_cons.mpr (.inl (hfront.pathEnd_of_length hshort))
    · exact List.mem_cons_of_mem _ (h.near front hfront hlong (by omega))

/-- A walk to a target that is not visited is longer than the paths of the frontier. -/
theorem Abreast.length_lt (h : Abreast successors root size visited frontier)
    (htarget : target ∉ visited) {path : List SymbolId}
    (hpath : LeadsTo successors root target path) : size < path.length := by
  by_contra hnear
  have hend := h.near path hpath.toWalk hpath.leaves (by omega)
  rw [pathEnd, hpath.last, Option.getD_some] at hend
  exact htarget hend

/-- The path that the search answers with leads to the target, and no walk to it
is shorter. -/
theorem shortestPath_eq_some (hsymbols : ∀ a b, b ∈ successors a → b ∈ symbols)
    (steps : Nat) (hunmet : Unmet successors root target symbols visited frontier)
    (habreast : Abreast successors root size visited frontier) (hsize : 1 ≤ size)
    {path : List SymbolId}
    (h : shortestPath successors target steps visited frontier = some path) :
    LeadsTo successors root target path ∧
      ∀ other, LeadsTo successors root target other → path.length ≤ other.length := by
  induction steps generalizing visited frontier size with
  | zero => contradiction
  | succ steps ih =>
      simp only [shortestPath] at h
      split at h
      · next found hfound =>
          change (lengthened successors frontier).find? (·.getLast? == some target) = some found
            at hfound
          obtain rfl := Option.some.inj h
          obtain ⟨hwalk, hlength⟩ := habreast.lengthened (List.mem_of_find?_eq_some hfound)
          have hlast : found.getLast? = some target := by
            simpa using List.find?_some hfound
          refine ⟨⟨hwalk, by omega, hlast⟩, fun other hother => ?_⟩
          have := habreast.length_lt hunmet.target hother
          omega
      · next hfind =>
          change (lengthened successors frontier).find? (·.getLast? == some target) = none
            at hfind
          split at h
          · contradiction
          · exact ih (hunmet.step hsymbols hfind) (habreast.step hunmet) (by omega) h

end Search

end Grammar
end EarleyChart
