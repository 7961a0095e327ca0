/-
# Bpf2Socks.Lib.Recency — lists in order of last use.

A cache that gives up what has not been used for a while keeps its entries in a list, least
recently used first, and looks at the list's beginning only.  That is right as long as the list is
in order of the entries' time stamps.  `InOrder stamp l now` says so, and that no stamp is later
than `now`.  Each way such a list changes has one lemma here: time passing, a record changing,
an entry leaving, an entry being used, an entry being added.
-/
import Mathlib.Data.List.Pairwise
import Mathlib.Logic.Function.Basic
import Mathlib.Data.List.Nodup

namespace Lib

open Function (update update_self update_of_ne)

variable {ι : Type} {stamp stamp' : ι → Nat} {l r : List ι} {now t : Nat} {x : ι}

/-- The entries of `l` by their stamps, none of them after `now`. -/
structure InOrder (stamp : ι → Nat) (l : List ι) (now : Nat) : Prop where
  past : ∀ x ∈ l, stamp x ≤ now
  sorted : l.Pairwise fun x y => stamp x ≤ stamp y

namespace InOrder

theorem nil : InOrder stamp [] now := ⟨by simp, .nil⟩

/-- Time passes. -/
theorem later (h : InOrder stamp l now) (hle : now ≤ t) : InOrder stamp l t :=
  ⟨fun x hx => Nat.le_trans (h.past x hx) hle, h.sorted⟩

/-- Only the stamps of the listed entries matter. -/
theorem congr (h : InOrder stamp l now) (heq : ∀ x ∈ l, stamp' x = stamp x) :
    InOrder stamp' l now := by
  refine ⟨fun x hx => ?_, h.sorted.imp_of_mem fun {a b} ha hb hab => ?_⟩
  · rw [heq x hx]
    exact h.past x hx
  · rw [heq a ha, heq b hb]
    exact hab

/-- Entries leave. -/
theorem sublist (h : InOrder stamp l now) (hr : r.Sublist l) : InOrder stamp r now :=
  ⟨fun x hx => h.past x (hr.subset hx), h.sorted.sublist hr⟩

/-- An entry that is used now is added at the end. -/
theorem concat (h : InOrder stamp l now) (hx : stamp x = now) : InOrder stamp (l ++ [x]) now := by
  refine ⟨fun y hy => ?_, List.pairwise_append.mpr ⟨h.sorted, List.pairwise_singleton _ _, ?_⟩⟩
  · rcases List.mem_append.mp hy with hy | hy
    · exact h.past y hy
    · rw [List.mem_singleton.mp hy]
      exact Nat.le_of_eq hx
  · intro y hy z hz
    rw [List.mem_singleton.mp hz, hx]
    exact h.past y hy

/-- An entry is used now and moved to the end. -/
theorem touch [DecidableEq ι] (h : InOrder stamp l now) (hnd : l.Nodup) :
    InOrder (update stamp x now) (l.erase x ++ [x]) now := by
  have hne : ∀ y ∈ l.erase x, y ≠ x := fun y hy hyx => hnd.not_mem_erase (hyx ▸ hy)
  exact concat ((h.sublist List.erase_sublist).congr fun y hy => update_of_ne (hne y hy) now stamp)
    (update_self x now stamp)

/-- The first entry is the one that was not used for longest. -/
theorem head_le (h : InOrder stamp (x :: l) now) : ∀ y ∈ x :: l, stamp x ≤ stamp y := by
  intro y hy
  rcases List.mem_cons.mp hy with rfl | hy
  · exact Nat.le_refl _
  · exact List.rel_of_pairwise_cons h.sorted hy

end InOrder

end Lib
