/-
# Bpf2Socks.Lib.Chain — a queue as a singly linked list in memory.

Memory maps addresses to allocated cells, each a value and the address of the next cell.  A `Queue`
is what a pair of a head and a tail pointer stand for: the cells visited from the head are those of
a list, no address is visited twice, and the tail points to the last.  Appending a fresh cell at the
tail and freeing the cell at the head keep it.
-/
import Mathlib.Logic.Function.Basic
import Mathlib.Data.List.Basic

namespace Lib

open Function (update update_self update_of_ne)

/-- An allocated cell. -/
structure Cell (α : Type) where
  val : α
  next : Option Nat

/-- `none` where nothing is allocated. -/
abbrev Heap (α : Type) := Nat → Option (Cell α)

variable {α : Type} {heap heap' : Heap α} {p q head tail : Option Nat} {L : List (Nat × α)}
  {a : Nat} {v : α}

/-- From pointer `p` the cells visited are those of the list, up to pointer `q`. -/
inductive Seg (heap : Heap α) : Option Nat → List (Nat × α) → Option Nat → Prop where
  | nil (p : Option Nat) : Seg heap p [] p
  | cons {a : Nat} {v : α} {next q : Option Nat} {L : List (Nat × α)}
      (cell : heap a = some ⟨v, next⟩) (rest : Seg heap next L q) :
      Seg heap (some a) ((a, v) :: L) q

namespace Seg

/-- Only the cells of the list count. -/
theorem congr (h : Seg heap p L q) (heq : ∀ c ∈ L, heap' c.1 = heap c.1) : Seg heap' p L q := by
  induction h with
  | nil p => exact .nil p
  | cons cell rest ih =>
      exact .cons ((heq _ List.mem_cons_self).trans cell)
        (ih fun c hc => heq c (List.mem_cons_of_mem _ hc))

/-- Every cell of the list is allocated. -/
theorem allocated (h : Seg heap p L q) {c : Nat × α} (hc : c ∈ L) :
    ∃ next, heap c.1 = some ⟨c.2, next⟩ := by
  induction h with
  | nil p => exact absurd hc List.not_mem_nil
  | cons cell rest ih =>
      rcases List.mem_cons.mp hc with rfl | hc
      · exact ⟨_, cell⟩
      · exact ih hc

/-- Redirecting the last cell to a cell behind it. -/
theorem snoc (h : Seg heap p L none) (hnodup : (L.map (·.1)).Nodup) {t : Nat} {next : Option Nat}
    (hlast : (L.map (·.1)).getLast? = some t) {w : α} (hcell : heap t = some ⟨w, next⟩)
    (hfresh : a ∉ L.map (·.1)) :
    Seg (update (update heap a (some ⟨v, none⟩)) t (some ⟨w, some a⟩)) p (L ++ [(a, v)]) none := by
  generalize hq : (none : Option Nat) = q at h
  induction h with
  | nil p => simp at hlast
  | @cons b u next' q L cell rest ih =>
      subst hq
      rw [List.map_cons, List.nodup_cons] at hnodup
      rw [List.map_cons, List.mem_cons, not_or] at hfresh
      rcases L with _ | ⟨c, L⟩
      · -- the cell itself is the last
        obtain rfl : b = t := by simpa using hlast
        obtain ⟨rfl, rfl⟩ := Cell.mk.inj (Option.some.inj (cell.symm.trans hcell))
        refine .cons (update_self ..) (.cons ?_ (.nil none))
        rw [update_of_ne hfresh.1, update_self]
      · have hlast' : ((c :: L).map (·.1)).getLast? = some t := by
          simpa [List.getLast?_cons_cons] using hlast
        have hmem := List.mem_of_getLast? hlast'
        have hb : b ≠ t := fun he => hnodup.1 (he ▸ hmem)
        refine .cons ?_ (ih hnodup.2 hlast' hfresh.2 rfl)
        rw [update_of_ne hb, update_of_ne (Ne.symm hfresh.1)]
        exact cell

end Seg

/-- What a head and a tail pointer stand for. -/
structure Queue (heap : Heap α) (head tail : Option Nat) (L : List (Nat × α)) : Prop where
  seg : Seg heap head L none
  nodup : (L.map (·.1)).Nodup
  tail_eq : tail = (L.map (·.1)).getLast?

namespace Queue

theorem empty (heap : Heap α) : Queue heap none none [] := ⟨.nil none, List.nodup_nil, rfl⟩

theorem head_eq (h : Queue heap head tail L) : head = (L.map (·.1)).head? := by
  cases h.seg with
  | nil => rfl
  | cons cell rest => rfl

/-- The cell at the head. -/
theorem head_cell (h : Queue heap head tail ((a, v) :: L)) :
    head = some a ∧ ∃ next, heap a = some ⟨v, next⟩ ∧ Seg heap next L none := by
  cases h.seg with
  | cons cell rest => exact ⟨rfl, _, cell, rest⟩

/-- A fresh cell at the end of an empty queue. -/
theorem push_empty (h : Queue heap head none L) :
    L = [] ∧ Queue (update heap a (some ⟨v, none⟩)) (some a) (some a) [(a, v)] := by
  refine ⟨?_, .cons (update_self ..) (.nil none), by simp, rfl⟩
  have := h.tail_eq
  rcases L with _ | ⟨c, L⟩
  · rfl
  · simp [List.getLast?_cons] at this

/-- A fresh cell behind the last. -/
theorem push (h : Queue heap head (some a) L) {b : Nat} (hfresh : heap b = none) (w : α) :
    ∃ u next, heap a = some ⟨u, next⟩ ∧
      Queue (update (update heap b (some ⟨w, none⟩)) a (some ⟨u, some b⟩)) head (some b)
        (L ++ [(b, w)]) := by
  have hmem := List.mem_of_getLast? h.tail_eq.symm
  obtain ⟨c, hc, rfl⟩ := List.mem_map.mp hmem
  obtain ⟨next, hcell⟩ := h.seg.allocated hc
  have hnot : b ∉ L.map (·.1) := by
    intro hb
    obtain ⟨d, hd, rfl⟩ := List.mem_map.mp hb
    obtain ⟨next', hd'⟩ := h.seg.allocated hd
    rw [hfresh] at hd'
    cases hd'
  refine ⟨c.2, next, hcell, h.seg.snoc h.nodup h.tail_eq.symm hcell hnot, ?_, by simp⟩
  rw [List.map_append, List.map_singleton]
  exact List.nodup_append.mpr ⟨h.nodup, by simp, fun x hx y hy he => by
    obtain rfl := List.mem_singleton.mp hy
    exact hnot (he ▸ hx)⟩

/-- Freeing the cell at the head: the head goes on, and the tail is cleared if it was the last. -/
theorem pop (h : Queue heap head tail ((a, v) :: L)) {next : Option Nat}
    (hcell : heap a = some ⟨v, next⟩) :
    Queue (update heap a none) next (if tail = some a then none else tail) L := by
  obtain ⟨-, next', hcell', hseg⟩ := h.head_cell
  obtain ⟨-, rfl⟩ := Cell.mk.inj (Option.some.inj (hcell.symm.trans hcell'))
  have hnodup := h.nodup
  rw [List.map_cons, List.nodup_cons] at hnodup
  refine ⟨hseg.congr fun c hc => update_of_ne (fun he => hnodup.1 ?_) _ _, hnodup.2, ?_⟩
  · exact List.mem_map.mpr ⟨c, hc, he⟩
  · rw [h.tail_eq]
    rcases L with _ | ⟨c, L⟩
    · simp
    · have hlast : (((a, v) :: c :: L).map (·.1)).getLast? = ((c :: L).map (·.1)).getLast? := by
        simp [List.getLast?_cons_cons]
      rw [hlast, if_neg]
      intro he
      exact hnodup.1 (List.mem_of_getLast? he)

end Queue

end Lib
