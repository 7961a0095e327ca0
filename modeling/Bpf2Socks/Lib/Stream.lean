/-
# Bpf2Socks.Lib.Stream — an endless stream and the pieces a reader gets of it.

A reader at position `p` of a stream sees the segments that start there.  Reading one segment and
then the next is reading one long segment, so what a reader has after any number of partial reads
depends on how far it has come and not on how the reads were cut.
-/
import Mathlib.Data.List.Basic

namespace Lib

variable {α : Type}

/-- The `n` elements of a stream from position `p` on. -/
def segment (S : Nat → α) : Nat → Nat → List α
  | _, 0 => []
  | p, n + 1 => S p :: segment S (p + 1) n

@[simp] theorem segment_zero (S : Nat → α) (p : Nat) : segment S p 0 = [] := rfl

theorem segment_succ (S : Nat → α) (p n : Nat) :
    segment S p (n + 1) = S p :: segment S (p + 1) n := rfl

@[simp] theorem length_segment (S : Nat → α) (p n : Nat) : (segment S p n).length = n := by
  induction n generalizing p with
  | zero => rfl
  | succ n ih => rw [segment_succ, List.length_cons, ih]

/-- Reading on. -/
theorem segment_append (S : Nat → α) (p m n : Nat) :
    segment S p m ++ segment S (p + m) n = segment S p (m + n) := by
  induction m generalizing p with
  | zero => simp
  | succ m ih =>
      rw [segment_succ, List.cons_append, show p + (m + 1) = (p + 1) + m by omega, ih,
        show m + 1 + n = (m + n) + 1 by omega, segment_succ]

theorem take_segment (S : Nat → α) (p : Nat) {m n : Nat} (h : m ≤ n) :
    (segment S p n).take m = segment S p m := by
  obtain ⟨k, rfl⟩ := Nat.exists_eq_add_of_le h
  rw [← segment_append, List.take_left' (length_segment S p m)]

theorem drop_segment (S : Nat → α) (p m n : Nat) :
    (segment S p (m + n)).drop m = segment S (p + m) n := by
  rw [← segment_append, List.drop_left' (length_segment S p m)]

end Lib
