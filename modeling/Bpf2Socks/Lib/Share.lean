/-
# Bpf2Socks.Lib.Share — dividing a number among equals, and scaling numbers to a budget.

`quota total i n` is what the `i`-th of `n` equals gets of `total`: the quotient, and one more for
the first `total % n` of them.  `scaled budget demand x` is the part of `x` that a budget smaller
than the demand leaves room for; rounding down never overspends.
-/
import Mathlib.Algebra.BigOperators.Group.List.Basic
import Mathlib.Tactic.Linarith

namespace Lib

/-! ## Equal shares -/

/-- The share of the `i`-th of `n`. -/
def quota (total i n : Nat) : Nat := total / n + if i < total % n then 1 else 0

/-- The first `m` of the extra units. -/
theorem sum_extra (r m : Nat) :
    ((List.range m).map fun i => if i < r then 1 else 0).sum = min m r := by
  induction m with
  | zero => simp
  | succ m ih =>
      rw [List.range_succ, List.map_append, List.sum_append, ih]
      simp only [List.map_cons, List.map_nil, List.sum_cons, List.sum_nil, Nat.add_zero]
      split <;> omega

/-- The shares add up. -/
theorem sum_quota (total : Nat) {n : Nat} (hn : 0 < n) :
    ((List.range n).map fun i => quota total i n).sum = total := by
  have hmod : total % n < n := Nat.mod_lt total hn
  have hsplit : ((List.range n).map fun i => quota total i n).sum =
      n * (total / n) + ((List.range n).map fun i => if i < total % n then 1 else 0).sum := by
    simp only [quota, List.sum_map_add, List.map_const', List.sum_replicate_nat, List.length_range]
  rw [hsplit, sum_extra, Nat.min_eq_right (Nat.le_of_lt hmod)]
  exact Nat.div_add_mod total n

/-- Where there is one for each, each gets one. -/
theorem quota_pos {total n : Nat} (i : Nat) (hn : 0 < n) (h : n ≤ total) : 1 ≤ quota total i n :=
  Nat.le_trans (Nat.div_pos h hn) (Nat.le_add_right _ _)

/-- Of more, nobody gets less. -/
theorem quota_mono {a b : Nat} (i n : Nat) (h : a ≤ b) : quota a i n ≤ quota b i n := by
  have hdiv : a / n ≤ b / n := Nat.div_le_div_right h
  unfold quota
  rcases Nat.lt_or_eq_of_le hdiv with hlt | heq
  · split <;> split <;> omega
  · -- the same quotient leaves the larger number the larger remainder
    have ha := Nat.div_add_mod a n
    have hb := Nat.div_add_mod b n
    rw [heq] at ha
    have hmod : a % n ≤ b % n := by omega
    split <;> split <;> omega

/-! ## Scaling -/

/-- What is left of `x` when a demand is cut to a budget. -/
def scaled (budget demand x : Nat) : Nat := x * budget / demand

theorem scaled_le {budget demand : Nat} (x : Nat) (h : budget ≤ demand) :
    scaled budget demand x ≤ x := by
  rcases Nat.eq_zero_or_pos demand with rfl | hpos
  · simp [scaled]
  · exact Nat.div_le_of_le_mul (by rw [Nat.mul_comm]; exact Nat.mul_le_mul_right x h)

theorem scaled_mul_le (budget demand x : Nat) : demand * scaled budget demand x ≤ x * budget :=
  Nat.mul_div_le _ _

/-- The demand of what `cost` each of the scaled numbers has. -/
def spending (parts : List (Nat × Nat)) : Nat := (parts.map fun p => p.1 * p.2).sum

@[simp] theorem spending_nil : spending [] = 0 := rfl

@[simp] theorem spending_cons (p : Nat × Nat) (parts : List (Nat × Nat)) :
    spending (p :: parts) = p.1 * p.2 + spending parts := by
  simp [spending]

/-- Scaling every part by what `demand` there is for the budget. -/
theorem mul_spending_scaled_le (budget demand : Nat) (parts : List (Nat × Nat)) :
    demand * spending (parts.map fun p => (p.1, scaled budget demand p.2)) ≤
      spending parts * budget := by
  induction parts with
  | nil => simp
  | cons p parts ih =>
      have hp := Nat.mul_le_mul_left p.1 (scaled_mul_le budget demand p.2)
      rw [List.map_cons, spending_cons, spending_cons]
      nlinarith

/-- **Scaled parts fit the budget.** -/
theorem spending_scaled_le {budget : Nat} {parts : List (Nat × Nat)} (h : 0 < spending parts) :
    spending (parts.map fun p => (p.1, scaled budget (spending parts) p.2)) ≤ budget :=
  Nat.le_of_mul_le_mul_left (mul_spending_scaled_le budget (spending parts) parts) h

end Lib
