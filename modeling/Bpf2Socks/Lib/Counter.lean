/-
# Bpf2Socks.Lib.Counter — a shared counter that many parties take from and give back to.

A party loads the counter, works out the next value and stores it with a compare-and-swap.  The swap
fails when the counter has moved since, and may fail for no reason; the party then goes on with the
value it has just seen.  Taking is refused above a bound, giving back below zero.

Whatever the parties do in between, the counter is the sum of what they hold, stays below the bound,
and nobody who gives back what it holds is ever refused.
-/
import Mathlib.Algebra.BigOperators.Group.Finset.Piecewise
import Mathlib.Algebra.Order.BigOperators.Group.Finset
import Mathlib.Logic.Relation

namespace Lib.Counter

open Function

/-- What a party is doing, with the value of the counter it saw last. -/
inductive Call where
  | idle
  | take (amount seen : Nat)
  | give (amount seen : Nat)
  deriving DecidableEq

/-- The counter, and for each party its call and what it has taken and not given back. -/
structure State (ι : Type) where
  used : Nat
  call : ι → Call
  held : ι → Nat

variable {ι : Type} [DecidableEq ι] {cap : Nat}

/-- Whether taking `amount` is refused after `seen` was loaded. -/
def Refuses (cap amount seen : Nat) : Prop := cap < amount ∨ cap - amount < seen

instance (cap amount seen : Nat) : Decidable (Refuses cap amount seen) :=
  inferInstanceAs (Decidable (_ ∨ _))

theorem le_of_not_refuses {amount seen : Nat} (h : ¬Refuses cap amount seen) :
    seen + amount ≤ cap := by
  unfold Refuses at h
  omega

/-- One atomic operation of a party. -/
inductive Step (cap : Nat) : State ι → State ι → Prop where
  | loadTake {s : State ι} (i : ι) (amount : Nat) (h : s.call i = .idle) :
      Step cap s { s with call := update s.call i (.take amount s.used) }
  | refuse {s : State ι} (i : ι) {amount seen : Nat} (h : s.call i = .take amount seen)
      (hr : Refuses cap amount seen) : Step cap s { s with call := update s.call i .idle }
  | reloadTake {s : State ι} (i : ι) {amount seen : Nat} (h : s.call i = .take amount seen) :
      Step cap s { s with call := update s.call i (.take amount s.used) }
  | take {s : State ι} (i : ι) {amount seen : Nat} (h : s.call i = .take amount seen)
      (hr : ¬Refuses cap amount seen) (hs : s.used = seen) :
      Step cap s
        { used := seen + amount
          call := update s.call i .idle
          held := update s.held i (s.held i + amount) }
  | loadGive {s : State ι} (i : ι) (amount : Nat) (h : s.call i = .idle) (hh : amount ≤ s.held i) :
      Step cap s { s with call := update s.call i (.give amount s.used) }
  | reloadGive {s : State ι} (i : ι) {amount seen : Nat} (h : s.call i = .give amount seen) :
      Step cap s { s with call := update s.call i (.give amount s.used) }
  | give {s : State ι} (i : ι) {amount seen : Nat} (h : s.call i = .give amount seen)
      (hs : s.used = seen) :
      Step cap s
        { used := seen - amount
          call := update s.call i .idle
          held := update s.held i (s.held i - amount) }

variable [Fintype ι]

/-- The counter is what the parties hold, and within the bound; whoever gives back holds as much,
and has seen as much. -/
structure Sound (cap : Nat) (s : State ι) : Prop where
  sum : s.used = ∑ i, s.held i
  within : s.used ≤ cap
  given : ∀ i amount seen, s.call i = .give amount seen → amount ≤ s.held i ∧ amount ≤ seen

omit [DecidableEq ι] in
theorem Sound.held_le {s : State ι} (h : Sound cap s) (i : ι) : s.held i ≤ s.used := by
  rw [h.sum]
  exact Finset.single_le_sum (fun j _ => Nat.zero_le (s.held j)) (Finset.mem_univ i)

/-- What the parties hold, when one of them holds `n` now. -/
theorem sum_update (held : ι → Nat) (i : ι) (n : Nat) :
    (∑ j, update held i n j) + held i = (∑ j, held j) + n := by
  have hself := Finset.sum_update_of_mem (Finset.mem_univ i) held n
  have hsplit : (∑ j, held j) = held i + ∑ j ∈ Finset.univ \ {i}, held j := by
    rw [← Finset.sum_update_of_mem (Finset.mem_univ i) held (held i), update_eq_self]
  rw [hself, hsplit]
  omega

/-- Only the call of party `i` has changed, to one that gives nothing back. -/
theorem Sound.calling {s : State ι} (h : Sound cap s) (i : ι) {c : Call}
    (hc : ∀ amount seen, c = .give amount seen → amount ≤ s.held i ∧ amount ≤ seen) :
    Sound cap { s with call := update s.call i c } := by
  refine ⟨h.sum, h.within, ?_⟩
  intro j amount seen hj
  rcases eq_or_ne j i with rfl | hne
  · exact hc amount seen (by simpa using hj)
  · exact h.given j amount seen (by simpa [update_of_ne hne] using hj)

/-- Every operation keeps the account. -/
theorem Sound.step {s t : State ι} (h : Sound cap s) (hst : Step cap s t) : Sound cap t := by
  cases hst with
  | loadTake i amount hi => exact h.calling i (by simp)
  | refuse i hi hr => exact h.calling i (by simp)
  | reloadTake i hi => exact h.calling i (by simp)
  | @take i amount seen hi hr hs =>
      have hsum := sum_update s.held i (s.held i + amount)
      refine ⟨?_, le_of_not_refuses hr, ?_⟩
      · show seen + amount = ∑ j, update s.held i (s.held i + amount) j
        have := h.sum
        omega
      · intro j n u hj
        rcases eq_or_ne j i with rfl | hne
        · simp at hj
        · have hj' : s.call j = .give n u := by simpa [update_of_ne hne] using hj
          simpa [update_of_ne hne] using h.given j n u hj'
  | loadGive i amount hi hh =>
      refine h.calling i ?_
      rintro n u ⟨⟩
      exact ⟨hh, Nat.le_trans hh (h.held_le i)⟩
  | @reloadGive i amount seen hi =>
      refine h.calling i ?_
      rintro n u ⟨⟩
      have hh := (h.given i _ _ hi).1
      exact ⟨hh, Nat.le_trans hh (h.held_le i)⟩
  | @give i amount seen hi hs =>
      obtain ⟨hh, hseen⟩ := h.given i _ _ hi
      have hsum := sum_update s.held i (s.held i - amount)
      refine ⟨?_, ?_, ?_⟩
      · show seen - amount = ∑ j, update s.held i (s.held i - amount) j
        have := h.sum
        omega
      · show seen - amount ≤ cap
        have := h.within
        omega
      · intro j n u hj
        rcases eq_or_ne j i with rfl | hne
        · simp at hj
        · have hj' : s.call j = .give n u := by simpa [update_of_ne hne] using hj
          simpa [update_of_ne hne] using h.given j n u hj'

omit [DecidableEq ι] in
/-- Nothing is taken at first. -/
theorem sound_zero (cap : Nat) : Sound cap (⟨0, fun _ => .idle, fun _ => 0⟩ : State ι) :=
  ⟨by simp, Nat.zero_le cap, by simp⟩

end Lib.Counter
