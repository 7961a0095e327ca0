/-
# Bpf2Socks.Lib.OnesComplement — one's complement sums of 16-bit words.

A byte string is read as 16-bit words in network order, an odd byte at the end as the high half of a
word.  A sum of words is folded to sixteen bits by adding the carry at the other end; the result
stands for the sum modulo 65535, with 65535 for a multiple of it that is not zero.  Data with a
checksum in it is in order if its words, the checksum among them, fold to 65535.
-/
import Mathlib.Algebra.BigOperators.Group.List.Basic
import Mathlib.Data.List.Basic
import Mathlib.Algebra.GroupWithZero.Nat

namespace Lib

/-- The 16-bit words of a byte string, in network order. -/
def words16 : List UInt8 → List Nat
  | a :: b :: rest => (a.toNat * 256 + b.toNat) :: words16 rest
  | [a] => [a.toNat * 256]
  | [] => []

/-- A sum folded to sixteen bits with end-around carry. -/
def foldSum (n : Nat) : Nat := if n = 0 then 0 else (n - 1) % 65535 + 1

/-- The words of the bytes fold to all ones. -/
def Verifies (bytes : List UInt8) : Prop := foldSum (words16 bytes).sum = 65535

instance (bytes : List UInt8) : Decidable (Verifies bytes) := inferInstanceAs (Decidable (_ = _))

/-! ## Words -/

@[simp] theorem sum_words16_nil : (words16 []).sum = 0 := rfl

@[simp] theorem sum_words16_one (a : UInt8) : (words16 [a]).sum = a.toNat * 256 := by
  rw [words16, List.sum_cons, List.sum_nil, Nat.add_zero]

@[simp] theorem sum_words16_two (a b : UInt8) (rest : List UInt8) :
    (words16 (a :: b :: rest)).sum = a.toNat * 256 + b.toNat + (words16 rest).sum := by
  rw [words16, List.sum_cons]

/-- Whole words do not mix with what follows them. -/
theorem words16_append : ∀ {a : List UInt8} (b : List UInt8), a.length % 2 = 0 →
    words16 (a ++ b) = words16 a ++ words16 b
  | [], _, _ => rfl
  | [_], _, h => absurd h (by simp)
  | x :: y :: a, b, h => by
      have hrest : a.length % 2 = 0 := by
        simp only [List.length_cons] at h
        omega
      show _ :: words16 (a ++ b) = _ :: (words16 a ++ words16 b)
      rw [words16_append b hrest]

theorem sum_words16_le : ∀ bytes : List UInt8,
    (words16 bytes).sum ≤ 65535 * ((bytes.length + 1) / 2)
  | [] => Nat.zero_le _
  | [a] => by
      have ha := a.toNat_lt
      rw [sum_words16_one, List.length_singleton]
      omega
  | a :: b :: rest => by
      have ha := a.toNat_lt
      have hb := b.toNat_lt
      have hrest := sum_words16_le rest
      rw [sum_words16_two, List.length_cons, List.length_cons]
      omega

/-- A field of one word adds its value. -/
theorem sum_words16_field {pre : List UInt8} (hpre : pre.length % 2 = 0) (hi lo : UInt8)
    (post : List UInt8) : (words16 (pre ++ [hi, lo] ++ post)).sum =
      (words16 (pre ++ [0, 0] ++ post)).sum + (hi.toNat * 256 + lo.toNat) := by
  have hsplit : ∀ x y : UInt8, words16 (pre ++ [x, y] ++ post) =
      words16 pre ++ (x.toNat * 256 + y.toNat) :: words16 post := by
    intro x y
    rw [List.append_assoc, words16_append _ hpre]
    rfl
  rw [hsplit, hsplit, List.sum_append, List.sum_append, List.sum_cons, List.sum_cons]
  simp only [UInt8.toNat_zero]
  omega

/-! ## Folding -/

theorem foldSum_le (n : Nat) : foldSum n ≤ 65535 := by
  rw [foldSum]
  split
  · exact Nat.zero_le _
  · omega

theorem foldSum_of_lt {n : Nat} (h : n < 65536) : foldSum n = n := by
  rw [foldSum]
  split
  · rename_i hz
    exact hz.symm
  · omega

/-- One round of adding the carry changes nothing. -/
theorem foldSum_carry (n : Nat) : foldSum (n % 65536 + n / 65536) = foldSum n := by
  by_cases hz : n = 0
  · rw [hz]
  · have hne : n % 65536 + n / 65536 ≠ 0 := by omega
    rw [foldSum, foldSum, if_neg hne, if_neg hz]
    omega

/-- The complement of a folded sum makes the sum all ones. -/
theorem foldSum_add_complement (n : Nat) : foldSum (n + (65535 - foldSum n)) = 65535 := by
  have hle := foldSum_le n
  have hne : n + (65535 - foldSum n) ≠ 0 := by
    intro hz
    have hzero : n = 0 := by omega
    rw [hzero] at hz
    revert hz
    decide
  rw [foldSum, if_neg hne]
  by_cases hz : n = 0
  · rw [hz]
    rfl
  · rw [foldSum, if_neg hz]
    omega

/-- So does all ones in the place of a complement of zero. -/
theorem foldSum_add_ones {n : Nat} (h : foldSum n = 65535) : foldSum (n + 65535) = 65535 := by
  rw [foldSum] at h ⊢
  split at h
  · cases h
  · rw [if_neg (by omega)]
    omega

/-- Data is in order with the complement of its sum in the place of its checksum, or with all ones
where that complement is zero. -/
theorem verifies_of_checksum {pre post : List UInt8} {hi lo : UInt8} (hpre : pre.length % 2 = 0)
    (h : hi.toNat * 256 + lo.toNat = 65535 - foldSum (words16 (pre ++ [0, 0] ++ post)).sum ∨
      (foldSum (words16 (pre ++ [0, 0] ++ post)).sum = 65535 ∧
        hi.toNat * 256 + lo.toNat = 65535)) : Verifies (pre ++ [hi, lo] ++ post) := by
  rw [Verifies, sum_words16_field hpre]
  rcases h with h | ⟨hones, h⟩
  · rw [h]
    exact foldSum_add_complement _
  · rw [h]
    exact foldSum_add_ones hones

/-! ## Replacing words -/

/-- Data is in order if its words sum to a multiple of 65535 that is not zero. -/
theorem verifies_iff (bytes : List UInt8) :
    Verifies bytes ↔ 0 < (words16 bytes).sum ∧ (words16 bytes).sum % 65535 = 0 := by
  unfold Verifies foldSum
  split <;> omega

theorem sum_words16_append {a : List UInt8} (b : List UInt8) (h : a.length % 2 = 0) :
    (words16 (a ++ b)).sum = (words16 a).sum + (words16 b).sum := by
  rw [words16_append b h, List.sum_append]

/-- Words in the place of others, at the border of a word. -/
theorem sum_words16_replace {pre old new : List UInt8} (post : List UInt8)
    (hpre : pre.length % 2 = 0) (hold : old.length % 2 = 0) (hnew : new.length % 2 = 0) :
    (words16 (pre ++ new ++ post)).sum + (words16 old).sum =
      (words16 (pre ++ old ++ post)).sum + (words16 new).sum := by
  have hsum : ∀ field : List UInt8, field.length % 2 = 0 → (words16 (pre ++ field ++ post)).sum =
      (words16 pre).sum + (words16 field).sum + (words16 post).sum := by
    intro field hfield
    have heven : (pre ++ field).length % 2 = 0 := by
      rw [List.length_append]
      omega
    rw [sum_words16_append _ heven, sum_words16_append _ hpre]
  rw [hsum new hnew, hsum old hold]
  omega

/-- The sum of bytes that are not all zero is not zero. -/
theorem sum_words16_pos : ∀ {bytes : List UInt8} {b : UInt8}, b ∈ bytes → b ≠ 0 →
    0 < (words16 bytes).sum
  | [], _, h, _ => absurd h List.not_mem_nil
  | [a], b, h, hb => by
      obtain rfl : b = a := List.mem_singleton.mp h
      have hpos : b.toNat ≠ 0 := fun hz => hb (UInt8.toNat_inj.mp hz)
      rw [sum_words16_one]
      omega
  | a :: a' :: rest, b, h, hb => by
      have hpos : b.toNat ≠ 0 := fun hz => hb (UInt8.toNat_inj.mp hz)
      rw [sum_words16_two]
      rcases List.mem_cons.mp h with rfl | h
      · omega
      rcases List.mem_cons.mp h with rfl | h
      · omega
      · have hrest := sum_words16_pos h hb
        omega

/-- The complements of words, and the words. -/
theorem sum_complements (bytes : List UInt8) :
    ((words16 bytes).map (65535 - ·)).sum + (words16 bytes).sum = 65535 * (words16 bytes).length := by
  have hword : ∀ w ∈ words16 bytes, w ≤ 65535 := by
    induction bytes using words16.induct with
    | case1 a b rest ih =>
        intro w hw
        have ha := a.toNat_lt
        have hb := b.toNat_lt
        rcases List.mem_cons.mp hw with rfl | hw
        · omega
        · exact ih w hw
    | case2 a =>
        intro w hw
        have ha := a.toNat_lt
        rw [List.mem_singleton.mp hw]
        omega
    | case3 => exact fun w hw => absurd hw List.not_mem_nil
  generalize words16 bytes = l at hword
  induction l with
  | nil => rfl
  | cons w l ih =>
      have hw := hword w List.mem_cons_self
      have hl := ih fun v hv => hword v (List.mem_cons_of_mem w hv)
      rw [List.map_cons, List.sum_cons, List.sum_cons, List.length_cons]
      omega

/-- The complement of a sum, less the old words and plus the new ones: the checksum that goes with the
new words where the old one went with the old ones. -/
theorem complement_update {sum : Nat} (hsum : sum ≤ 65535) (old new : List UInt8) :
    (65535 - foldSum ((65535 - sum) + ((words16 old).map (65535 - ·)).sum + (words16 new).sum) +
      (words16 new).sum) % 65535 = (sum + (words16 old).sum) % 65535 := by
  have hold := sum_complements old
  unfold foldSum
  split <;> omega

end Lib
