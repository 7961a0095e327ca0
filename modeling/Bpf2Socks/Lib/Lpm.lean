/-
# Bpf2Socks.Lib.Lpm — longest-prefix-match tables over byte strings.

A table is a list of prefixes: a number of bits and the bytes they are the first bits of.  A lookup
names an address and how many of its bits count; it finds an entry exactly when some stored prefix
no longer than that covers the address.  Which of several covering prefixes is found does not
matter here, since every entry of the tables this is used for has the same value.
-/
import Mathlib.Data.List.Basic

namespace Lib

/-- The bits of a byte string, most significant first. -/
def bitsOf (bytes : List UInt8) : List Bool :=
  bytes.flatMap fun b => (List.range 8).map fun i => b.toNat.testBit (7 - i)

/-- A stored prefix: `bits` leading bits of `addr`. -/
structure Prefix where
  bits : Nat
  addr : List UInt8
  deriving DecidableEq

/-- The first `p.bits` bits of `addr` are those of the prefix. -/
def Prefix.covers (p : Prefix) (addr : List UInt8) : Bool :=
  (bitsOf addr).take p.bits == (bitsOf p.addr).take p.bits

/-- A longest-prefix-match table. -/
abbrev Lpm := List Prefix

/-- `bpf_map_lookup_elem` on a trie with the key `(bits, addr)` finds an entry. -/
def Lpm.found (t : Lpm) (bits : Nat) (addr : List UInt8) : Bool :=
  t.any fun p => decide (p.bits ≤ bits) && p.covers addr

/-! ## Bits -/

@[simp] theorem bitsOf_append (a b : List UInt8) : bitsOf (a ++ b) = bitsOf a ++ bitsOf b :=
  List.flatMap_append

@[simp] theorem length_bitsOf (bytes : List UInt8) : (bitsOf bytes).length = 8 * bytes.length := by
  induction bytes with
  | nil => rfl
  | cons b bytes ih =>
      rw [← List.singleton_append, bitsOf_append, List.length_append, ih, List.length_append]
      have hb : (bitsOf [b]).length = 8 := by simp [bitsOf]
      rw [hb, List.length_singleton]
      omega

/-- The first bits of one byte. -/
theorem take_bitsOf_singleton (b : UInt8) {n : Nat} (h : n ≤ 8) :
    (bitsOf [b]).take n = (List.range n).map fun i => b.toNat.testBit (7 - i) := by
  show (((List.range 8).map fun i => b.toNat.testBit (7 - i)) ++ []).take n = _
  rw [List.append_nil, ← List.map_take, List.take_range, Nat.min_eq_left h]

/-! ## Covering -/

theorem Prefix.covers_iff {p : Prefix} {addr : List UInt8} :
    p.covers addr = true ↔ (bitsOf addr).take p.bits = (bitsOf p.addr).take p.bits := by
  rw [Prefix.covers, beq_iff_eq]

/-- A prefix covers what the longer prefixes it covers do. -/
theorem Prefix.covers_trans {p q : Prefix} {addr : List UInt8} (hle : q.bits ≤ p.bits)
    (hq : q.covers p.addr = true) (hp : p.covers addr = true) : q.covers addr = true := by
  rw [Prefix.covers_iff] at *
  have hshort : ∀ l : List Bool, l.take q.bits = (l.take p.bits).take q.bits := fun l => by
    rw [List.take_take, Nat.min_eq_left hle]
  rw [hshort, hp, ← hshort, hq]

/-- Only the bits that count matter. -/
theorem Prefix.covers_congr {p q : Prefix} (hbits : p.bits = q.bits)
    (haddr : (bitsOf p.addr).take p.bits = (bitsOf q.addr).take q.bits) (addr : List UInt8) :
    p.covers addr = q.covers addr := by
  rw [Prefix.covers, Prefix.covers, haddr, hbits]

theorem Lpm.found_iff {t : Lpm} {bits : Nat} {addr : List UInt8} :
    t.found bits addr = true ↔ ∃ p ∈ t, p.bits ≤ bits ∧ p.covers addr = true := by
  simp [Lpm.found]

theorem Lpm.found_cons {t : Lpm} {p : Prefix} {bits : Nat} {addr : List UInt8} (h : p.bits ≤ bits) :
    Lpm.found (p :: t) bits addr = true ↔ t.found bits addr = true ∨ p.covers addr = true := by
  simp [Lpm.found, h, or_comm]

/-! ## Leaving out what is covered -/

/-- A prefix that the table covers already is not stored. -/
def Lpm.addUncovered (t : Lpm) (p : Prefix) : Lpm := if t.found p.bits p.addr then t else p :: t

/-- Left out or stored, the prefix is matched from now on, and nothing else is. -/
theorem Lpm.found_addUncovered {t : Lpm} {p : Prefix} {bits : Nat} {addr : List UInt8}
    (h : p.bits ≤ bits) :
    (t.addUncovered p).found bits addr = true ↔ t.found bits addr = true ∨ p.covers addr = true := by
  rw [Lpm.addUncovered]
  split
  · rename_i hcovered
    refine ⟨.inl, fun hor => hor.elim id fun hp => ?_⟩
    obtain ⟨q, hq, hle, hcovers⟩ := Lpm.found_iff.mp hcovered
    exact Lpm.found_iff.mpr ⟨q, hq, Nat.le_trans hle h, Prefix.covers_trans hle hcovers hp⟩
  · exact Lpm.found_cons h

/-- Whatever the order, the table matches what it matched before and what the prefixes cover. -/
theorem Lpm.found_foldl_addUncovered {ps : List Prefix} {bits : Nat} {addr : List UInt8} :
    ∀ {t : Lpm}, (∀ p ∈ ps, p.bits ≤ bits) →
      ((ps.foldl Lpm.addUncovered t).found bits addr = true ↔
        t.found bits addr = true ∨ ∃ p ∈ ps, p.covers addr = true) := by
  induction ps with
  | nil => simp
  | cons p ps ih =>
      intro t h
      rw [List.foldl_cons, ih fun q hq => h q (List.mem_cons_of_mem _ hq),
        Lpm.found_addUncovered (h p List.mem_cons_self), or_assoc]
      simp

/-- Storing all of them matches the same. -/
theorem Lpm.found_append {ps : List Prefix} {t : Lpm} {bits : Nat} {addr : List UInt8}
    (h : ∀ p ∈ ps, p.bits ≤ bits) :
    Lpm.found (ps ++ t) bits addr = true ↔
      t.found bits addr = true ∨ ∃ p ∈ ps, p.covers addr = true := by
  simp only [Lpm.found_iff, List.mem_append]
  constructor
  · rintro ⟨p, hp | hp, hle, hcovers⟩
    · exact .inr ⟨p, hp, hcovers⟩
    · exact .inl ⟨p, hp, hle, hcovers⟩
  · rintro (⟨p, hp, hle, hcovers⟩ | ⟨p, hp, hcovers⟩)
    · exact ⟨p, .inr hp, hle, hcovers⟩
    · exact ⟨p, .inl hp, h p hp, hcovers⟩

end Lib
