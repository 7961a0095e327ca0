/-
# Bpf2Socks.Tc.Checksums — a rewritten packet is as good as it came.

A rewrite is a list of edits: words change in a header, and each checksum that covers them is updated by
the difference.  What a checksum covers are two stretches of the packet and bytes beside it (`Cover`).
An update moves its sum by the old words less the new ones and a store by the reverse, so the sum stays
the same modulo 65535, which is what a receiver looks at.

The rest of a fragmented datagram, in later fragments, is a parameter: their payload never changes.
-/
import Bpf2Socks.Lib.OnesComplement
import Bpf2Socks.Tc.Kinds

namespace Bpf2Socks.Tc

open Lib (Act Prog Verifies verifies_iff)

variable {d d' : List UInt8} {off n : Nat} {bytes old new : List UInt8}

/-! ## Fields -/

theorem words16_eq : ∀ l : List UInt8, words16 l = Lib.words16 l
  | [] => rfl
  | [_] => rfl
  | _ :: _ :: rest => congrArg (_ :: ·) (words16_eq rest)

theorem csumUpdate_mod {sum : Nat} (hsum : sum ≤ 65535) (old new : List UInt8) :
    (csumUpdate sum old new + (Lib.words16 new).sum) % 65535 =
      (sum + (Lib.words16 old).sum) % 65535 := by
  unfold csumUpdate
  rw [words16_eq, words16_eq]
  exact Lib.complement_update hsum old new

theorem be16_toNat (d : List UInt8) (off : Nat) :
    (be16 d off).toNat = (byteAt d off).toNat * 256 + (byteAt d (off + 1)).toNat := by
  have hhi := (byteAt d off).toNat_lt
  have hlo : (byteAt d (off + 1)).toNat < 2 ^ 8 := (byteAt d (off + 1)).toNat_lt
  simp only [be16, UInt16.toNat_or, UInt16.toNat_shiftLeft, UInt8.toNat_toUInt16,
    UInt16.reduceToNat, Nat.reduceMod]
  rw [Nat.mod_eq_of_lt (by rw [Nat.shiftLeft_eq]; omega), ← Nat.shiftLeft_add_eq_or_of_lt hlo,
    Nat.shiftLeft_eq]

theorem sum_portBytes (port : UInt16) : (Lib.words16 (portBytes port)).sum = port.toNat := by
  have hlt := port.toNat_lt
  rw [portBytes, Lib.sum_words16_two, Lib.sum_words16_nil, Nat.add_zero, UInt16.toNat_toUInt8,
    UInt16.toNat_toUInt8, UInt16.toNat_shiftRight]
  simp only [UInt16.reduceToNat, Nat.reduceMod, Nat.shiftRight_eq_div_pow]
  omega

theorem slice_two (h : off + 2 ≤ d.length) :
    slice d off 2 = [byteAt d off, byteAt d (off + 1)] := by
  have h₀ : off < d.length := by omega
  have h₁ : off + 1 < d.length := by omega
  rw [slice, List.drop_eq_getElem_cons h₀, List.drop_eq_getElem_cons h₁, List.take_succ_cons,
    List.take_succ_cons, List.take_zero, byteAt, byteAt, List.getD_eq_getElem _ _ h₀,
    List.getD_eq_getElem _ _ h₁]

theorem sum_slice_two (h : off + 2 ≤ d.length) :
    (Lib.words16 (slice d off 2)).sum = (be16 d off).toNat := by
  rw [slice_two h, Lib.sum_words16_two, Lib.sum_words16_nil, be16_toNat, Nat.add_zero]

theorem be16_of_slice_eq (h : off + 2 ≤ d.length) (h' : off + 2 ≤ d'.length)
    (heq : slice d' off 2 = slice d off 2) : be16 d' off = be16 d off := by
  have hsum : (Lib.words16 (slice d' off 2)).sum = (Lib.words16 (slice d off 2)).sum := by rw [heq]
  rw [sum_slice_two h, sum_slice_two h'] at hsum
  exact UInt16.toNat_inj.mp hsum

/-- A stretch of `n` bytes from `o` holds `size` bytes at `off`, at the border of a word. -/
structure Holds (o n off size : Nat) : Prop where
  start : o ≤ off
  stop : off + size ≤ o + n
  even : (off - o) % 2 = 0

/-- A stretch, cut at a field. -/
theorem slice_cut {o size : Nat} (d : List UInt8) (h : Holds o n off size) : slice d o n =
      slice d o (off - o) ++ slice d off size ++ slice d (off + size) (o + n - (off + size)) := by
  obtain ⟨hstart, hstop, -⟩ := h
  have hfirst : slice d o n = slice d o (off - o) ++ slice d off (o + n - off) := by
    have heq : n = (off - o) + (o + n - off) := by omega
    unfold slice
    conv_lhs => rw [heq, List.take_add, List.drop_drop]
    rw [Nat.add_sub_cancel' hstart]
  have hsecond : slice d off (o + n - off) =
      slice d off size ++ slice d (off + size) (o + n - (off + size)) := by
    have heq : o + n - off = size + (o + n - (off + size)) := by omega
    unfold slice
    rw [heq, List.take_add, List.drop_drop]
  rw [hfirst, hsecond, List.append_assoc]

/-- Bytes elsewhere are as before. -/
theorem slice_storeBytes_of_disjoint {o : Nat} (hlen : off + bytes.length ≤ d.length)
    (h : o + n ≤ off ∨ off + bytes.length ≤ o) : slice (storeBytes d off bytes) o n = slice d o n := by
  refine slice_congr (storeBytes_length hlen) fun i hi hi' => ?_
  rcases h with h | h
  · exact byteAt_storeBytes_of_lt (by omega) (by omega)
  · exact byteAt_storeBytes_of_ge (by omega) (by omega)

/-- A stretch after a store into it. -/
theorem slice_storeBytes_cut {o : Nat} (h : Holds o n off bytes.length) (hlen : o + n ≤ d.length) :
    slice (storeBytes d off bytes) o n = slice d o (off - o) ++ bytes ++
      slice d (off + bytes.length) (o + n - (off + bytes.length)) := by
  have hstart := h.start
  have hstop := h.stop
  have hfit : off + bytes.length ≤ d.length := by omega
  rw [slice_cut _ h, slice_storeBytes (by omega),
    slice_storeBytes_of_disjoint (o := o) hfit (.inl (by omega)),
    slice_storeBytes_of_disjoint hfit (.inr (by omega))]

/-! ## What a checksum covers -/

/-- Two stretches of a packet, and bytes that follow the second. -/
structure Cover where
  first : Nat
  firstLen : Nat
  second : Nat
  secondLen : Nat
  tail : List UInt8

namespace Cover

variable {k : Cover}

/-- The sum of the words. -/
def sum (k : Cover) (d : List UInt8) : Nat :=
  (Lib.words16 (slice d k.first k.firstLen)).sum +
    (Lib.words16 (slice d k.second k.secondLen ++ k.tail)).sum

/-- The stretches lie one after the other in a packet of this length. -/
structure Fits (k : Cover) (len : Nat) : Prop where
  apart : k.first + k.firstLen ≤ k.second
  stop : k.second + k.secondLen ≤ len

/-- The field is covered. -/
def Covers (k : Cover) (off size : Nat) : Prop :=
  Holds k.first k.firstLen off size ∨ Holds k.second k.secondLen off size

/-- The field is not covered. -/
def Skips (k : Cover) (off size : Nat) : Prop :=
  (k.first + k.firstLen ≤ off ∨ off + size ≤ k.first) ∧
    (k.second + k.secondLen ≤ off ∨ off + size ≤ k.second)

/-- A store into what is covered. -/
theorem sum_store (hk : k.Fits d.length) (h : k.Covers off bytes.length)
    (heven : bytes.length % 2 = 0) :
    k.sum (storeBytes d off bytes) + (Lib.words16 (slice d off bytes.length)).sum =
      k.sum d + (Lib.words16 bytes).sum := by
  obtain ⟨hapart, hstop⟩ := hk
  have hlen : ∀ {o m : Nat}, Holds o m off bytes.length → o + m ≤ d.length →
      (slice d o (off - o)).length % 2 = 0 ∧ (slice d off bytes.length).length % 2 = 0 := by
    intro o m hh hle
    have hstart := hh.start
    have hend := hh.stop
    rw [slice_length (by omega), slice_length (by omega)]
    exact ⟨hh.even, heven⟩
  unfold sum
  rcases h with h | h
  · have hstart := h.start
    have hend := h.stop
    obtain ⟨hpre, hfield⟩ := hlen h (by omega)
    rw [slice_storeBytes_of_disjoint (o := k.second) (by omega) (.inr (by omega)),
      slice_storeBytes_cut h (by omega), slice_cut d h]
    have hsum := Lib.sum_words16_replace (slice d (off + bytes.length)
      (k.first + k.firstLen - (off + bytes.length))) hpre hfield heven
    omega
  · have hstart := h.start
    have hend := h.stop
    obtain ⟨hpre, hfield⟩ := hlen h (by omega)
    rw [slice_storeBytes_of_disjoint (o := k.first) (by omega) (.inl (by omega)),
      slice_storeBytes_cut h (by omega), slice_cut d h, List.append_assoc _ _ k.tail,
      List.append_assoc _ _ k.tail]
    have hsum := Lib.sum_words16_replace (slice d (off + bytes.length)
      (k.second + k.secondLen - (off + bytes.length)) ++ k.tail) hpre hfield heven
    omega

/-- A store elsewhere. -/
theorem sum_store_of_skips (hlen : off + bytes.length ≤ d.length) (h : k.Skips off bytes.length) :
    k.sum (storeBytes d off bytes) = k.sum d := by
  unfold sum
  rw [slice_storeBytes_of_disjoint hlen h.1, slice_storeBytes_of_disjoint hlen h.2]

end Cover

/-! ## Updating a checksum -/

/-- A checksum helper writes a checksum that takes the words that change into account.  A UDP checksum of
zero stands for none, and none comes out of it. -/
theorem csumReplace_spec {mangled : Bool} (old new : List UInt8)
    (hsome : mangled = true → be16 d off ≠ 0) : ∃ sum : UInt16,
      csumReplace d off mangled old new = storeBytes d off (portBytes sum) ∧
        (sum.toNat + (Lib.words16 new).sum) % 65535 =
          ((be16 d off).toNat + (Lib.words16 old).sum) % 65535 ∧ (mangled = true → sum ≠ 0) := by
  have hlt := (be16 d off).toNat_lt
  have hmod := csumUpdate_mod (show (be16 d off).toNat ≤ 65535 by omega) old new
  have hle : csumUpdate (be16 d off).toNat old new ≤ 65535 := Nat.sub_le _ _
  have hnone : ¬(mangled = true ∧ (be16 d off).toNat = 0) := by
    rintro ⟨hm, hz⟩
    exact hsome hm (UInt16.toNat_inj.mp hz)
  refine ⟨_, if_neg hnone, ?_, fun hm hz => ?_⟩
  · by_cases hzero : mangled = true ∧ csumUpdate (be16 d off).toNat old new = 0
    · rw [if_pos hzero, show (UInt16.ofNat 65535).toNat = 65535 from rfl]
      rw [hzero.2] at hmod
      omega
    · rw [if_neg hzero, UInt16.toNat_ofNat_of_lt' (Nat.lt_succ_of_le hle)]
      exact hmod
  · by_cases hzero : csumUpdate (be16 d off).toNat old new = 0
    · rw [if_pos ⟨hm, hzero⟩] at hz
      exact absurd hz (by decide)
    · rw [if_neg fun hboth => hzero hboth.2] at hz
      have hz := congrArg UInt16.toNat hz
      rw [UInt16.toNat_ofNat_of_lt' (Nat.lt_succ_of_le hle)] at hz
      exact hzero hz

/-- No checksum is no checksum. -/
theorem csumReplace_none {mangled : Bool} (hm : mangled = true) (hz : be16 d off = 0)
    (old new : List UInt8) : csumReplace d off mangled old new = d :=
  if_pos ⟨hm, congrArg UInt16.toNat hz⟩

namespace Cover

variable {k : Cover} {mangled : Bool}

/-- An update of a covered checksum. -/
theorem sum_csum (hk : k.Fits d.length) (h : k.Covers off 2) (hlen : off + 2 ≤ d.length)
    (old new : List UInt8) (hsome : mangled = true → be16 d off ≠ 0) :
    (k.sum (csumReplace d off mangled old new) + (Lib.words16 new).sum) % 65535 =
      (k.sum d + (Lib.words16 old).sum) % 65535 := by
  obtain ⟨sum, heq, hmod, -⟩ := csumReplace_spec old new hsome
  have hstore : k.sum (storeBytes d off (portBytes sum)) +
      (Lib.words16 (slice d off (portBytes sum).length)).sum =
        k.sum d + (Lib.words16 (portBytes sum)).sum :=
    sum_store hk h (by rw [portBytes_length])
  rw [sum_portBytes, portBytes_length, sum_slice_two hlen] at hstore
  rw [heq]
  omega

/-- An update of another one. -/
theorem sum_csum_of_skips (h : k.Skips off 2) (hlen : off + 2 ≤ d.length) (mangled : Bool)
    (old new : List UInt8) : k.sum (csumReplace d off mangled old new) = k.sum d := by
  by_cases hnone : mangled = true ∧ be16 d off = 0
  · rw [csumReplace_none hnone.1 hnone.2]
  · obtain ⟨sum, heq, -⟩ := csumReplace_spec old new fun hm hz => hnone ⟨hm, hz⟩
    rw [heq]
    exact sum_store_of_skips (by simpa using hlen) h

end Cover

/-- A slice away from a checksum. -/
theorem slice_csumReplace {o : Nat} (hlen : off + 2 ≤ d.length) (h : o + n ≤ off ∨ off + 2 ≤ o)
    (mangled : Bool) (old new : List UInt8) :
    slice (csumReplace d off mangled old new) o n = slice d o n :=
  slice_congr (csumReplace_length hlen ..) fun _ hi hi' => byteAt_csumReplace hlen (by omega) ..

/-- A checksum is updated for each of some changes. -/
def updates (cs : Nat) (mangled : Bool) : List UInt8 → List (List UInt8 × List UInt8) → List UInt8
  | d, [] => d
  | d, p :: l => updates cs mangled (csumReplace d cs mangled p.1 p.2) l

section updates

variable {cs : Nat} {mangled : Bool} {k : Cover}

theorem updates_cons (p : List UInt8 × List UInt8) (l : List (List UInt8 × List UInt8)) :
    updates cs mangled d (p :: l) = updates cs mangled (csumReplace d cs mangled p.1 p.2) l := rfl

theorem updates_length (l : List (List UInt8 × List UInt8)) (hlen : cs + 2 ≤ d.length) :
    (updates cs mangled d l).length = d.length := by
  induction l generalizing d with
  | nil => rfl
  | cons p l ih =>
      have hsame : (csumReplace d cs mangled p.1 p.2).length = d.length := csumReplace_length hlen ..
      rw [updates_cons, ih (by omega), hsame]

theorem slice_updates {o : Nat} (l : List (List UInt8 × List UInt8)) (hlen : cs + 2 ≤ d.length)
    (h : o + n ≤ cs ∨ cs + 2 ≤ o) : slice (updates cs mangled d l) o n = slice d o n := by
  induction l generalizing d with
  | nil => rfl
  | cons p l ih =>
      have hsame : (csumReplace d cs mangled p.1 p.2).length = d.length := csumReplace_length hlen ..
      rw [updates_cons, ih (by omega)]
      exact slice_csumReplace hlen h ..

theorem sum_updates_of_skips (l : List (List UInt8 × List UInt8)) (hlen : cs + 2 ≤ d.length)
    (h : k.Skips cs 2) : k.sum (updates cs mangled d l) = k.sum d := by
  induction l generalizing d with
  | nil => rfl
  | cons p l ih =>
      have hsame : (csumReplace d cs mangled p.1 p.2).length = d.length := csumReplace_length hlen ..
      rw [updates_cons, ih (by omega)]
      exact k.sum_csum_of_skips h hlen ..

theorem updates_none (l : List (List UInt8 × List UInt8)) (hm : mangled = true)
    (hz : be16 d cs = 0) : updates cs mangled d l = d := by
  induction l with
  | nil => rfl
  | cons p l ih =>
      rw [updates_cons, csumReplace_none hm hz]
      exact ih

/-- All changes are taken into account, and a checksum of UDP stays one. -/
theorem updates_some (l : List (List UInt8 × List UInt8)) (hlen : cs + 2 ≤ d.length)
    (hsome : mangled = true → be16 d cs ≠ 0) :
    (mangled = true → be16 (updates cs mangled d l) cs ≠ 0) ∧
      ∀ {k : Cover}, k.Fits d.length → k.Covers cs 2 →
        (k.sum (updates cs mangled d l) + (l.map fun p => (Lib.words16 p.2).sum).sum) % 65535 =
          (k.sum d + (l.map fun p => (Lib.words16 p.1).sum).sum) % 65535 := by
  induction l generalizing d with
  | nil => exact ⟨hsome, fun _ _ => rfl⟩
  | cons p l ih =>
      have hsame : (csumReplace d cs mangled p.1 p.2).length = d.length := csumReplace_length hlen ..
      obtain ⟨sum, heq, -, hne⟩ := csumReplace_spec p.1 p.2 hsome
      have hsome' : mangled = true → be16 (csumReplace d cs mangled p.1 p.2) cs ≠ 0 := by
        intro hm
        rw [heq, be16_of_slice (slice_storeBytes (by omega))]
        exact hne hm
      obtain ⟨hz, hsum⟩ := ih (by omega) hsome'
      refine ⟨hz, fun {k} hk hcov => ?_⟩
      have hstep := k.sum_csum hk hcov hlen p.1 p.2 hsome
      have hrest := hsum (hsame.symm ▸ hk) hcov
      rw [updates_cons, List.map_cons, List.sum_cons, List.map_cons, List.sum_cons]
      omega

end updates

/-! ## Rewriting -/

/-- The two stores that end a rewrite. -/
def stores (d : List UInt8) (addressOff portOff : Nat) (address port : List UInt8) : List UInt8 :=
  storeBytes (storeBytes d addressOff address) portOff port

/-- An address, a port behind it and a checksum behind the port. -/
structure Layout (len addressOff size portOff cs : Nat) : Prop where
  address : addressOff + size ≤ portOff
  port : portOff + 2 ≤ cs
  stop : cs + 2 ≤ len

section stores

variable {addressOff size portOff cs : Nat} {address port : List UInt8} {k : Cover}

theorem stores_length (hl : Layout d.length addressOff size portOff cs) (ha : address.length = size)
    (hp : port.length = 2) : (stores d addressOff portOff address port).length = d.length := by
  obtain ⟨h₁, h₂, h₃⟩ := hl
  have hfirst : (storeBytes d addressOff address).length = d.length := storeBytes_length (by omega)
  exact (storeBytes_length (by omega)).trans hfirst

theorem slice_stores {o : Nat} (hl : Layout d.length addressOff size portOff cs)
    (ha : address.length = size) (hp : port.length = 2)
    (h : (o + n ≤ addressOff ∨ addressOff + size ≤ o) ∧ (o + n ≤ portOff ∨ portOff + 2 ≤ o)) :
    slice (stores d addressOff portOff address port) o n = slice d o n := by
  obtain ⟨h₁, h₂, h₃⟩ := hl
  have hfirst : (storeBytes d addressOff address).length = d.length := storeBytes_length (by omega)
  unfold stores
  rw [slice_storeBytes_of_disjoint (by omega) (by omega),
    slice_storeBytes_of_disjoint (by omega) (by omega)]

/-- The sum moves by the new words less the old ones. -/
theorem sum_stores (hl : Layout d.length addressOff size portOff cs) (ha : address.length = size)
    (hp : port.length = 2) (hsize : size % 2 = 0) (hk : k.Fits d.length)
    (haddr : k.Covers addressOff size) :
    (k.Covers portOff 2 → k.sum (stores d addressOff portOff address port) +
        (Lib.words16 (slice d addressOff size)).sum + (Lib.words16 (slice d portOff 2)).sum =
      k.sum d + (Lib.words16 address).sum + (Lib.words16 port).sum) ∧
    (k.Skips portOff 2 → k.sum (stores d addressOff portOff address port) +
        (Lib.words16 (slice d addressOff size)).sum = k.sum d + (Lib.words16 address).sum) := by
  obtain ⟨h₁, h₂, h₃⟩ := hl
  subst ha
  have hfirst : (storeBytes d addressOff address).length = d.length := storeBytes_length (by omega)
  have hsum := k.sum_store hk haddr hsize
  refine ⟨fun hport => ?_, fun hport => ?_⟩
  · have hsum' := k.sum_store (d := storeBytes d addressOff address) (hfirst.symm ▸ hk)
      (hp.symm ▸ hport) (by rw [hp])
    rw [hp, slice_storeBytes_of_disjoint (by omega) (.inr h₁)] at hsum'
    unfold stores
    omega
  · unfold stores
    rw [k.sum_store_of_skips (by omega) (hp.symm ▸ hport)]
    exact hsum

/-- **A rewrite keeps what a covering checksum says.** -/
theorem sum_rewrite {mangled : Bool} {l : List (List UInt8 × List UInt8)}
    (hl : Layout d.length addressOff size portOff cs) (ha : address.length = size)
    (hp : port.length = 2) (hsize : size % 2 = 0) (hk : k.Fits d.length)
    (haddr : k.Covers addressOff size) (hport : k.Covers portOff 2) (hcs : k.Covers cs 2)
    (hsome : mangled = true → be16 d cs ≠ 0)
    (hold : (l.map fun p => (Lib.words16 p.1).sum).sum =
      (Lib.words16 (slice d addressOff size)).sum + (Lib.words16 (slice d portOff 2)).sum)
    (hnew : (l.map fun p => (Lib.words16 p.2).sum).sum =
      (Lib.words16 address).sum + (Lib.words16 port).sum) :
    k.sum (stores (updates cs mangled d l) addressOff portOff address port) % 65535 =
      k.sum d % 65535 := by
  have hstop := hl.stop
  have haddress := hl.address
  have hlen : (updates cs mangled d l).length = d.length := updates_length l hstop
  have hupdates := (updates_some l hstop hsome).2 hk hcs
  have hstores := (sum_stores (hlen.symm ▸ hl) ha hp hsize (hlen.symm ▸ hk) haddr).1 hport
  rw [slice_updates l hstop (.inl (by have := hl.port; omega)),
    slice_updates l hstop (.inl hl.port)] at hstores
  omega

end stores

end Bpf2Socks.Tc
