/-
# Bpf2Socks.Tc.Packet — the bytes of a packet, and the helpers that change them.

A packet is the byte string the driver hands over, from the Ethernet header on; the first `headlen`
bytes are linear, which is what `data` and `data_end` delimit.  Header fields are read off the bytes
at the offsets of `struct ethernet_header`, `struct ipv4_header` and so on.

Checksums are one's complement sums of 16-bit words.  A sum of several words is folded to sixteen
bits with end-around carry: it is zero only when every word is, and otherwise the representative
between 1 and 65535 of the sum modulo 65535, whatever the order or width of the additions.
-/
import Mathlib.Data.List.GetD
import Mathlib.Algebra.GroupWithZero.Nat
import Mathlib.Algebra.BigOperators.Group.List.Basic

namespace Bpf2Socks.Tc

/-- `struct __sk_buff`, as far as the programs read it. -/
structure Skb where
  ifindex : UInt32
  data : List UInt8
  headlen : Nat
  deriving DecidableEq

/-- The byte at an offset. -/
def byteAt (d : List UInt8) (off : Nat) : UInt8 := d.getD off 0

/-- `swap16` of the 16-bit word at an offset: its value in network order. -/
def be16 (d : List UInt8) (off : Nat) : UInt16 :=
  (byteAt d off).toUInt16 <<< 8 ||| (byteAt d (off + 1)).toUInt16

/-- The 16-bit word at an offset as a little-endian machine loads it. -/
def raw16 (d : List UInt8) (off : Nat) : UInt16 :=
  (byteAt d (off + 1)).toUInt16 <<< 8 ||| (byteAt d off).toUInt16

/-- The 32-bit word at an offset as a little-endian machine loads it. -/
def raw32 (d : List UInt8) (off : Nat) : UInt32 :=
  (raw16 d (off + 2)).toUInt32 <<< 16 ||| (raw16 d off).toUInt32

/-- `n` bytes from an offset. -/
def slice (d : List UInt8) (off n : Nat) : List UInt8 := (d.drop off).take n

/-- The two bytes of a port in network order. -/
def portBytes (port : UInt16) : List UInt8 := [(port >>> 8).toUInt8, port.toUInt8]

/-- The bytes of a packet after `skb_store_bytes`. -/
def storeBytes (d : List UInt8) (off : Nat) (bytes : List UInt8) : List UInt8 :=
  d.take off ++ bytes ++ d.drop (off + bytes.length)

/-! ## Checksums -/

/-- The 16-bit words of a byte string, in network order. -/
def words16 : List UInt8 → List Nat
  | a :: b :: rest => (a.toNat * 256 + b.toNat) :: words16 rest
  | [a] => [a.toNat * 256]
  | [] => []

/-- A sum folded to sixteen bits with end-around carry. -/
def foldSum (n : Nat) : Nat := if n = 0 then 0 else (n - 1) % 65535 + 1

/-- The checksum after some of the words it covers changed: the complement of the old sum, less the
old words, plus the new ones. -/
def csumUpdate (sum : Nat) (old new : List UInt8) : Nat :=
  65535 - foldSum ((65535 - sum) + ((words16 old).map (65535 - ·)).sum + (words16 new).sum)

/-- `l3_csum_replace` and `l4_csum_replace` on the checksum at `off`.  With
`BPF_F_MARK_MANGLED_0` (`mangled`, set for UDP) a checksum of zero means "none" and stays, and a
result of zero is written as `0xffff`. -/
def csumReplace (d : List UInt8) (off : Nat) (mangled : Bool) (old new : List UInt8) :
    List UInt8 :=
  let sum := (be16 d off).toNat
  if mangled ∧ sum = 0 then d
  else
    let sum' := csumUpdate sum old new
    storeBytes d off (portBytes (UInt16.ofNat (if mangled ∧ sum' = 0 then 65535 else sum')))

@[simp] theorem portBytes_length (port : UInt16) : (portBytes port).length = 2 := rfl

theorem storeBytes_length {d : List UInt8} {off : Nat} {bytes : List UInt8}
    (h : off + bytes.length ≤ d.length) : (storeBytes d off bytes).length = d.length := by
  simp only [storeBytes, List.length_append, List.length_take, List.length_drop]
  omega

/-- What was stored is read back. -/
theorem slice_storeBytes {d : List UInt8} {off : Nat} {bytes : List UInt8}
    (h : off ≤ d.length) : slice (storeBytes d off bytes) off bytes.length = bytes := by
  have hl : (d.take off).length = off := by simp [h]
  rw [slice, storeBytes, List.append_assoc, List.drop_left' hl, List.take_left]

/-- Bytes outside the stored range are as before. -/
theorem byteAt_storeBytes_of_lt {d : List UInt8} {off i : Nat} {bytes : List UInt8}
    (h : off ≤ d.length) (hi : i < off) : byteAt (storeBytes d off bytes) i = byteAt d i := by
  have hl : (d.take off).length = off := by simp [h]
  rw [byteAt, byteAt, storeBytes, List.append_assoc, List.getD_append _ _ _ _ (by omega)]
  simp [List.getD_eq_getElem?_getD, hi]

theorem byteAt_storeBytes_of_ge {d : List UInt8} {off i : Nat} {bytes : List UInt8}
    (h : off ≤ d.length) (hi : off + bytes.length ≤ i) :
    byteAt (storeBytes d off bytes) i = byteAt d i := by
  have hl : (d.take off).length = off := by simp [h]
  rw [byteAt, byteAt, storeBytes, List.getD_append_right _ _ _ _ (by simp; omega)]
  simp only [List.length_append, hl, List.getD_eq_getElem?_getD, List.getElem?_drop]
  congr 2
  omega

end Bpf2Socks.Tc
