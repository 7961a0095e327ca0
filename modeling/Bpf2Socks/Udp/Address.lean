/-
# Bpf2Socks.Udp.Address — socket addresses, their keys and their hashes.

Two address types occur in the UDP worker.  A `Sockaddr` is what the kernel fills in for a client
(`struct sockaddr_storage` with its length); sessions are keyed by it through `sameSockaddr` and
`sockaddrHash`.  A `DstAddr` is `struct bpf2socks_sockaddr`; reply bindings are keyed by it through
`sameKey` and `bindingHash`.

The one thing the tables rely on is proved here: both key comparisons are equivalences, and equal
keys have equal hashes.
-/
import Mathlib.Data.List.Basic

namespace Bpf2Socks.Udp

/-- Address families, by their kernel codes. -/
inductive Family where
  | unspec
  | inet
  | inet6
  | other (code : UInt16)
  deriving DecidableEq

/-- The numeric `AF_*` value. -/
def Family.code : Family → UInt16
  | .unspec => 0
  | .inet => 2
  | .inet6 => 10
  | .other c => c

/-- `struct sockaddr_storage` with its `socklen_t`: the family and the bytes after it, as many as
the length says.  For `AF_INET` these are port (2), address (4) and padding; for `AF_INET6` port
(2), flow information (4), address (16) and scope (4). -/
structure Sockaddr where
  family : Family
  data : List UInt8
  deriving DecidableEq

/-- `struct bpf2socks_sockaddr`: `addr` is its 16-byte array, of which an IPv4 address uses the
first four. -/
structure DstAddr where
  family : Family
  port : UInt16
  addr : List UInt8
  deriving DecidableEq

/-! ## Client addresses -/

/-- `same_sockaddr`: IPv4 compares port and address only, everything else byte for byte. -/
def sameSockaddr (a b : Sockaddr) : Bool :=
  if a.family ≠ b.family ∨ a.data.length ≠ b.data.length then false
  else if a.family = .inet then a.data.take 6 == b.data.take 6
  else a.data == b.data

/-- `bpf2socks_hash_bytes`: 32-bit FNV-1a. -/
def hashBytes (bytes : List UInt8) : UInt32 :=
  bytes.foldl (fun hash byte => (hash ^^^ byte.toUInt32) * 16777619) 2166136261

/-- The two bytes of a 16-bit value as a little-endian machine stores it. -/
def bytes16 (x : UInt16) : List UInt8 := [x.toUInt8, (x >>> 8).toUInt8]

/-- `sockaddr_hash`: IPv4 hashes family, port and address, everything else the whole address. -/
def sockaddrHash (a : Sockaddr) : UInt32 :=
  if a.family = .inet then hashBytes (bytes16 Family.inet.code ++ a.data.take 6)
  else hashBytes (bytes16 a.family.code ++ a.data)

/-- `BPF2SOCKS_SESSION_HASH_BUCKETS`. -/
def sessionHashBuckets : Nat := 4096

/-- `session_bucket`. -/
def sessionBucket (a : Sockaddr) : Nat := (sockaddrHash a).toNat % sessionHashBuckets

/-- What `same_sockaddr` looks at. -/
def sockaddrKey (a : Sockaddr) : Family × Nat × List UInt8 :=
  (a.family, a.data.length, if a.family = .inet then a.data.take 6 else a.data)

theorem sameSockaddr_iff {a b : Sockaddr} :
    sameSockaddr a b = true ↔ sockaddrKey a = sockaddrKey b := by
  unfold sameSockaddr sockaddrKey
  by_cases hf : a.family = b.family
  · by_cases hl : a.data.length = b.data.length
    · rw [if_neg (by simp [hf, hl]), hf, hl]
      split <;> simp
    · simp [hl]
  · simp [hf]

theorem sameSockaddr_refl (a : Sockaddr) : sameSockaddr a a = true :=
  sameSockaddr_iff.2 rfl

theorem sameSockaddr_symm {a b : Sockaddr} (h : sameSockaddr a b = true) :
    sameSockaddr b a = true :=
  sameSockaddr_iff.2 (sameSockaddr_iff.1 h).symm

/-- Equal client keys share a bucket. -/
theorem sessionBucket_congr {a b : Sockaddr} (h : sameSockaddr a b = true) :
    sessionBucket a = sessionBucket b := by
  have hk := sameSockaddr_iff.1 h
  simp only [sockaddrKey, Prod.mk.injEq] at hk
  obtain ⟨hf, -, hd⟩ := hk
  unfold sessionBucket sockaddrHash
  rw [← hf] at hd ⊢
  split at hd
  · rename_i hi
    rw [if_pos hi, if_pos hi, hd]
  · rename_i hi
    rw [if_neg hi, if_neg hi, hd]

/-- `bpf2socks_sockaddr_is_loopback`: 127.0.0.0/8, `::1`, or a v4-mapped 127.0.0.0/8. -/
def sockaddrIsLoopback (a : Sockaddr) : Bool :=
  match a.family with
  | .inet => (a.data.drop 2).take 1 == [127]
  | .inet6 =>
      let in6 := (a.data.drop 6).take 16
      in6 == List.replicate 15 0 ++ [1] ||
        ((in6.take 12 == List.replicate 10 0 ++ [255, 255]) && (in6.drop 12).take 1 == [127])
  | _ => false

/-- The client's port, in network order at the start of the data for both families. -/
def sockaddrPort (a : Sockaddr) : UInt16 :=
  match a.data with
  | hi :: lo :: _ => hi.toUInt16 <<< 8 ||| lo.toUInt16
  | _ => 0

/-! ## Destination addresses -/

/-- `valid_original`. -/
def validOriginal (a : DstAddr) : Bool := a.family = .inet || a.family = .inet6

/-- The bytes of `addr` that count: 16 for IPv6, 4 otherwise. -/
def addressLength (a : DstAddr) : Nat := if a.family = .inet6 then 16 else 4

/-- The comparison of `same_key` on the address part of the key. -/
def sameDst (a b : DstAddr) : Bool :=
  a.family = b.family && a.port = b.port &&
    a.addr.take (addressLength b) == b.addr.take (addressLength b)

/-- One round of the 64-bit FNV-1a of `hash_bytes` in the binding index. -/
def hashBytes64 (hash : UInt64) (bytes : List UInt8) : UInt64 :=
  bytes.foldl (fun h b => (h ^^^ b.toUInt64) * 1099511628211) hash

/-- Little-endian bytes of a number. -/
def bytesLE : Nat → Nat → List UInt8
  | 0, _ => []
  | n + 1, x => UInt8.ofNat (x % 256) :: bytesLE n (x / 256)

/-- `binding_hash`: owner pointer, family, port and address.  The slot number stands for the
address of the owner's record. -/
def bindingHash (owner : Nat) (a : DstAddr) : UInt64 :=
  let h := hashBytes64 1469598103934665603 (bytesLE 8 owner)
  let h := hashBytes64 h (bytesLE 4 a.family.code.toNat)
  let h := hashBytes64 h (bytes16 a.port)
  hashBytes64 h (a.addr.take (addressLength a))

theorem sameDst_iff {a b : DstAddr} : sameDst a b = true ↔
    a.family = b.family ∧ a.port = b.port ∧
      a.addr.take (addressLength b) = b.addr.take (addressLength b) := by
  simp [sameDst, and_assoc]

theorem addressLength_congr {a b : DstAddr} (h : a.family = b.family) :
    addressLength a = addressLength b := by
  simp [addressLength, h]

theorem sameDst_refl (a : DstAddr) : sameDst a a = true := by
  simp [sameDst]

theorem sameDst_symm {a b : DstAddr} (h : sameDst a b = true) : sameDst b a = true := by
  obtain ⟨hf, hp, ha⟩ := sameDst_iff.1 h
  exact sameDst_iff.2 ⟨hf.symm, hp.symm, by rw [addressLength_congr hf]; exact ha.symm⟩

theorem sameDst_trans {a b c : DstAddr} (h : sameDst a b = true) (h' : sameDst b c = true) :
    sameDst a c = true := by
  obtain ⟨hf, hp, ha⟩ := sameDst_iff.1 h
  obtain ⟨hf', hp', ha'⟩ := sameDst_iff.1 h'
  rw [addressLength_congr hf'] at ha
  exact sameDst_iff.2 ⟨hf.trans hf', hp.trans hp', ha.trans ha'⟩

theorem validOriginal_congr {a b : DstAddr} (h : sameDst a b = true) :
    validOriginal a = validOriginal b := by
  obtain ⟨hf, -, -⟩ := sameDst_iff.1 h
  simp [validOriginal, hf]

/-- Equal binding keys have equal hashes. -/
theorem bindingHash_congr (owner : Nat) {a b : DstAddr} (h : sameDst a b = true) :
    bindingHash owner a = bindingHash owner b := by
  obtain ⟨hf, hp, ha⟩ := sameDst_iff.1 h
  simp only [bindingHash, hf, hp, addressLength_congr hf, ha]

end Bpf2Socks.Udp
