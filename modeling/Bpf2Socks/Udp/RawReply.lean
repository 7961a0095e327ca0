/-
# Bpf2Socks.Udp.RawReply — replies built whole, with their headers.

Where no socket can be bound to the address a reply must come from, the reply is sent through a raw
socket: the program writes the IP and the UDP header itself, checksums and all.  The checksums are
summed in host order, piece by piece in a 32-bit accumulator, folded once at the end and stored in
network order.

What is built is a byte string here, together with the address it is sent to.
-/
import Bpf2Socks.Lib.OnesComplement
import Bpf2Socks.Udp.State
import Mathlib.Data.List.GetD

namespace Bpf2Socks.Udp

open Lib (words16 foldSum Verifies)

/-! ## Checksums -/

/-- `bpf2socks_udp_checksum_add_bytes`. -/
def checksumAddBytes (sum : UInt32) : List UInt8 → UInt32
  | a :: b :: rest => checksumAddBytes (sum + (a.toUInt32 <<< 8 ||| b.toUInt32)) rest
  | [a] => sum + a.toUInt32 <<< 8
  | [] => sum

/-- The loop of `bpf2socks_udp_checksum_fold`, for at most so many rounds. -/
def foldRounds : Nat → UInt32 → UInt32
  | 0, sum => sum
  | n + 1, sum => if sum >>> 16 = 0 then sum else foldRounds n ((sum &&& (0xffff : UInt32)) + (sum >>> 16))

/-- `bpf2socks_udp_checksum_fold`; two rounds are enough, as `foldRounds_done` says. -/
def checksumFold (sum : UInt32) : UInt16 := ~~~(foldRounds 2 sum).toUInt16

/-- The checksum of several pieces, one after the other. -/
def checksumOf (pieces : List (List UInt8)) : UInt16 :=
  checksumFold (pieces.foldl checksumAddBytes 0)

/-- A UDP checksum is never written as zero. -/
def udpChecksumOf (pieces : List (List UInt8)) : UInt16 :=
  let result := checksumOf pieces
  if result = 0 then 0xffff else result

/-! ## Headers -/

/-- `htons`: the bytes in network order. -/
def htons (x : UInt16) : List UInt8 := [(x >>> 8).toUInt8, x.toUInt8]

/-- A field of a record, whose memory beyond what was written is zero. -/
def fieldOf (data : List UInt8) (off n : Nat) : List UInt8 :=
  (List.range n).map fun i => data.getD (off + i) 0

/-- `IPPROTO_UDP`. -/
def ipprotoUdp : UInt8 := 17

/-- `struct iphdr`, as `bpf2socks_udp_raw_send4` fills it in. -/
def iphdr (totLen id check : UInt16) (saddr daddr : List UInt8) : List UInt8 :=
  [0x45, 0] ++ htons totLen ++ htons id ++ [0, 0, 64, ipprotoUdp] ++ htons check ++ (saddr ++ daddr)

/-- `struct ipv6hdr`, as `bpf2socks_udp_raw_send6` fills it in. -/
def ipv6hdr (payloadLen : UInt16) (saddr daddr : List UInt8) : List UInt8 :=
  [0x60, 0, 0, 0] ++ htons payloadLen ++ [ipprotoUdp, 64] ++ saddr ++ daddr

/-- `struct bpf2socks_udp_header`; the destination port is in network order already. -/
def udpHeader (source : UInt16) (dest : List UInt8) (len check : UInt16) : List UInt8 :=
  htons source ++ dest ++ htons len ++ htons check

/-- The pseudo header of `udp_ipv4_checksum`. -/
def pseudo4 (saddr daddr : List UInt8) (len : UInt16) : List UInt8 :=
  saddr ++ daddr ++ [0, ipprotoUdp] ++ htons len

/-- The pseudo header of `udp_ipv6_checksum`: the length has four bytes. -/
def pseudo6 (saddr daddr : List UInt8) (len : Nat) : List UInt8 :=
  saddr ++ daddr ++ [0, 0] ++ htons (UInt16.ofNat len) ++ [0, 0, 0, ipprotoUdp]

/-! ## Raw replies -/

/-- Why no packet is built. -/
inductive RawError where
  | eafnosupport
  | emsgsize
  deriving DecidableEq

/-- What is handed to `sendto`. -/
structure RawPacket where
  bytes : List UInt8
  destination : Sockaddr
  deriving DecidableEq

/-- `bpf2socks_udp_raw_send4`, with the time of day as the identification. -/
def rawSend4 (id : UInt16) (client : Sockaddr) (originalDst : DstAddr) (payload : List UInt8) :
    Except RawError RawPacket :=
  if client.family ≠ .inet ∨ originalDst.family ≠ .inet then .error .eafnosupport
  else
    let udpLen := 8 + payload.length
    let ipLen := 20 + udpLen
    if 65535 < ipLen ∨ udpBufferSize < payload.length then .error .emsgsize
    else
      let saddr := fieldOf originalDst.addr 0 4
      let daddr := fieldOf client.data 2 4
      let ip := fun check => iphdr (UInt16.ofNat ipLen) id check saddr daddr
      let udp := fun check =>
        udpHeader originalDst.port (fieldOf client.data 0 2) (UInt16.ofNat udpLen) check
      let udpCheck := udpChecksumOf [pseudo4 saddr daddr (UInt16.ofNat udpLen), udp 0, payload]
      .ok ⟨ip (checksumOf [ip 0]) ++ udp udpCheck ++ payload, client⟩

/-- `bpf2socks_udp_raw_send6`; the packet is addressed without a port. -/
def rawSend6 (client : Sockaddr) (originalDst : DstAddr) (payload : List UInt8) :
    Except RawError RawPacket :=
  if client.family ≠ .inet6 ∨ originalDst.family ≠ .inet6 then .error .eafnosupport
  else
    let udpLen := 8 + payload.length
    if 65535 < udpLen ∨ udpBufferSize < payload.length then .error .emsgsize
    else
      let saddr := fieldOf originalDst.addr 0 16
      let daddr := fieldOf client.data 6 16
      let udp := fun check =>
        udpHeader originalDst.port (fieldOf client.data 0 2) (UInt16.ofNat udpLen) check
      let udpCheck := udpChecksumOf [pseudo6 saddr daddr udpLen, udp 0, payload]
      .ok ⟨ipv6hdr (UInt16.ofNat udpLen) saddr daddr ++ udp udpCheck ++ payload,
        { client with data := [0, 0] ++ client.data.drop 2 }⟩

/-! ## What a valid packet is -/

/-- The bytes of a packet from an offset. -/
def packetSlice (bytes : List UInt8) (off n : Nat) : List UInt8 := (bytes.drop off).take n

/-- A 16-bit field of a packet. -/
def packetWord (bytes : List UInt8) (off : Nat) : Nat :=
  (bytes.getD off 0).toNat * 256 + (bytes.getD (off + 1) 0).toNat

/-- The pseudo header of an IPv4 packet. -/
def pseudoOf4 (bytes : List UInt8) : List UInt8 :=
  packetSlice bytes 12 8 ++ [0, bytes.getD 9 0] ++ packetSlice bytes 24 2

/-- The pseudo header of an IPv6 packet. -/
def pseudoOf6 (bytes : List UInt8) : List UInt8 :=
  packetSlice bytes 8 32 ++ [0, 0] ++ packetSlice bytes 44 2 ++ [0, 0, 0, bytes.getD 6 0]

/-- The exact sums an accumulator goes through over a piece. -/
def partialSums (sum : Nat) : List UInt8 → List Nat
  | a :: b :: rest =>
      (sum + (a.toNat * 256 + b.toNat)) :: partialSums (sum + (a.toNat * 256 + b.toNat)) rest
  | [a] => [sum + a.toNat * 256]
  | [] => []

/-- The exact sums it goes through over several pieces. -/
def partialSumsOf (sum : Nat) : List (List UInt8) → List Nat
  | [] => []
  | piece :: pieces => partialSums sum piece ++ partialSumsOf (sum + (words16 piece).sum) pieces

/-- A 32-bit accumulator does not overflow over the pieces. -/
def Fits32 (pieces : List (List UInt8)) : Prop := ∀ s ∈ partialSumsOf 0 pieces, s < 2 ^ 32

/-- A reply in an IPv4 packet from the address of a binding to a client. -/
structure ValidReply4 (client : Sockaddr) (dst : DstAddr) (payload bytes : List UInt8) : Prop where
  totalLength : packetWord bytes 2 = bytes.length
  udpLength : 20 + packetWord bytes 24 = bytes.length
  body : bytes.drop 28 = payload
  headerSum : Verifies (bytes.take 20)
  udpSum : Verifies (pseudoOf4 bytes ++ bytes.drop 20)
  checksumSet : packetWord bytes 26 ≠ 0
  sourceAddr : packetSlice bytes 12 4 = fieldOf dst.addr 0 4
  sourcePort : packetWord bytes 20 = dst.port.toNat
  destinationAddr : packetSlice bytes 16 4 = fieldOf client.data 2 4
  destinationPort : packetSlice bytes 22 2 = fieldOf client.data 0 2
  /-- The pieces are those of the packet with the checksums still zero. -/
  headerFits : Fits32 [bytes.take 10 ++ [0, 0] ++ packetSlice bytes 12 8]
  udpFits : Fits32 [pseudoOf4 bytes, packetSlice bytes 20 6 ++ [0, 0], payload]

/-- The same in an IPv6 packet. -/
structure ValidReply6 (client : Sockaddr) (dst : DstAddr) (payload bytes : List UInt8) : Prop where
  payloadLength : 40 + packetWord bytes 4 = bytes.length
  udpLength : 40 + packetWord bytes 44 = bytes.length
  body : bytes.drop 48 = payload
  udpSum : Verifies (pseudoOf6 bytes ++ bytes.drop 40)
  checksumSet : packetWord bytes 46 ≠ 0
  sourceAddr : packetSlice bytes 8 16 = fieldOf dst.addr 0 16
  sourcePort : packetWord bytes 40 = dst.port.toNat
  destinationAddr : packetSlice bytes 24 16 = fieldOf client.data 6 16
  destinationPort : packetSlice bytes 42 2 = fieldOf client.data 0 2
  udpFits : Fits32 [pseudoOf6 bytes, packetSlice bytes 40 6 ++ [0, 0], payload]

/-! ## The accumulator -/

theorem toNat_word (a b : UInt8) : (a.toUInt32 <<< 8 ||| b.toUInt32).toNat = a.toNat * 256 + b.toNat := by
  have ha := a.toNat_lt
  have hb := b.toNat_lt
  rw [UInt32.toNat_or, UInt32.toNat_shiftLeft, UInt8.toNat_toUInt32, UInt8.toNat_toUInt32]
  have hshift : a.toNat <<< ((8 : UInt32).toNat % 32) % 2 ^ 32 = a.toNat <<< 8 := by
    show a.toNat <<< 8 % 2 ^ 32 = a.toNat <<< 8
    rw [Nat.shiftLeft_eq]
    omega
  rw [hshift, ← Nat.shiftLeft_add_eq_or_of_lt (by omega), Nat.shiftLeft_eq]

theorem toNat_high (a : UInt8) : (a.toUInt32 <<< 8).toNat = a.toNat * 256 := by
  have h := toNat_word a 0
  rwa [show (0 : UInt8).toUInt32 = 0 from rfl, UInt32.or_zero, UInt8.toNat_zero, Nat.add_zero] at h

/-- Without overflow the accumulator holds the exact sum. -/
theorem toNat_checksumAddBytes : ∀ (bytes : List UInt8) (sum : UInt32),
    sum.toNat + (words16 bytes).sum < 4294967296 →
    (checksumAddBytes sum bytes).toNat = sum.toNat + (words16 bytes).sum
  | [], _, _ => rfl
  | [a], sum, h => by
      rw [Lib.sum_words16_one] at h ⊢
      rw [checksumAddBytes, UInt32.toNat_add, toNat_high]
      exact Nat.mod_eq_of_lt h
  | a :: b :: rest, sum, h => by
      rw [Lib.sum_words16_two] at h ⊢
      have hsum : sum.toNat + (a.toNat * 256 + b.toNat) < 4294967296 :=
        Nat.lt_of_le_of_lt (Nat.add_le_add_left (Nat.le_add_right _ _) _) h
      have hstep : (sum + (a.toUInt32 <<< 8 ||| b.toUInt32)).toNat =
          sum.toNat + (a.toNat * 256 + b.toNat) := by
        rw [UInt32.toNat_add, toNat_word]
        exact Nat.mod_eq_of_lt hsum
      have hrest := toNat_checksumAddBytes rest (sum + (a.toUInt32 <<< 8 ||| b.toUInt32))
        (by rw [hstep, Nat.add_assoc]; exact h)
      have hunfold : checksumAddBytes sum (a :: b :: rest) =
          checksumAddBytes (sum + (a.toUInt32 <<< 8 ||| b.toUInt32)) rest := rfl
      rw [hunfold, hrest, hstep, Nat.add_assoc]

/-- The exact sums never exceed the last. -/
theorem partialSums_le : ∀ (bytes : List UInt8) {sum s : Nat}, s ∈ partialSums sum bytes →
    s ≤ sum + (words16 bytes).sum
  | [], _, _, h => (nomatch h)
  | [a], sum, s, h => by
      rw [Lib.sum_words16_one]
      exact Nat.le_of_eq (List.mem_singleton.mp h)
  | a :: b :: rest, sum, s, h => by
      rw [Lib.sum_words16_two]
      rcases List.mem_cons.mp h with rfl | h
      · omega
      · have hrest := partialSums_le rest h
        omega

/-- The sum of the words of all pieces. -/
def totalOf (pieces : List (List UInt8)) : Nat := (pieces.map fun piece => (words16 piece).sum).sum

theorem partialSumsOf_le : ∀ (pieces : List (List UInt8)) {sum s : Nat},
    s ∈ partialSumsOf sum pieces → s ≤ sum + totalOf pieces
  | [], _, _, h => (nomatch h)
  | piece :: pieces, sum, s, h => by
      show s ≤ sum + ((words16 piece).sum + totalOf pieces)
      rcases List.mem_append.mp h with h | h
      · have hpiece := partialSums_le piece h
        omega
      · have hrest := partialSumsOf_le pieces h
        omega

theorem fits32_of_total {pieces : List (List UInt8)} (h : totalOf pieces < 4294967296) :
    Fits32 pieces := fun s hs => by
  have hle := partialSumsOf_le pieces hs
  show s < 4294967296
  omega

theorem toNat_foldl_checksumAddBytes : ∀ (pieces : List (List UInt8)) (sum : UInt32),
    sum.toNat + totalOf pieces < 4294967296 →
    (pieces.foldl checksumAddBytes sum).toNat = sum.toNat + totalOf pieces
  | [], _, _ => rfl
  | piece :: pieces, sum, h => by
      have hall : sum.toNat + ((words16 piece).sum + totalOf pieces) < 4294967296 := h
      have hpiece := toNat_checksumAddBytes piece sum (by omega)
      have hrest := toNat_foldl_checksumAddBytes pieces (checksumAddBytes sum piece)
        (by rw [hpiece]; omega)
      show (pieces.foldl checksumAddBytes (checksumAddBytes sum piece)).toNat =
        sum.toNat + ((words16 piece).sum + totalOf pieces)
      rw [hrest, hpiece]
      omega

/-! ## Folding -/

/-- One round of the loop, when there is a carry. -/
theorem toNat_foldRound (sum : UInt32) :
    ((sum &&& (0xffff : UInt32)) + (sum >>> 16)).toNat = sum.toNat % 65536 + sum.toNat / 65536 := by
  have hlt := sum.toNat_lt
  have hlow : (sum &&& 0xffff).toNat = sum.toNat % 65536 := by
    rw [UInt32.toNat_and]
    exact Nat.and_two_pow_sub_one_eq_mod sum.toNat 16
  have hhigh : (sum >>> 16).toNat = sum.toNat / 65536 := by
    rw [UInt32.toNat_shiftRight]
    exact Nat.shiftRight_eq_div_pow sum.toNat 16
  rw [UInt32.toNat_add, hlow, hhigh, Nat.mod_eq_of_lt (by omega)]

theorem shiftRight_eq_zero_iff (sum : UInt32) : sum >>> 16 = 0 ↔ sum.toNat < 65536 := by
  have hhigh : (sum >>> 16).toNat = sum.toNat / 65536 := by
    rw [UInt32.toNat_shiftRight]
    exact Nat.shiftRight_eq_div_pow sum.toNat 16
  rw [← UInt32.toNat_inj, hhigh, UInt32.toNat_zero]
  omega

/-- After the rounds it takes the loop has ended, and the sum is folded. -/
theorem toNat_foldRounds (sum : UInt32) : (foldRounds 2 sum).toNat = foldSum sum.toNat := by
  have hlt := sum.toNat_lt
  rw [foldRounds]
  split
  · rename_i h
    rw [Lib.foldSum_of_lt ((shiftRight_eq_zero_iff sum).mp h)]
  · have hone := toNat_foldRound sum
    rw [← Lib.foldSum_carry, ← hone, foldRounds]
    split
    · rename_i h
      rw [Lib.foldSum_of_lt ((shiftRight_eq_zero_iff _).mp h)]
    · -- the second carry is at most one, and leaves no third
      have htwo := toNat_foldRound ((sum &&& (0xffff : UInt32)) + (sum >>> 16))
      rw [foldRounds, ← Lib.foldSum_carry, ← htwo, Lib.foldSum_of_lt]
      rw [htwo, hone]
      omega

theorem foldRounds_done (sum : UInt32) : foldRounds 2 sum >>> 16 = 0 := by
  rw [shiftRight_eq_zero_iff, toNat_foldRounds]
  have := Lib.foldSum_le sum.toNat
  omega

theorem toNat_checksumFold (sum : UInt32) :
    (checksumFold sum).toNat = 65535 - foldSum sum.toNat := by
  have hlow : (foldRounds 2 sum).toUInt16.toNat = foldSum sum.toNat := by
    rw [UInt32.toNat_toUInt16, Nat.mod_eq_of_lt ((shiftRight_eq_zero_iff _).mp (foldRounds_done sum)),
      toNat_foldRounds]
  rw [checksumFold, UInt16.toNat_not, hlow]
  rfl

/-- The checksum is the complement of the folded sum of all pieces. -/
theorem toNat_checksumOf {pieces : List (List UInt8)} (h : totalOf pieces < 4294967296) :
    (checksumOf pieces).toNat = 65535 - foldSum (totalOf pieces) := by
  have hsum : (pieces.foldl checksumAddBytes 0).toNat = totalOf pieces := by
    rw [toNat_foldl_checksumAddBytes pieces 0 (by simpa using h)]
    exact Nat.zero_add _
  rw [checksumOf, toNat_checksumFold, hsum]

/-- The UDP checksum is never zero, and is all ones where the complement is zero. -/
theorem toNat_udpChecksumOf {pieces : List (List UInt8)} (h : totalOf pieces < 4294967296) :
    (udpChecksumOf pieces).toNat ≠ 0 ∧
      ((udpChecksumOf pieces).toNat = 65535 - foldSum (totalOf pieces) ∨
        (foldSum (totalOf pieces) = 65535 ∧ (udpChecksumOf pieces).toNat = 65535)) := by
  have hsum := toNat_checksumOf h
  rw [udpChecksumOf]
  by_cases hz : checksumOf pieces = 0
  · rw [hz, UInt16.toNat_zero] at hsum
    have hle := Lib.foldSum_le (totalOf pieces)
    simp only [hz, if_true]
    exact ⟨by decide, .inr ⟨by omega, rfl⟩⟩
  · simp only [hz, if_false]
    exact ⟨fun hn => hz (UInt16.toNat_inj.mp (hn.trans UInt16.toNat_zero.symm)), .inl hsum⟩

/-! ## Fields -/

theorem toNat_htons (x : UInt16) :
    (x >>> 8).toUInt8.toNat * 256 + x.toUInt8.toNat = x.toNat := by
  have hlt := x.toNat_lt
  have hhigh : (x >>> 8).toUInt8.toNat = x.toNat / 256 := by
    rw [UInt16.toNat_toUInt8, UInt16.toNat_shiftRight]
    show x.toNat >>> 8 % 2 ^ 8 = _
    rw [Nat.shiftRight_eq_div_pow]
    omega
  rw [hhigh, UInt16.toNat_toUInt8]
  omega

@[simp] theorem length_htons (x : UInt16) : (htons x).length = 2 := by simp [htons]

theorem toNat_ofNat_of_lt {n : Nat} (h : n < 65536) : (UInt16.ofNat n).toNat = n := by
  rw [UInt16.toNat_ofNat']
  exact Nat.mod_eq_of_lt h

@[simp] theorem length_fieldOf (data : List UInt8) (off n : Nat) : (fieldOf data off n).length = n := by
  rw [fieldOf, List.length_map, List.length_range]

theorem totalOf_le (pieces : List (List UInt8)) :
    totalOf pieces ≤ 65535 * (pieces.map fun piece => (piece.length + 1) / 2).sum := by
  induction pieces with
  | nil => exact Nat.zero_le _
  | cons piece pieces ih =>
      have hpiece := Lib.sum_words16_le piece
      show (words16 piece).sum + totalOf pieces ≤ _
      rw [List.map_cons, List.sum_cons, Nat.mul_add]
      exact Nat.add_le_add hpiece ih

/-- Pieces that end on a word boundary may be summed one by one. -/
theorem sum_words16_pieces {a b : List UInt8} (c : List UInt8) (ha : a.length % 2 = 0)
    (hb : b.length % 2 = 0) : (words16 (a ++ (b ++ c))).sum = totalOf [a, b, c] := by
  rw [Lib.words16_append _ ha, Lib.words16_append _ hb, List.sum_append, List.sum_append]
  simp [totalOf]

/-- A checksum over a pseudo header, a UDP header and a payload is in order in the packet. -/
theorem verifies_udp (pseudo head : List UInt8) {payload : List UInt8} (hpseudo : pseudo.length % 2 = 0)
    (hhead : head.length % 2 = 0)
    (htotal : totalOf [pseudo, head ++ [0, 0], payload] < 4294967296) :
    Verifies (pseudo ++ (head ++ htons (udpChecksumOf [pseudo, head ++ [0, 0], payload]) ++ payload)) := by
  have hsum : (words16 ((pseudo ++ head) ++ [0, 0] ++ payload)).sum =
      totalOf [pseudo, head ++ [0, 0], payload] := by
    rw [← sum_words16_pieces payload hpseudo (by simpa using hhead)]
    simp only [List.append_assoc]
  have hverifies : Verifies ((pseudo ++ head) ++
      htons (udpChecksumOf [pseudo, head ++ [0, 0], payload]) ++ payload) := by
    refine Lib.verifies_of_checksum (by rw [List.length_append]; omega) ?_
    rw [toNat_htons, hsum]
    exact (toNat_udpChecksumOf htotal).2
  simpa only [List.append_assoc] using hverifies

/-- So is the checksum of an IP header. -/
theorem verifies_iphdr (totLen id : UInt16) (saddr daddr : List UInt8)
    (htotal : totalOf [iphdr totLen id 0 saddr daddr] < 4294967296) :
    Verifies (iphdr totLen id (checksumOf [iphdr totLen id 0 saddr daddr]) saddr daddr) := by
  have hcheck := toNat_checksumOf htotal
  generalize checksumOf [iphdr totLen id 0 saddr daddr] = check at hcheck ⊢
  have hhead : ([0x45, 0] ++ htons totLen ++ htons id ++ [0, 0, 64, ipprotoUdp]).length % 2 = 0 := by
    simp
  refine Lib.verifies_of_checksum hhead (.inl ?_)
  rw [toNat_htons, hcheck, totalOf, List.map_singleton, List.sum_singleton]
  rfl

/-! ## Reading a packet -/

section Reading

variable {a rest : List UInt8} {off n : Nat}

/-- What stands before an offset does not matter. -/
theorem packetSlice_skip (h : a.length ≤ off) :
    packetSlice (a ++ rest) off n = packetSlice rest (off - a.length) n := by
  rw [packetSlice, packetSlice, List.drop_append, List.drop_eq_nil_of_le h, List.nil_append]

theorem packetSlice_cons {x : UInt8} (h : 0 < off) :
    packetSlice (x :: rest) off n = packetSlice rest (off - 1) n :=
  packetSlice_skip (a := [x]) h

/-- What a slice begins with. -/
theorem packetSlice_through (h : a.length ≤ n) :
    packetSlice (a ++ rest) 0 n = a ++ packetSlice rest 0 (n - a.length) := by
  rw [packetSlice, packetSlice, List.drop_zero, List.drop_zero, List.take_append,
    List.take_of_length_le h]

theorem packetSlice_through_cons {x : UInt8} (h : 0 < n) :
    packetSlice (x :: rest) 0 n = x :: packetSlice rest 0 (n - 1) :=
  packetSlice_through (a := [x]) h

@[simp] theorem packetSlice_zero : packetSlice a off 0 = [] := List.take_zero

theorem take_eq_packetSlice : a.take n = packetSlice a 0 n := rfl

theorem packetWord_skip (h : a.length ≤ off) :
    packetWord (a ++ rest) off = packetWord rest (off - a.length) := by
  have hnext : off + 1 - a.length = off - a.length + 1 := by omega
  rw [packetWord, packetWord, List.getD_append_right _ _ _ _ h,
    List.getD_append_right _ _ _ _ (Nat.le_succ_of_le h), hnext]

theorem packetWord_cons {x : UInt8} (h : 0 < off) :
    packetWord (x :: rest) off = packetWord rest (off - 1) :=
  packetWord_skip (a := [x]) h

theorem packetWord_htons (x : UInt16) : packetWord (htons x ++ rest) 0 = x.toNat := by
  have hword : packetWord (htons x ++ rest) 0 =
      (x >>> 8).toUInt8.toNat * 256 + x.toUInt8.toNat := by
    rw [packetWord]
    rfl
  rw [hword, toNat_htons]

end Reading

/-! ## Both kinds of replies -/

/-- Two pieces of fixed lengths and a payload of one packet are far from an overflow. -/
theorem totalOf_lt {a b payload : List UInt8} (ha : a.length ≤ 40) (hb : b.length = 8)
    (hpayload : payload.length ≤ 65535) : totalOf [a, b, payload] < 4294967296 := by
  have hle := totalOf_le [a, b, payload]
  simp only [List.map_cons, List.map_nil, List.sum_cons, List.sum_nil, hb] at hle
  omega

/-- What an IPv4 packet consists of. -/
structure Fields4 (bytes saddr daddr dport payload : List UInt8) (totLen id port len udpCheck : UInt16) :
    Prop where
  length : bytes.length = 28 + payload.length
  total : packetWord bytes 2 = totLen.toNat
  udp : packetWord bytes 24 = len.toNat
  check : packetWord bytes 26 = udpCheck.toNat
  source : packetWord bytes 20 = port.toNat
  sourceAddr : packetSlice bytes 12 4 = saddr
  destinationAddr : packetSlice bytes 16 4 = daddr
  destinationPort : packetSlice bytes 22 2 = dport
  body : bytes.drop 28 = payload
  pseudo : pseudoOf4 bytes = pseudo4 saddr daddr len
  plainUdp : packetSlice bytes 20 6 ++ [0, 0] = udpHeader port dport len 0
  plainHeader : bytes.take 10 ++ [0, 0] ++ packetSlice bytes 12 8 = iphdr totLen id 0 saddr daddr

/-- Its fields are where they should be, whatever stands in the checksums. -/
theorem fields4 {saddr daddr dport : List UInt8} (payload : List UInt8) (hs : saddr.length = 4)
    (hd : daddr.length = 4) (hp : dport.length = 2) (totLen id check port len udpCheck : UInt16) :
    Fields4 (iphdr totLen id check saddr daddr ++ udpHeader port dport len udpCheck ++ payload)
      saddr daddr dport payload totLen id port len udpCheck := by
  have hlen : (iphdr totLen id check saddr daddr ++ udpHeader port dport len udpCheck).length = 28 := by
    simp [iphdr, udpHeader, hs, hd, hp]
  have hproto : (iphdr totLen id check saddr daddr ++ udpHeader port dport len udpCheck ++
      payload).getD 9 0 = ipprotoUdp := rfl
  constructor
  case length => rw [List.length_append, hlen]
  case body => exact List.drop_left' hlen
  case pseudo =>
    rw [pseudoOf4, hproto]
    simp [iphdr, udpHeader, pseudo4, packetSlice_skip, packetSlice_cons, packetSlice_through, hs, hd,
      hp]
  case plainHeader =>
    simp [iphdr, udpHeader, packetSlice_skip, packetSlice_cons, packetSlice_through,
      packetSlice_through_cons, take_eq_packetSlice, hs, hd]
    rfl
  all_goals
    simp [iphdr, udpHeader, packetSlice_skip, packetSlice_cons, packetSlice_through, packetWord_skip,
      packetWord_cons, packetWord_htons, hs, hd, hp]
  rfl

/-- What an IPv6 packet consists of. -/
structure Fields6 (bytes saddr daddr dport payload : List UInt8) (port len udpCheck : UInt16) :
    Prop where
  length : bytes.length = 48 + payload.length
  total : packetWord bytes 4 = len.toNat
  udp : packetWord bytes 44 = len.toNat
  check : packetWord bytes 46 = udpCheck.toNat
  source : packetWord bytes 40 = port.toNat
  sourceAddr : packetSlice bytes 8 16 = saddr
  destinationAddr : packetSlice bytes 24 16 = daddr
  destinationPort : packetSlice bytes 42 2 = dport
  body : bytes.drop 48 = payload
  pseudo : pseudoOf6 bytes = saddr ++ daddr ++ [0, 0] ++ htons len ++ [0, 0, 0, ipprotoUdp]
  plainUdp : packetSlice bytes 40 6 ++ [0, 0] = udpHeader port dport len 0

theorem fields6 {saddr daddr dport : List UInt8} (payload : List UInt8) (hs : saddr.length = 16)
    (hd : daddr.length = 16) (hp : dport.length = 2) (port len udpCheck : UInt16) :
    Fields6 (ipv6hdr len saddr daddr ++ udpHeader port dport len udpCheck ++ payload)
      saddr daddr dport payload port len udpCheck := by
  have hlen : (ipv6hdr len saddr daddr ++ udpHeader port dport len udpCheck).length = 48 := by
    simp [ipv6hdr, udpHeader, hs, hd, hp]
  have hproto : (ipv6hdr len saddr daddr ++ udpHeader port dport len udpCheck ++
      payload).getD 6 0 = ipprotoUdp := rfl
  constructor
  case length => rw [List.length_append, hlen]
  case body => exact List.drop_left' hlen
  case pseudo =>
    rw [pseudoOf6, hproto]
    simp [ipv6hdr, udpHeader, packetSlice_skip, packetSlice_cons, packetSlice_through, hs, hd, hp]
  all_goals
    simp [ipv6hdr, udpHeader, packetSlice_skip, packetSlice_cons, packetSlice_through,
      packetWord_skip, packetWord_cons, packetWord_htons, hs, hd, hp]
  rfl

/-- What `bpf2socks_udp_raw_send4` builds is a valid reply. -/
theorem rawSend4_valid {id : UInt16} {client : Sockaddr} {dst : DstAddr} {payload : List UInt8}
    {p : RawPacket} (h : rawSend4 id client dst payload = .ok p) :
    ValidReply4 client dst payload p.bytes := by
  rw [rawSend4] at h
  split at h
  · cases h
  dsimp only at h
  split at h
  · cases h
  rename_i hsize
  obtain rfl := Except.ok.inj h
  have hudpLen := toNat_ofNat_of_lt (n := 8 + payload.length) (by omega)
  have hipLen := toNat_ofNat_of_lt (n := 20 + (8 + payload.length)) (by omega)
  generalize hlen : UInt16.ofNat (8 + payload.length) = len at hudpLen ⊢
  generalize htot : UInt16.ofNat (20 + (8 + payload.length)) = totLen at hipLen ⊢
  have hsaddr := length_fieldOf dst.addr 0 4
  have hdaddr := length_fieldOf client.data 2 4
  have hdport := length_fieldOf client.data 0 2
  generalize hs : fieldOf dst.addr 0 4 = saddr at hsaddr ⊢
  generalize hd : fieldOf client.data 2 4 = daddr at hdaddr ⊢
  generalize hp : fieldOf client.data 0 2 = dport at hdport ⊢
  -- neither sum overflows its 32 bits, for the lengths fit into 16
  have hudp : totalOf [pseudo4 saddr daddr len, udpHeader dst.port dport len 0, payload] <
      4294967296 :=
    totalOf_lt (by simp [pseudo4, hsaddr, hdaddr]) (by simp [udpHeader, hdport]) (by omega)
  have hip : totalOf [iphdr totLen id 0 saddr daddr] < 4294967296 := by
    have hle := totalOf_le [iphdr totLen id 0 saddr daddr]
    have hlength : (iphdr totLen id 0 saddr daddr).length = 20 := by simp [iphdr, hsaddr, hdaddr]
    simp only [List.map_cons, List.map_nil, List.sum_cons, List.sum_nil, hlength] at hle
    omega
  have hfields := fields4 payload hsaddr hdaddr hdport totLen id
    (checksumOf [iphdr totLen id 0 saddr daddr]) dst.port len
    (udpChecksumOf [pseudo4 saddr daddr len, udpHeader dst.port dport len 0, payload])
  have hiphdr : (iphdr totLen id (checksumOf [iphdr totLen id 0 saddr daddr]) saddr daddr).length =
      20 := by simp [iphdr, hsaddr, hdaddr]
  rw [List.append_assoc] at hfields ⊢
  exact {
    totalLength := by
      rw [hfields.total, hfields.length]
      omega
    udpLength := by
      rw [hfields.udp, hfields.length]
      omega
    body := hfields.body
    headerSum := by
      rw [List.take_left' hiphdr]
      exact verifies_iphdr totLen id saddr daddr hip
    udpSum := by
      rw [hfields.pseudo, List.drop_left' hiphdr]
      exact verifies_udp _ (htons dst.port ++ dport ++ htons len)
        (by simp [pseudo4, hsaddr, hdaddr]) (by simp [hdport]) hudp
    checksumSet := hfields.check ▸ (toNat_udpChecksumOf hudp).1
    sourceAddr := hfields.sourceAddr.trans hs.symm
    sourcePort := hfields.source
    destinationAddr := hfields.destinationAddr.trans hd.symm
    destinationPort := hfields.destinationPort.trans hp.symm
    headerFits := by
      rw [hfields.plainHeader]
      exact fits32_of_total hip
    udpFits := by
      rw [hfields.pseudo, hfields.plainUdp]
      exact fits32_of_total hudp }

/-- What `bpf2socks_udp_raw_send6` builds is a valid reply. -/
theorem rawSend6_valid {client : Sockaddr} {dst : DstAddr} {payload : List UInt8} {p : RawPacket}
    (h : rawSend6 client dst payload = .ok p) : ValidReply6 client dst payload p.bytes := by
  rw [rawSend6] at h
  split at h
  · cases h
  dsimp only at h
  split at h
  · cases h
  rename_i hsize
  obtain rfl := Except.ok.inj h
  have hudpLen := toNat_ofNat_of_lt (n := 8 + payload.length) (by omega)
  have hpseudo : ∀ saddr daddr, pseudo6 saddr daddr (8 + payload.length) = saddr ++ daddr ++ [0, 0] ++
      htons (UInt16.ofNat (8 + payload.length)) ++ [0, 0, 0, ipprotoUdp] := fun _ _ => rfl
  rw [hpseudo]
  generalize hlen : UInt16.ofNat (8 + payload.length) = len at hudpLen ⊢
  have hsaddr := length_fieldOf dst.addr 0 16
  have hdaddr := length_fieldOf client.data 6 16
  have hdport := length_fieldOf client.data 0 2
  generalize hs : fieldOf dst.addr 0 16 = saddr at hsaddr ⊢
  generalize hd : fieldOf client.data 6 16 = daddr at hdaddr ⊢
  generalize hp : fieldOf client.data 0 2 = dport at hdport ⊢
  -- an even pseudo header, so that the words of the sum do not straddle the parts
  have heven : (saddr ++ daddr ++ [0, 0] ++ htons len ++ [0, 0, 0, ipprotoUdp]).length = 40 := by
    simp [hsaddr, hdaddr]
  have hudp : totalOf [saddr ++ daddr ++ [0, 0] ++ htons len ++ [0, 0, 0, ipprotoUdp],
      udpHeader dst.port dport len 0, payload] < 4294967296 :=
    totalOf_lt (Nat.le_of_eq heven) (by simp [udpHeader, hdport]) (by omega)
  have hfields := fields6 payload hsaddr hdaddr hdport dst.port len
    (udpChecksumOf [saddr ++ daddr ++ [0, 0] ++ htons len ++ [0, 0, 0, ipprotoUdp],
      udpHeader dst.port dport len 0, payload])
  have hiphdr : (ipv6hdr len saddr daddr).length = 40 := by simp [ipv6hdr, hsaddr, hdaddr]
  rw [List.append_assoc (ipv6hdr len saddr daddr)] at hfields ⊢
  exact {
    payloadLength := by
      rw [hfields.total, hfields.length]
      omega
    udpLength := by
      rw [hfields.udp, hfields.length]
      omega
    body := hfields.body
    udpSum := by
      rw [hfields.pseudo, List.drop_left' hiphdr]
      exact verifies_udp _ (htons dst.port ++ dport ++ htons len) (by rw [heven])
        (by simp [hdport]) hudp
    checksumSet := hfields.check ▸ (toNat_udpChecksumOf hudp).1
    sourceAddr := hfields.sourceAddr.trans hs.symm
    sourcePort := hfields.source
    destinationAddr := hfields.destinationAddr.trans hd.symm
    destinationPort := hfields.destinationPort.trans hp.symm
    udpFits := by
      rw [hfields.pseudo, hfields.plainUdp]
      exact fits32_of_total hudp }

/-- **Raw replies are valid.**  Every packet that is built for an IPv4 or an IPv6 client has the
lengths, the checksums, the addresses and the ports it should have, and the accumulator of its
checksums never overflows. -/
theorem rawSend_valid (id : UInt16) (client : Sockaddr) (dst : DstAddr) (payload : List UInt8) :
    (∀ p, rawSend4 id client dst payload = .ok p → ValidReply4 client dst payload p.bytes) ∧
      ∀ p, rawSend6 client dst payload = .ok p → ValidReply6 client dst payload p.bytes :=
  ⟨fun _ h => rawSend4_valid h, fun _ h => rawSend6_valid h⟩

/-- A reply of three bytes from `10.0.0.1`, port 53, to `192.168.0.2`, port 4660. -/
theorem rawSend_valid_odd : ∃ p,
    rawSend4 7 ⟨.inet, [0x12, 0x34, 192, 168, 0, 2]⟩ ⟨.inet, 53, [10, 0, 0, 1]⟩ [1, 2, 3] = .ok p ∧
      ValidReply4 ⟨.inet, [0x12, 0x34, 192, 168, 0, 2]⟩ ⟨.inet, 53, [10, 0, 0, 1]⟩ [1, 2, 3] p.bytes :=
  ⟨_, rfl, (rawSend_valid 7 _ _ _).1 _ rfl⟩

end Bpf2Socks.Udp
