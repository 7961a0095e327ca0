/-
# Bpf2Socks.Tc.Intact — what the classifiers leave of a packet.

A packet is dropped, or it passes as it came, or it leaves rewritten as a whole: the checksums that were
right are right, a UDP datagram without one stays without, and no other byte changed than the address, the
port and the checksums.  The maps are whatever they are; only the addresses in them have their size.
-/
import Bpf2Socks.Tc.Checksums
import Bpf2Socks.Tc.Fragments

namespace Bpf2Socks.Tc

open Function (update update_self update_of_ne)
open Lib (Act Prog Verifies verifies_iff)
open Lib.Act (keeps_pure keeps_get keeps_ask keeps_modify keeps_ite)

variable {inside : Vanish → Prop} {s s' : State} {d d' : List UInt8} {off : Nat}

/-! ## A rewrite as a list of edits -/

/-- One step of a rewrite. -/
inductive Edit where
  | checksum (off : Nat) (mangled : Bool) (old new : List UInt8)
  | store (off : Nat) (bytes : List UInt8)

namespace Edit

/-- The helper that is called. -/
def code : Edit → Code Bool
  | checksum off mangled old new => replaceChecksum off mangled old new
  | store off bytes => skbStoreBytes off bytes

/-- What it does to the bytes. -/
def apply (d : List UInt8) : Edit → List UInt8
  | checksum off mangled old new => csumReplace d off mangled old new
  | store off bytes => storeBytes d off bytes

/-- The end of the bytes it needs. -/
def stop : Edit → Nat
  | checksum off _ _ _ => off + 2
  | store off bytes => off + bytes.length

theorem apply_length {e : Edit} (h : e.stop ≤ d.length) : (e.apply d).length = d.length := by
  cases e with
  | checksum off mangled old new => exact csumReplace_length h ..
  | store off bytes => exact storeBytes_length h

end Edit

/-- The state with other bytes in the packet. -/
def State.withData (s : State) (d : List UInt8) : State :=
  { s with skb := ⟨s.skb.ifindex, d, s.skb.headlen⟩ }

theorem Edit.code_sat (e : Edit) (s : State) : Prog.Sat (admissible inside)
    (fun s' r => (r = true ∧ e.stop ≤ s.skb.data.length ∧ s' = s.withData (e.apply s.skb.data)) ∨
      (r = false ∧ s' = s)) (e.code s) := by
  cases e with
  | checksum off mangled old new =>
      intro done _
      refine Act.sat_ite (fun _ => .inr ⟨rfl, rfl⟩) fun hc => .inl ⟨rfl, ?_, rfl⟩
      simp only [not_or, Nat.not_lt] at hc
      exact hc.2
  | store off bytes =>
      intro done _
      refine Act.sat_ite (fun _ => .inr ⟨rfl, rfl⟩) fun hc => .inl ⟨rfl, ?_, rfl⟩
      simp only [not_or, Nat.not_lt] at hc
      exact hc.2

/-- All edits of a list, one after the other. -/
def applyAll (d : List UInt8) (es : List Edit) : List UInt8 := es.foldl Edit.apply d

theorem allOk_code (es : List Edit) : ∀ s : State, Prog.Sat (admissible inside)
    (fun s' r => ∃ d', s' = s.withData d' ∧
      (r = true → d' = applyAll s.skb.data es ∧ ∀ e ∈ es, e.stop ≤ s.skb.data.length))
    (allOk (es.map Edit.code) s) := by
  induction es with
  | nil => exact fun s => ⟨s.skb.data, rfl, fun _ => ⟨rfl, fun e he => absurd he List.not_mem_nil⟩⟩
  | cons e es ih =>
      intro s
      refine (e.code_sat s).bind fun s₁ r hr => ?_
      rcases hr with ⟨rfl, hstop, rfl⟩ | ⟨rfl, rfl⟩
      · refine (ih (s.withData (e.apply s.skb.data))).mono fun s₂ r ⟨d', hs₂, hdone⟩ => ?_
        refine ⟨d', hs₂, fun hr => ?_⟩
        obtain ⟨hd', hes⟩ := hdone hr
        refine ⟨hd', fun f hf => ?_⟩
        rcases List.mem_cons.mp hf with rfl | hf
        · exact hstop
        · have hle : f.stop ≤ (e.apply s.skb.data).length := hes f hf
          rwa [Edit.apply_length hstop] at hle
      · exact ⟨s₁.skb.data, rfl, fun hbad => absurd hbad (by simp)⟩

/-- **A rewrite** is done as a whole, or the packet is dropped. -/
theorem rewriteAll_code (es : List Edit) (s : State) : Prog.Sat (admissible inside)
    (fun s' v => ∃ d', s' = s.withData d' ∧ (v = .shot ∨
      (v = .ok ∧ d' = applyAll s.skb.data es ∧ ∀ e ∈ es, e.stop ≤ s.skb.data.length)))
    (rewriteAll (es.map Edit.code) s) := by
  refine (allOk_code es s).bind fun s₁ r ⟨d', hs₁, hdone⟩ => ?_
  cases r with
  | false => exact ⟨d', hs₁, .inl rfl⟩
  | true => exact ⟨d', hs₁, .inr ⟨rfl, hdone rfl⟩⟩

/-! ## What stays right -/

/-- The IPv4 header. -/
def header4 (d : List UInt8) : List UInt8 := slice d ethernetLength ((byteAt d 14 &&& 15).toNat * 4)

/-- The protocol and length of the pseudo headers, less the addresses. -/
def pseudo4 (protocol : UInt8) (len : UInt16) : List UInt8 := [0, protocol] ++ portBytes len
@[inherit_doc pseudo4] def pseudo6 (protocol : UInt8) (len : UInt32) : List UInt8 :=
  wordBytes len ++ [0, 0, 0, protocol]

/-- What a transport checksum covers: the pseudo header, `n` bytes of the datagram in this packet, and
the rest of it in later fragments. -/
def datagram (d : List UInt8) (addresses addressesLen : Nat) (pseudo : List UInt8) (l4 n : Nat)
    (rest : List UInt8) : List UInt8 :=
  slice d addresses addressesLen ++ pseudo ++ (slice d l4 n ++ rest)

/-- The transport checksum of `d` is right in `d'` if it was, and is none if it was none. -/
structure TransportKept (d d' : List UInt8) (addresses addressesLen : Nat)
    (protocol : UInt8) (l4 : Nat) (pseudo : List UInt8 → Prop) : Prop where
  valid : ∀ mid, pseudo mid → ∀ n rest, checksumOffset l4 protocol + 2 ≤ l4 + n → l4 + n ≤ d.length →
    (protocol = protoUdp → be16 d (checksumOffset l4 protocol) ≠ 0) →
    Verifies (datagram d addresses addressesLen mid l4 n rest) →
      Verifies (datagram d' addresses addressesLen mid l4 n rest)
  none : protocol = protoUdp →
    (be16 d' (checksumOffset l4 protocol) = 0 ↔ be16 d (checksumOffset l4 protocol) = 0)

/-- The sum of a datagram is that of its cover and of what stands between. -/
theorem sum_datagram {addresses addressesLen l4 n : Nat} {pseudo rest : List UInt8}
    (hlen : addresses + addressesLen ≤ d.length) (heven : addressesLen % 2 = 0)
    (hpseudo : pseudo.length % 2 = 0) :
    (Lib.words16 (datagram d addresses addressesLen pseudo l4 n rest)).sum =
      (⟨addresses, addressesLen, l4, n, rest⟩ : Cover).sum d + (Lib.words16 pseudo).sum := by
  have hfirst : (slice d addresses addressesLen).length % 2 = 0 := by rw [slice_length hlen]; exact heven
  have hboth : (slice d addresses addressesLen ++ pseudo).length % 2 = 0 := by
    rw [List.length_append]
    omega
  rw [datagram, Lib.sum_words16_append _ hboth, Lib.sum_words16_append _ hfirst]
  show _ = (Lib.words16 (slice d addresses addressesLen)).sum +
    (Lib.words16 (slice d l4 n ++ rest)).sum + _
  omega

/-- Two sums that agree modulo 65535, of bytes that are not all zero. -/
theorem verifies_of_sum {a b : List UInt8} (hpos : 0 < (Lib.words16 b).sum)
    (heq : (Lib.words16 b).sum % 65535 = (Lib.words16 a).sum % 65535) (h : Verifies a) :
    Verifies b := by
  rw [verifies_iff] at h ⊢
  exact ⟨hpos, heq.trans h.2⟩

section transport

variable {addressOff size portOff l4 addresses addressesLen : Nat} {protocol : UInt8}
  {address port : List UInt8} {l : List (List UInt8 × List UInt8)}

/-- A rewrite of an address and a port keeps the transport checksum. -/
theorem transportKept_rewrite (hl : Layout d.length addressOff size portOff (checksumOffset l4 protocol))
    (hbefore : addresses + addressesLen ≤ l4) (haddresses : addressesLen % 2 = 0)
    (ha : address.length = size) (hp : port.length = 2) (hsize : size % 2 = 0)
    (haddr : Holds addresses addressesLen addressOff size)
    (hport : portOff = l4 ∨ portOff = l4 + 2)
    (hold : (l.map fun p => (Lib.words16 p.1).sum).sum =
      (Lib.words16 (slice d addressOff size)).sum + (Lib.words16 (slice d portOff 2)).sum)
    (hnew : (l.map fun p => (Lib.words16 p.2).sum).sum =
      (Lib.words16 address).sum + (Lib.words16 port).sum) {pseudo : List UInt8 → Prop}
    (hpseudo : ∀ mid, pseudo mid → mid.length % 2 = 0 ∧ 0 < (Lib.words16 mid).sum) :
    TransportKept d (stores (updates (checksumOffset l4 protocol) (decide (protocol = protoUdp)) d l)
      addressOff portOff address port) addresses addressesLen protocol l4 pseudo := by
  have hcs := checksumOffset_le l4 protocol
  have hcseven : (checksumOffset l4 protocol - l4) % 2 = 0 := by
    unfold checksumOffset
    split <;> omega
  have hstop := hl.stop
  have hlen : (updates (checksumOffset l4 protocol) (decide (protocol = protoUdp)) d l).length =
      d.length := updates_length l hstop
  have hlen' : (stores (updates (checksumOffset l4 protocol) (decide (protocol = protoUdp)) d l)
      addressOff portOff address port).length = d.length :=
    (stores_length (hlen.symm ▸ hl) ha hp).trans hlen
  refine ⟨fun mid hmid n rest hn hfit hsome hvalid => ?_, fun hudp => ?_⟩
  · obtain ⟨hmideven, hmidpos⟩ := hpseudo mid hmid
    refine verifies_of_sum ?_ ?_ hvalid
    · rw [sum_datagram (by omega) haddresses hmideven]
      omega
    · rw [sum_datagram (by omega) haddresses hmideven, sum_datagram (by omega) haddresses hmideven]
      -- address, port and checksum all lie under the sum, at even places
      have hportin : Holds l4 n portOff 2 := by
        rcases hport with rfl | rfl
        · exact ⟨Nat.le_refl _, by omega, by omega⟩
        · exact ⟨by omega, by omega, by omega⟩
      have hcsin : Holds l4 n (checksumOffset l4 protocol) 2 := ⟨by omega, hn, hcseven⟩
      have hsum := sum_rewrite (k := ⟨addresses, addressesLen, l4, n, rest⟩) hl ha hp hsize
        ⟨hbefore, hfit⟩ (.inl haddr) (.inr hportin) (.inr hcsin)
        (fun hm => hsome (of_decide_eq_true hm)) hold hnew
      omega
  · have hport' := hl.port
    have haddress := hl.address
    have hsame : be16 (stores (updates (checksumOffset l4 protocol) (decide (protocol = protoUdp)) d l)
        addressOff portOff address port) (checksumOffset l4 protocol) =
        be16 (updates (checksumOffset l4 protocol) (decide (protocol = protoUdp)) d l)
          (checksumOffset l4 protocol) := by
      refine be16_of_slice_eq (by omega) (by omega) ?_
      exact slice_stores (hlen.symm ▸ hl) ha hp ⟨.inr (by omega), .inr (by omega)⟩
    rw [hsame]
    refine ⟨fun hz => ?_, fun hz => ?_⟩
    · by_contra hne
      exact (updates_some l hstop fun _ => hne).1 (decide_eq_true hudp) hz
    · rw [updates_none l (decide_eq_true hudp) hz, hz]

end transport

/-! ## Rewritten packets -/

/-- The address a direction writes: the destination on ingress, the source on egress. -/
def Direction.address4 : Direction → Nat
  | .ingress => ip4Destination
  | .egress => ip4Source

@[inherit_doc Direction.address4] def Direction.address6 : Direction → Nat
  | .ingress => ip6Destination
  | .egress => ip6Source

/-- The port it writes. -/
def Direction.port (l4 : Nat) : Direction → Nat
  | .ingress => l4 + 2
  | .egress => l4

/-- The pseudo headers of a datagram, of any length. -/
def Pseudo4 (protocol : UInt8) (mid : List UInt8) : Prop := ∃ len, mid = pseudo4 protocol len
@[inherit_doc Pseudo4] def Pseudo6 (protocol : UInt8) (mid : List UInt8) : Prop :=
  ∃ len, mid = pseudo6 protocol len

/-- A rewritten IPv4 packet. -/
structure Intact4 (dir : Direction) (d d' : List UInt8) (l4 : Nat) : Prop where
  header : Verifies (header4 d) → Verifies (header4 d')
  transport : TransportKept d d' ip4Source 8 (byteAt d 23) l4 (Pseudo4 (byteAt d 23))
  length : d'.length = d.length
  rest : ∀ i, ¬touchedBytes dir.address4 4 (dir.port l4) (checksumOffset l4 (byteAt d 23)) i →
    byteAt d' i = byteAt d i

/-- A rewritten IPv6 packet. -/
structure Intact6 (dir : Direction) (d d' : List UInt8) (protocol : UInt8) (l4 : Nat) : Prop where
  transport : TransportKept d d' ip6Source 32 protocol l4 (Pseudo6 protocol)
  length : d'.length = d.length
  rest : ∀ i, ¬touchedBytes6 dir.address6 (dir.port l4) (checksumOffset l4 protocol) i →
    byteAt d' i = byteAt d i

/-- A rewritten later fragment of IPv4: its payload is as it came. -/
structure Later4 (d d' : List UInt8) (l4 : Nat) : Prop where
  header : l4 ≤ d.length → Verifies (header4 d) → Verifies (header4 d')
  length : d'.length = d.length
  rest : ∀ i, ¬(ip4Checksum ≤ i ∧ i < ip4Checksum + 2) →
    ¬(ip4Destination ≤ i ∧ i < ip4Destination + 4) → byteAt d' i = byteAt d i

/-- A rewritten later fragment of IPv6. -/
structure Later6 (d d' : List UInt8) : Prop where
  length : d'.length = d.length
  rest : ∀ i, ¬(ip6Destination ≤ i ∧ i < ip6Destination + 16) → byteAt d' i = byteAt d i

theorem transport_ne_zero {protocol : UInt8} (h : isTransport protocol = true) : protocol ≠ 0 := by
  rintro rfl
  exact absurd h (by decide)

theorem Pseudo4.pos {protocol : UInt8} {mid : List UInt8} (h : Pseudo4 protocol mid)
    (hp : isTransport protocol = true) : mid.length % 2 = 0 ∧ 0 < (Lib.words16 mid).sum := by
  obtain ⟨len, rfl⟩ := h
  exact ⟨by simp [pseudo4], Lib.sum_words16_pos (b := protocol) (by simp [pseudo4]) (transport_ne_zero hp)⟩

theorem Pseudo6.pos {protocol : UInt8} {mid : List UInt8} (h : Pseudo6 protocol mid)
    (hp : isTransport protocol = true) : mid.length % 2 = 0 ∧ 0 < (Lib.words16 mid).sum := by
  obtain ⟨len, rfl⟩ := h
  exact ⟨by simp [pseudo6, wordBytes],
    Lib.sum_words16_pos (b := protocol) (by simp [pseudo6]) (transport_ne_zero hp)⟩

theorem byteAt_mem_slice {o n i : Nat} (hlen : o + n ≤ d.length) (h : o ≤ i) (h' : i < o + n) :
    byteAt d i ∈ slice d o n := by
  have hi : i < d.length := by omega
  rw [byteAt, List.getD_eq_getElem _ _ hi]
  refine List.mem_iff_getElem.mpr ⟨i - o, by rw [slice_length hlen]; omega, ?_⟩
  simp only [slice, List.getElem_take, List.getElem_drop]
  congr 1
  omega

/-- The header of an IPv4 packet with a version and at least five words. -/
structure Headed (d : List UInt8) (l4 : Nat) : Prop where
  version : byteAt d 14 >>> 4 = 4
  words : 5 ≤ (byteAt d 14 &&& 15).toNat
  ends : l4 = ethernetLength + (byteAt d 14 &&& 15).toNat * 4

/-- What the IPv4 checksum covers. -/
def headerCover (l4 : Nat) : Cover := ⟨ethernetLength, l4 - ethernetLength, l4, 0, []⟩

/-- A header whose sum did not change is as good as it was. -/
theorem Headed.kept {l4 : Nat} (h : Headed d l4) (hlen : l4 ≤ d.length)
    (hlen' : d'.length = d.length) (hfirst : byteAt d' 14 = byteAt d 14)
    (hsum : (headerCover l4).sum d' % 65535 = (headerCover l4).sum d % 65535)
    (hvalid : Verifies (header4 d)) : Verifies (header4 d') := by
  obtain ⟨hversion, hwords, hends⟩ := h
  have hn : (byteAt d 14 &&& 15).toNat * 4 = l4 - ethernetLength := by omega
  have hcover : ∀ x : List UInt8, (headerCover l4).sum x =
      (Lib.words16 (slice x ethernetLength (l4 - ethernetLength))).sum := fun x => by
    simp [Cover.sum, headerCover, slice]
  rw [hcover, hcover] at hsum
  unfold header4 at hvalid ⊢
  rw [hn] at hvalid
  rw [hfirst, hn]
  have hfour : ethernetLength = 14 := rfl
  refine verifies_of_sum ?_ hsum hvalid
  refine Lib.sum_words16_pos (byteAt_mem_slice (i := 14) (by omega) (by omega) (by omega)) ?_
  rw [hfirst]
  intro hz
  rw [hz] at hversion
  exact absurd hversion (by decide)

/-- The helpers of `rewrite_ipv4`. -/
def edits4 (addressOff portOff cs : Nat) (oldA newA oldP newP : List UInt8) (udp : Bool) : List Edit :=
  [.checksum ip4Checksum false oldA newA, .checksum cs udp oldA newA, .checksum cs udp oldP newP,
    .store addressOff newA, .store portOff newP]

/-- The helpers of `rewrite_ipv6`. -/
def edits6 (addressOff portOff cs : Nat) (oldA newA oldP newP : List UInt8) (udp : Bool) : List Edit :=
  [.checksum cs udp (slice oldA 0 4) (slice newA 0 4), .checksum cs udp (slice oldA 4 4) (slice newA 4 4),
    .checksum cs udp (slice oldA 8 4) (slice newA 8 4),
    .checksum cs udp (slice oldA 12 4) (slice newA 12 4), .checksum cs udp oldP newP,
    .store addressOff newA, .store portOff newP]

section rewrite

variable {dir : Direction} {l4 : Nat} {newA oldP newP : List UInt8}

theorem Direction.port_cases (dir : Direction) (l4 : Nat) : dir.port l4 = l4 ∨ dir.port l4 = l4 + 2 := by
  cases dir
  · exact .inr rfl
  · exact .inl rfl

theorem Direction.address4_holds (dir : Direction) : Holds ip4Source 8 dir.address4 4 ∧
    dir.address4 + 4 ≤ 34 ∧ 26 ≤ dir.address4 := by
  cases dir <;> exact ⟨⟨by decide, by decide, by decide⟩, by decide, by decide⟩

theorem Direction.address6_holds (dir : Direction) : Holds ip6Source 32 dir.address6 16 ∧
    dir.address6 + 16 ≤ 54 := by
  cases dir <;> exact ⟨⟨by decide, by decide, by decide⟩, by decide⟩

/-- Bytes before what a transport checksum covers do not matter to it. -/
theorem TransportKept.congr {e : List UInt8} {addresses n l4 : Nat} {protocol : UInt8}
    {pseudo : List UInt8 → Prop} (h : TransportKept e d' addresses n protocol l4 pseudo)
    (hlen : e.length = d.length) (hsame : ∀ {o m}, addresses ≤ o → slice e o m = slice d o m)
    (hbefore : addresses ≤ l4) (hstop : checksumOffset l4 protocol + 2 ≤ d.length) :
    TransportKept d d' addresses n protocol l4 pseudo := by
  have hcs := checksumOffset_le l4 protocol
  have hsum : be16 e (checksumOffset l4 protocol) = be16 d (checksumOffset l4 protocol) :=
    be16_of_slice_eq hstop (by omega) (hsame (by omega))
  refine ⟨fun mid hmid m rest hm hfit hsome hvalid => ?_, fun hudp => ?_⟩
  · refine h.valid mid hmid m rest hm (by omega) (fun hudp => hsum ▸ hsome hudp) ?_
    unfold datagram at hvalid ⊢
    rw [hsame (Nat.le_refl _), hsame hbefore]
    exact hvalid
  · rw [h.none hudp, hsum]

/-- `rewrite_ipv4` keeps both checksums. -/
theorem applyAll_edits4 (h : Headed d l4) (hp : isTransport (byteAt d 23) = true)
    (hA : newA.length = 4) (hP : newP.length = 2)
    (hstop : checksumOffset l4 (byteAt d 23) + 2 ≤ d.length)
    (hd' : d' = applyAll d (edits4 dir.address4 (dir.port l4) (checksumOffset l4 (byteAt d 23))
      (slice d dir.address4 4) newA (slice d (dir.port l4) 2) newP
      (decide (byteAt d 23 = protoUdp)))) (hlen' : d'.length = d.length)
    (hfirst : byteAt d' 14 = byteAt d 14) :
    (Verifies (header4 d) → Verifies (header4 d')) ∧
      TransportKept d d' ip4Source 8 (byteAt d 23) l4 (Pseudo4 (byteAt d 23)) := by
  have hcs := checksumOffset_le l4 (byteAt d 23)
  have hl4 : 34 ≤ l4 := by
    have hwords := h.words
    rw [h.ends, ethernetLength]
    omega
  obtain ⟨haddr, hbefore, hafter⟩ := dir.address4_holds
  have hport := dir.port_cases l4
  have hsum : ip4Checksum = 24 := rfl
  have hsource : ip4Source = 26 := rfl
  have hfour : ethernetLength = 14 := rfl
  generalize he : csumReplace d ip4Checksum false (slice d dir.address4 4) newA = e
  have hlen : e.length = d.length := he ▸ csumReplace_length (by omega) ..
  have hsame : ∀ {o m}, 26 ≤ o → slice e o m = slice d o m := fun ho =>
    he ▸ slice_csumReplace (by omega) (.inr (by omega)) ..
  have hd' : d' = stores (updates (checksumOffset l4 (byteAt d 23))
      (decide (byteAt d 23 = protoUdp)) e [(slice d dir.address4 4, newA),
        (slice d (dir.port l4) 2, newP)]) dir.address4 (dir.port l4) newA newP := he ▸ hd'
  have hlayout : Layout e.length dir.address4 4 (dir.port l4) (checksumOffset l4 (byteAt d 23)) :=
    ⟨by omega, by omega, by omega⟩
  refine ⟨h.kept (by omega) hlen' hfirst ?_, ?_⟩
  · -- the header: its own checksum is updated, the transport checksum and the port lie behind it
    have hfits : (headerCover l4).Fits d.length := ⟨by simp only [headerCover]; omega, by
      simp only [headerCover]
      omega⟩
    have hcovers : (headerCover l4).Covers ip4Checksum 2 := by
      refine .inl ⟨?_, ?_, ?_⟩ <;> simp only [headerCover] <;> omega
    have hcover : (headerCover l4).Covers dir.address4 4 := by
      have heven := haddr.even
      refine .inl ⟨?_, ?_, ?_⟩ <;> simp only [headerCover] <;> omega
    have hskip : ∀ {o}, l4 ≤ o → (headerCover l4).Skips o 2 := fun ho =>
      ⟨.inl (by simp only [headerCover]; omega), .inl (by simp only [headerCover]; omega)⟩
    have hnever : false = true → be16 d ip4Checksum ≠ 0 := fun hbad => absurd hbad (by simp)
    have hfirst := (headerCover l4).sum_csum hfits hcovers (by omega) (slice d dir.address4 4) newA
      hnever
    rw [he] at hfirst
    have hupdates : (updates (checksumOffset l4 (byteAt d 23)) (decide (byteAt d 23 = protoUdp)) e
        [(slice d dir.address4 4, newA), (slice d (dir.port l4) 2, newP)]).length = e.length :=
      updates_length _ hlayout.stop
    have hstores := (sum_stores (k := headerCover l4) (hupdates.symm ▸ hlayout) hA hP (by decide)
      (by rw [hupdates, hlen]; exact hfits) hcover).2 (hskip (by omega))
    rw [sum_updates_of_skips _ hlayout.stop (hskip (by omega)),
      slice_updates _ hlayout.stop (.inl (by omega)), hsame hafter, ← hd'] at hstores
    omega
  · rw [hd']
    refine TransportKept.congr ?_ hlen hsame (by omega) hstop
    refine transportKept_rewrite hlayout (by omega) (by decide) hA hP (by decide) haddr hport ?_ ?_
      fun mid hmid => hmid.pos hp
    · rw [hsame hafter, hsame (by omega)]
      simp
    · simp

/-- Four words of four bytes are sixteen bytes. -/
theorem sum_quarters {a : List UInt8} (h : a.length = 16) :
    (Lib.words16 (slice a 0 4)).sum + (Lib.words16 (slice a 4 4)).sum +
      (Lib.words16 (slice a 8 4)).sum + (Lib.words16 (slice a 12 4)).sum = (Lib.words16 a).sum := by
  have hpart : ∀ o, o + 4 ≤ 16 → (slice a o 4).length % 2 = 0 := fun o ho => by
    rw [slice_length (by omega)]
  have hwhole : a = slice a 0 4 ++ (slice a 4 4 ++ (slice a 8 4 ++ slice a 12 4)) := by
    have hlast : slice a 12 4 = a.drop 12 := List.take_of_length_le (by simp [h])
    have hnext : ∀ o, slice a o 4 ++ a.drop (o + 4) = a.drop o := fun o => by
      rw [slice, ← List.drop_drop, List.take_append_drop]
    rw [hlast, hnext 8, hnext 4, hnext 0, List.drop_zero]
  conv_rhs => rw [hwhole]
  rw [Lib.sum_words16_append _ (hpart 0 (by omega)), Lib.sum_words16_append _ (hpart 4 (by omega)),
    Lib.sum_words16_append _ (hpart 8 (by omega))]
  omega

/-- `rewrite_ipv6` keeps the transport checksum. -/
theorem applyAll_edits6 {protocol : UInt8} (hl4 : 54 ≤ l4) (hp : isTransport protocol = true)
    (hA : newA.length = 16) (hP : newP.length = 2)
    (hstop : checksumOffset l4 protocol + 2 ≤ d.length) {oldA : List UInt8}
    (hold : oldA = slice d dir.address6 16)
    (holdP : (Lib.words16 oldP).sum = (Lib.words16 (slice d (dir.port l4) 2)).sum) :
    TransportKept d (applyAll d (edits6 dir.address6 (dir.port l4) (checksumOffset l4 protocol)
      oldA newA oldP newP (decide (protocol = protoUdp)))) ip6Source 32 protocol l4
      (Pseudo6 protocol) := by
  have hcs := checksumOffset_le l4 protocol
  obtain ⟨haddr, hbefore⟩ := dir.address6_holds
  have hport := dir.port_cases l4
  have hsource : ip6Source = 22 := rfl
  have hlayout : Layout d.length dir.address6 16 (dir.port l4) (checksumOffset l4 protocol) :=
    ⟨by omega, by omega, hstop⟩
  have holdlen : oldA.length = 16 := by rw [hold]; exact slice_length (by omega)
  refine transportKept_rewrite (l := [(slice oldA 0 4, slice newA 0 4), (slice oldA 4 4, slice newA 4 4),
    (slice oldA 8 4, slice newA 8 4), (slice oldA 12 4, slice newA 12 4), (oldP, newP)]) hlayout
    (by omega) (by decide) hA hP (by decide) haddr hport ?_ ?_ fun mid hmid => hmid.pos hp
  · have hsum := sum_quarters holdlen
    rw [← hold, ← holdP]
    simp only [List.map_cons, List.map_nil, List.sum_cons, List.sum_nil]
    omega
  · have hsum := sum_quarters hA
    simp only [List.map_cons, List.map_nil, List.sum_cons, List.sum_nil]
    omega

end rewrite

/-! ## Runs -/

/-- The addresses in the maps have the size the source gives them. -/
structure State.Sized (s : State) : Prop where
  forward : ∀ {k v}, s.originalToToken k = some v → v.tokenAddr.length = 16
  reverse : ∀ {k v}, s.tokenToOriginal k = some v → v.originalAddr.length = 16
  fragment : ∀ {k v}, s.fragments k = some v → v.tokenAddr.length = 16

/-- The packet is as it was, and the maps keep their sizes. -/
def Aside (s s' : State) : Prop := s'.skb = s.skb ∧ (s.Sized → s'.Sized)

instance : IsPreorder State Aside where
  refl _ := ⟨rfl, id⟩
  trans _ _ _ h h' := ⟨h'.1.trans h.1, h'.2 ∘ h.2⟩

section aside

variable {K V : Type} {t : Table K V} {key : K}

theorem aside_vanish (s : State) (v : Vanish) : Aside s (s.vanish v) := by
  have hgone : ∀ {K V : Type} [DecidableEq K] {f : K → Option V} {k k' : K} {x : V},
      update f k none k' = some x → f k' = some x := by
    intro K V _ f k k' x h
    by_cases hk : k' = k
    · rw [hk, update_self] at h
      simp at h
    · rwa [update_of_ne hk] at h
  cases v with
  | forward k => exact ⟨rfl, fun h => ⟨fun hv => h.forward (hgone hv), h.reverse, h.fragment⟩⟩
  | reverse k => exact ⟨rfl, fun h => ⟨h.forward, fun hv => h.reverse (hgone hv), h.fragment⟩⟩
  | bridge k => exact ⟨rfl, fun h => ⟨h.forward, h.reverse, h.fragment⟩⟩
  | fragment k => exact ⟨rfl, fun h => ⟨h.forward, h.reverse, fun hv => h.fragment (hgone hv)⟩⟩

theorem aside_preempt : Act.Keeps (admissible inside) Aside preempt := by
  refine (keeps_ask _).bind fun gone => keeps_modify fun s => ?_
  exact Act.foldl_of_step aside_vanish gone s

/-- A lookup finds what the map holds by then. -/
theorem lookup_aside : Prog.Sat (admissible inside) (fun s' r => Aside s s' ∧ r = t.entry s' key)
    (t.lookup key s) :=
  (aside_preempt s).bind fun _ _ h => ⟨h, rfl⟩

theorem aside_update {value : V} (noexist : Bool) (h : ∀ s, Aside s (t.put s key (some value))) :
    Act.Keeps (admissible inside) Aside (t.update key value noexist) := by
  refine aside_preempt.bind fun _ => (keeps_ask _).bind fun room => keeps_get.bind fun s => ?_
  exact keeps_ite (keeps_pure _) ((keeps_modify h).bind fun _ => keeps_pure _)

theorem aside_delete (h : ∀ s, Aside s (t.put s key none)) :
    Act.Keeps (admissible inside) Aside (t.delete key) :=
  aside_preempt.bind fun _ => keeps_modify h

theorem put_sized {K V : Type} [DecidableEq K] {f : K → Option V} {k k' : K} {x y : V} {P : V → Prop}
    (h : ∀ {k v}, f k = some v → P v) (hy : P y) (hx : update f k (some y) k' = some x) : P x := by
  by_cases hk : k' = k
  · rw [hk, update_self] at hx
    exact Option.some.inj hx ▸ hy
  · rw [update_of_ne hk] at hx
    exact h hx

theorem aside_bridge (s : State) (key : TokenKey) (v : Option OriginalDst) :
    Aside s (bridgeTable.put s key v) := ⟨rfl, fun h => ⟨h.forward, h.reverse, h.fragment⟩⟩

theorem aside_forward {token : TokenValue} (htoken : token.tokenAddr.length = 16) (s : State)
    (key : OriginalKey) : Aside s (forwardTable.put s key (some token)) :=
  ⟨rfl, fun h => ⟨fun hv => put_sized (P := fun v => v.tokenAddr.length = 16) h.forward htoken hv,
    h.reverse, h.fragment⟩⟩

theorem aside_reverse {value : OriginalValue} (hvalue : value.originalAddr.length = 16) (s : State)
    (key : ReverseKey) : Aside s (reverseTable.put s key (some value)) :=
  ⟨rfl, fun h => ⟨h.forward, fun hv => put_sized (P := fun v => v.originalAddr.length = 16) h.reverse
    hvalue hv, h.fragment⟩⟩

theorem aside_unreverse (s : State) (key : ReverseKey) : Aside s (reverseTable.put s key none) :=
  aside_vanish s (.reverse key)

end aside

section admission

variable {hash : OriginalKey → UInt32 → UInt32} {c : RuntimeControl} {o : OriginalKey}

theorem tokenCandidate_length {attempt : UInt32} {a : List UInt8}
    (h : tokenCandidate hash o c attempt = some a) : a.length = 16 := by
  unfold tokenCandidate at h
  dsimp only at h
  split at h
  · split at h
    · simp at h
    · exact Option.some.inj h ▸ copyBytes_length _ _
  · exact Option.some.inj h ▸ copyBytes_length _ _

theorem attemptToken_aside (attempt : UInt32) :
    Act.Keeps (admissible inside) Aside (attemptToken hash o c attempt) := by
  unfold attemptToken
  rcases ha : tokenCandidate hash o c attempt with _ | a
  · exact keeps_pure _
  have hlen : (TokenValue.mk a c.bridgePort c.generation).tokenAddr.length = 16 :=
    tokenCandidate_length ha
  refine (aside_update _ fun s => aside_bridge s _ _).bind fun _ => ?_
  refine keeps_ite (keeps_pure _) ((keeps_ask _).bind fun now => ?_)
  refine (aside_update _ fun s => aside_reverse (copyBytes_length _ _) s _).bind fun _ => ?_
  refine keeps_ite ((aside_delete fun s => aside_bridge s _ _).bind fun _ => keeps_pure _) ?_
  refine (aside_update _ fun s => aside_forward hlen s _).bind fun _ => keeps_ite ?_ (keeps_pure _)
  exact (aside_delete fun s => aside_unreverse s _).bind fun _ =>
    (aside_delete fun s => aside_bridge s _ _).bind fun _ => keeps_pure _

theorem allocateFrom_aside (left : Nat) :
    Act.Keeps (admissible inside) Aside (allocateFrom hash o c left) := by
  induction left with
  | zero => exact keeps_pure _
  | succ left ih =>
      refine (attemptToken_aside _).bind fun r => ?_
      cases r with
      | reserved token => exact keeps_pure _
      | failed => exact keeps_pure _
      | next => exact ih

theorem admitFlow_aside (proxied syn : Bool) :
    Act.Keeps (admissible inside) Aside (admitFlow hash c o proxied syn) := by
  refine Act.Keeps.bind ?_ fun r => ?_
  · refine Act.Keeps.bind (fun s => lookup_aside.mono fun _ _ h => h.1) fun r => ?_
    cases r with
    | none => exact keeps_pure _
    | some token => exact keeps_ite (keeps_pure _) (keeps_pure _)
  · cases r with
    | none =>
        refine keeps_ite (keeps_pure _) ((allocateFrom_aside _).bind fun r => ?_)
        cases r <;> exact keeps_pure _
    | some token =>
        refine keeps_ite (keeps_pure _) ((aside_update _ fun s => aside_bridge s _ _).bind fun _ => ?_)
        exact keeps_ite (keeps_pure _) (keeps_pure _)

theorem rememberFragment_aside (key : FragmentKey) (token : Option (List UInt8))
    (verdict : FragmentVerdict) (generation : UInt32) :
    Act.Keeps (admissible inside) Aside (rememberFragment key token verdict generation) := by
  refine (aside_update _ fun s => ⟨rfl, fun h => ⟨h.forward, h.reverse, fun hv => ?_⟩⟩).bind
    fun _ => keeps_pure _
  exact put_sized (P := fun v => v.tokenAddr.length = 16) h.fragment (copyBytes_length _ _) hv

theorem fragmentRecord_aside (key : FragmentKey) : Prog.Sat (admissible inside)
    (fun s' r => Aside s s' ∧ (s.Sized → ∀ value, r = some value → value.tokenAddr.length = 16))
    (fragmentRecord key c s) := by
  refine lookup_aside.bind fun s₁ r ⟨h₁, hr⟩ => ?_
  cases r with
  | none => exact ⟨h₁, fun _ _ hbad => absurd hbad (by simp)⟩
  | some value =>
      refine Act.sat_ite (fun _ => ⟨h₁, fun _ _ hbad => absurd hbad (by simp)⟩) fun _ => ?_
      exact ⟨h₁, fun hs v hv => Option.some.inj hv ▸ (h₁.2 hs).fragment hr.symm⟩

theorem findOriginal_aside (key : ReverseKey) : Prog.Sat (admissible inside)
    (fun s' r => Aside s s' ∧ (s.Sized → ∀ value, r = some value → value.originalAddr.length = 16))
    (findOriginal key c s) := by
  refine lookup_aside.bind fun s₁ r ⟨h₁, hr⟩ => ?_
  cases r with
  | none => exact ⟨h₁, fun _ _ hbad => absurd hbad (by simp)⟩
  | some value =>
      refine Act.sat_ite (fun _ => ⟨h₁, fun _ _ hbad => absurd hbad (by simp)⟩) fun _ => ?_
      intro now _
      have hlen : s.Sized → value.originalAddr.length = 16 := fun hs => (h₁.2 hs).reverse hr.symm
      refine ⟨⟨h₁.1, fun hs => ?_⟩, fun hs v hv => Option.some.inj hv ▸ hlen hs⟩
      have hseen : { value with lastSeenNs := now }.originalAddr.length = 16 := hlen hs
      exact (aside_reverse hseen s₁ key).2 (h₁.2 hs)

end admission

/-! ## Rewritten packets, by kind -/

/-- The offset of an IPv4 packet in its datagram. -/
def fragmentOffset4 (d : List UInt8) : UInt16 := be16 d 20 &&& 0x3fff &&& 0x1fff

/-- The headers of an IPv6 packet, with a fragment header or without. -/
inductive Headed6 (d : List UInt8) : UInt8 → Nat → Prop where
  | plain (next : byteAt d 20 ≠ 44) : Headed6 d (byteAt d 20) 54
  | fragment (next : byteAt d 20 = 44) (first : be16 d 56 &&& 0xfff8 = 0) : Headed6 d (byteAt d 54) 62

/-- A packet that left rewritten. -/
inductive Whole (dir : Direction) (d d' : List UInt8) : Prop where
  | ipv4 {l4 : Nat} (ethernet : be16 d 12 = 0x0800) (headed : Headed d l4)
      (first : fragmentOffset4 d = 0) (transport : isTransport (byteAt d 23) = true)
      (intact : Intact4 dir d d' l4)
  | later4 {l4 : Nat} (ethernet : be16 d 12 = 0x0800) (headed : Headed d l4)
      (later : fragmentOffset4 d ≠ 0) (transport : isTransport (byteAt d 23) = true)
      (ingress : dir = .ingress) (intact : Later4 d d' l4)
  | ipv6 {protocol : UInt8} {l4 : Nat} (ethernet : be16 d 12 = 0x86dd)
      (headed : Headed6 d protocol l4) (transport : isTransport protocol = true)
      (intact : Intact6 dir d d' protocol l4)
  | later6 (ethernet : be16 d 12 = 0x86dd) (next : byteAt d 20 = 44)
      (later : be16 d 56 &&& 0xfff8 ≠ 0) (transport : isTransport (byteAt d 54) = true)
      (ingress : dir = .ingress) (intact : Later6 d d')

/-- What a classifier makes of a packet. -/
structure Treated (dir : Direction) (s s' : State) (v : Verdict) : Prop where
  sized : s'.Sized
  packet : v = .shot ∨ (v = .pipe ∧ s'.skb = s.skb) ∨ (v = .ok ∧ Whole dir s.skb.data s'.skb.data)

section treated

variable {dir : Direction} {v : Verdict} {l4 : Nat} {newA oldP newP : List UInt8}

theorem Treated.after {s₁ : State} (h : Aside s s₁) (ht : Treated dir s₁ s' v) :
    Treated dir s s' v :=
  ⟨ht.sized, h.1 ▸ ht.packet⟩

theorem treated_shot (hs : s.Sized) : Treated dir s s .shot := ⟨hs, .inl rfl⟩

theorem treated_pipe (hs : s.Sized) : Treated dir s s .pipe := ⟨hs, .inr (.inl ⟨rfl, rfl⟩)⟩

theorem State.Sized.withData (h : s.Sized) (d : List UInt8) : (s.withData d).Sized :=
  ⟨h.forward, h.reverse, h.fragment⟩

theorem Headed.l4_ge (h : Headed d l4) : 34 ≤ l4 := by
  have hwords := h.words
  rw [h.ends, ethernetLength]
  omega

theorem Headed6.l4_ge {protocol : UInt8} (h : Headed6 d protocol l4) : 54 ≤ l4 := by
  cases h with
  | plain => exact Nat.le_refl _
  | fragment => omega

/-- `rewrite_ipv4` leaves a whole packet. -/
theorem rewriteIpv4_treated (hs : s.Sized) (ethernet : be16 s.skb.data 12 = 0x0800)
    (headed : Headed s.skb.data l4) (first : fragmentOffset4 s.skb.data = 0)
    (transport : isTransport (byteAt s.skb.data 23) = true) (hA : newA.length = 4)
    (hP : newP.length = 2) : Prog.Sat (admissible inside) (Treated dir s)
      (rewriteIpv4 dir.address4 (dir.port l4) (checksumOffset l4 (byteAt s.skb.data 23))
        (slice s.skb.data dir.address4 4) newA (slice s.skb.data (dir.port l4) 2) newP
        (byteAt s.skb.data 23) s) := by
  have hl4 := headed.l4_ge
  have hcs := checksumOffset_le l4 (byteAt s.skb.data 23)
  obtain ⟨-, hbefore, hafter⟩ := dir.address4_holds
  have hport := dir.port_cases l4
  refine ((rewriteAll_code (edits4 dir.address4 (dir.port l4)
    (checksumOffset l4 (byteAt s.skb.data 23)) (slice s.skb.data dir.address4 4) newA
    (slice s.skb.data (dir.port l4) 2) newP (decide (byteAt s.skb.data 23 = protoUdp))) s).and
      (rewriteIpv4_sat hA hP (by omega))).mono fun s' v h => ?_
  obtain ⟨⟨d', rfl, hcode⟩, hframe⟩ := h
  refine ⟨hs.withData d', ?_⟩
  rcases hcode with hv | ⟨hv, hd', hstops⟩
  · exact .inl hv
  rcases hframe with hbad | ⟨-, hrewritten⟩
  · exact .inl hbad
  have hedited := hrewritten.edited
  have hfirst : byteAt d' 14 = byteAt s.skb.data 14 := hedited.rest 14 fun ht => by
    simp only [touchedBytes, ip4Checksum] at ht
    omega
  have hstop : checksumOffset l4 (byteAt s.skb.data 23) + 2 ≤ s.skb.data.length :=
    hstops _ (.tail _ (.head _))
  obtain ⟨hheader, htransport⟩ := applyAll_edits4 headed transport hA hP hstop hd' hedited.length
    hfirst
  exact .inr (.inr ⟨hv, .ipv4 ethernet headed first transport
    ⟨hheader, htransport, hedited.length, hedited.rest⟩⟩)

/-- `rewrite_ipv6` leaves a whole packet. -/
theorem rewriteIpv6_treated {protocol : UInt8} {oldA : List UInt8} (hs : s.Sized)
    (ethernet : be16 s.skb.data 12 = 0x86dd) (headed : Headed6 s.skb.data protocol l4)
    (transport : isTransport protocol = true) (hA : newA.length = 16) (hP : newP.length = 2)
    (hold : l4 ≤ s.skb.data.length → oldA = slice s.skb.data dir.address6 16)
    (holdP : dir.port l4 + 2 ≤ s.skb.data.length →
      (Lib.words16 oldP).sum = (be16 s.skb.data (dir.port l4)).toNat) :
    Prog.Sat (admissible inside) (Treated dir s)
      (rewriteIpv6 dir.address6 (dir.port l4) (checksumOffset l4 protocol) oldA newA oldP newP
        protocol s) := by
  have hl4 := headed.l4_ge
  have hcs := checksumOffset_le l4 protocol
  obtain ⟨-, hbefore⟩ := dir.address6_holds
  have hport := dir.port_cases l4
  refine ((rewriteAll_code (edits6 dir.address6 (dir.port l4) (checksumOffset l4 protocol) oldA newA
    oldP newP (decide (protocol = protoUdp))) s).and
      (rewriteIpv6_sat hA hP (by omega))).mono fun s' v h => ?_
  obtain ⟨⟨d', rfl, hcode⟩, hframe⟩ := h
  refine ⟨hs.withData d', ?_⟩
  rcases hcode with hv | ⟨hv, hd', hstops⟩
  · exact .inl hv
  rcases hframe with hbad | ⟨-, hrewritten⟩
  · exact .inl hbad
  have hedited := hrewritten.edited
  have hstop : checksumOffset l4 protocol + 2 ≤ s.skb.data.length := hstops _ (.head _)
  have hsum : (Lib.words16 oldP).sum = (Lib.words16 (slice s.skb.data (dir.port l4) 2)).sum :=
    (holdP (by omega)).trans (sum_slice_two (by omega)).symm
  have htransport := applyAll_edits6 hl4 transport hA hP hstop (hold (by omega)) hsum
  rw [← hd'] at htransport
  exact .inr (.inr ⟨hv, .ipv6 ethernet headed transport
    ⟨htransport, hedited.length, hedited.rest⟩⟩)

/-- A later fragment of IPv4 follows its record: the checksum of its header is updated. -/
theorem redirectLater4_treated {key : FragmentKey} (hs : s.Sized)
    (ethernet : be16 s.skb.data 12 = 0x0800) (headed : Headed s.skb.data l4)
    (later : fragmentOffset4 s.skb.data ≠ 0) (transport : isTransport (byteAt s.skb.data 23) = true)
    (hkey : key.family = afInet) (hA : newA.length = 16) :
    Prog.Sat (admissible inside) (Treated .ingress s) (redirectLater s.skb key newA s) := by
  have hl4 := headed.l4_ge
  have hA' : (newA.take 4).length = 4 := by rw [List.length_take]; omega
  have hprog : redirectLater s.skb key newA =
      rewriteAll ([.checksum ip4Checksum false (slice s.skb.data ip4Destination 4) (newA.take 4),
        .store ip4Destination (newA.take 4)].map Edit.code) := if_pos hkey
  rw [hprog]
  refine (rewriteAll_code _ s).mono fun s' v h => ?_
  obtain ⟨d', rfl, hcode⟩ := h
  refine ⟨hs.withData d', ?_⟩
  rcases hcode with hv | ⟨hv, hd', hstops⟩
  · exact .inl hv
  have hstop : ip4Destination + (newA.take 4).length ≤ s.skb.data.length :=
    hstops (.store ip4Destination (newA.take 4)) (.tail _ (.head _))
  generalize he : csumReplace s.skb.data ip4Checksum false (slice s.skb.data ip4Destination 4)
    (newA.take 4) = e
  have hd' : d' = storeBytes e ip4Destination (newA.take 4) := he ▸ hd'
  have hsum : ip4Checksum = 24 := rfl
  have hdestination : ip4Destination = 30 := rfl
  have hfour : ethernetLength = 14 := rfl
  have helen : e.length = s.skb.data.length := he ▸ csumReplace_length (by omega) ..
  -- bytes outside the checksum and the destination stay
  have hrest : ∀ i, ¬(ip4Checksum ≤ i ∧ i < ip4Checksum + 2) →
      ¬(ip4Destination ≤ i ∧ i < ip4Destination + 4) → byteAt d' i = byteAt s.skb.data i := by
    intro i hcs hdst
    have hone : byteAt e i = byteAt s.skb.data i := he ▸ byteAt_csumReplace (by omega) (by omega) ..
    rw [hd', ← hone]
    by_cases hbefore : i < ip4Destination
    · exact byteAt_storeBytes_of_lt (by omega) hbefore
    · exact byteAt_storeBytes_of_ge (by omega) (by omega)
  have hlen' : d'.length = s.skb.data.length := by rw [hd', storeBytes_length (by omega), helen]
  refine .inr (.inr ⟨hv, .later4 ethernet headed later transport rfl ⟨fun hlen => ?_, hlen', hrest⟩⟩)
  -- the sum over the header: the update takes away what the store adds
  refine headed.kept hlen hlen' (hrest 14 (by omega) (by omega)) ?_
  show (headerCover l4).sum d' % 65535 = (headerCover l4).sum s.skb.data % 65535
  have hends : (headerCover l4).second = l4 ∧ (headerCover l4).secondLen = 0 ∧
      (headerCover l4).first = 14 ∧ (headerCover l4).firstLen = l4 - 14 := ⟨rfl, rfl, rfl, rfl⟩
  have hfits : (headerCover l4).Fits s.skb.data.length := ⟨by omega, by omega⟩
  have hnever : false = true → be16 s.skb.data ip4Checksum ≠ 0 := fun hbad => absurd hbad (by simp)
  have hcsum := (headerCover l4).sum_csum hfits (.inl ⟨by omega, by omega, by omega⟩) (by omega)
    (slice s.skb.data ip4Destination 4) (newA.take 4) hnever
  rw [he] at hcsum
  have hcovers : (headerCover l4).Covers ip4Destination (newA.take 4).length :=
    .inl ⟨by omega, by omega, by omega⟩
  have hstore := (headerCover l4).sum_store (helen.symm ▸ hfits) hcovers (by omega)
  have hsame : slice e ip4Destination 4 = slice s.skb.data ip4Destination 4 :=
    he ▸ slice_csumReplace (by omega) (.inr (by omega)) ..
  rw [hA', hsame, ← hd'] at hstore
  omega

/-- A later fragment of IPv6 follows its record. -/
theorem redirectLater6_treated {key : FragmentKey} (hs : s.Sized)
    (ethernet : be16 s.skb.data 12 = 0x86dd) (next : byteAt s.skb.data 20 = 44)
    (later : be16 s.skb.data 56 &&& 0xfff8 ≠ 0) (transport : isTransport (byteAt s.skb.data 54) = true)
    (hkey : key.family ≠ afInet) (hA : newA.length = 16) :
    Prog.Sat (admissible inside) (Treated .ingress s) (redirectLater s.skb key newA s) := by
  have hprog : redirectLater s.skb key newA = rewriteAll ([.store ip6Destination newA].map Edit.code) :=
    if_neg hkey
  rw [hprog]
  refine (rewriteAll_code _ s).mono fun s' v h => ?_
  obtain ⟨d', rfl, hcode⟩ := h
  refine ⟨hs.withData d', ?_⟩
  rcases hcode with hv | ⟨hv, hd', hstops⟩
  · exact .inl hv
  have hstop : ip6Destination + newA.length ≤ s.skb.data.length := hstops _ (.head _)
  have hd' : d' = storeBytes s.skb.data ip6Destination newA := hd'
  refine .inr (.inr ⟨hv, .later6 ethernet next later transport rfl ⟨?_, fun i hi => ?_⟩⟩)
  · exact hd' ▸ storeBytes_length hstop
  · rw [hd']
    by_cases hbefore : i < ip6Destination
    · exact byteAt_storeBytes_of_lt (by omega) hbefore
    · exact byteAt_storeBytes_of_ge (by omega) (by omega)

end treated

/-! ## Ingress -/

section ingress

variable {c : RuntimeControl} {skb : Skb} {hash : OriginalKey → UInt32 → UInt32}

/-- The headers of a packet with ports. -/
inductive FlowHeaders (d : List UInt8) (e : Endpoints) (l4 : Nat) : Prop where
  | ipv4 (ethernet : be16 d 12 = 0x0800) (headed : Headed d l4) (first : fragmentOffset4 d = 0)
      (transport : isTransport (byteAt d 23) = true) (ends : e = endpoints4 d l4)
  | ipv6 {protocol : UInt8} (ethernet : be16 d 12 = 0x86dd) (headed : Headed6 d protocol l4)
      (transport : isTransport protocol = true) (ends : e = endpoints6 d protocol l4)

/-- The headers of a later fragment. -/
inductive LaterHeaders (d : List UInt8) (key : FragmentKey) : Prop where
  | ipv4 {l4 : Nat} (ethernet : be16 d 12 = 0x0800) (headed : Headed d l4)
      (later : fragmentOffset4 d ≠ 0) (transport : isTransport (byteAt d 23) = true)
      (family : key.family = afInet)
  | ipv6 (ethernet : be16 d 12 = 0x86dd) (next : byteAt d 20 = 44)
      (later : be16 d 56 &&& 0xfff8 ≠ 0) (transport : isTransport (byteAt d 54) = true)
      (family : key.family ≠ afInet)

theorem headed_of_accepted {d : List UInt8}
    (h : ¬(byteAt d 14 >>> 4 ≠ 4 ∨ (byteAt d 14 &&& 15).toNat < 5)) :
    Headed d (ethernetLength + (byteAt d 14 &&& 15).toNat * 4) := by
  rw [not_or, not_lt] at h
  exact ⟨not_not.mp h.1, h.2, rfl⟩

theorem kind6Transport_headers {protocol : UInt8} {l4 l4' : Nat} {fragment f : Option FragmentKey}
    {e : Endpoints} (h : kind6Transport c skb protocol l4' f = .flow e l4 fragment) :
    l4 = l4' ∧ isTransport protocol = true ∧ e = endpoints6 skb.data protocol l4 := by
  unfold kind6Transport at h
  split_ifs at h with hp
  obtain ⟨rfl, rfl, rfl⟩ := Kind.flow.inj h
  exact ⟨rfl, by simpa using hp, rfl⟩

theorem kind_flowHeaders {e : Endpoints} {l4 : Nat} {fragment : Option FragmentKey}
    (h : kind c skb = .flow e l4 fragment) : FlowHeaders skb.data e l4 := by
  unfold kind at h
  split_ifs at h with _ h4 _ h6
  · dsimp only [kind4] at h
    split_ifs at h with hver hlater _ _ hp
    all_goals
      obtain ⟨rfl, rfl, rfl⟩ := Kind.flow.inj h
      exact .ipv4 h4 (headed_of_accepted hver) (not_not.mp hlater) (by simpa using hp) rfl
  · dsimp only [kind6] at h
    split_ifs at h with hver hnf _ hp hoff
    · obtain ⟨rfl, hp, he⟩ := kind6Transport_headers h
      exact .ipv6 h6 (.plain hnf) hp he
    · obtain ⟨rfl, hp, he⟩ := kind6Transport_headers h
      exact .ipv6 h6 (.fragment (not_not.mp hnf) (not_not.mp hoff)) hp he

theorem kind6Transport_ne_later {protocol : UInt8} {l4 : Nat} {f : Option FragmentKey}
    {key : FragmentKey} : kind6Transport c skb protocol l4 f ≠ .later key := by
  unfold kind6Transport
  split_ifs <;> simp

theorem kind_laterHeaders {key : FragmentKey} (h : kind c skb = .later key) :
    LaterHeaders skb.data key := by
  unfold kind at h
  split_ifs at h with _ h4 _ h6
  · dsimp only [kind4] at h
    split_ifs at h with hver hlater hp
    cases h
    exact .ipv4 h4 (headed_of_accepted hver) hlater hp rfl
  · dsimp only [kind6] at h
    split_ifs at h with hver hnf _ hp hoff
    · exact absurd h kind6Transport_ne_later
    · cases h
      exact .ipv6 h6 (not_not.mp hnf) hoff (by simpa using hp) (by show ¬afInet6 = afInet; decide)
    · exact absurd h kind6Transport_ne_later

theorem copyBytes_slice {d : List UInt8} {off : Nat} (h : off + 16 ≤ d.length) :
    copyBytes (slice d off 16) 16 = slice d off 16 :=
  copyBytes_sixteen (slice_length h)

/-- The rewrite of a flow's packet. -/
theorem rewriteTo_treated {e : Endpoints} {l4 : Nat} {token : List UInt8} (hs : s.Sized)
    (h : FlowHeaders s.skb.data e l4) (hlen : token.length = 16) :
    Prog.Sat (admissible inside) (Treated .ingress s) (rewriteTo c s.skb e l4 token s) := by
  cases h with
  | ipv4 ethernet headed first transport ends =>
      subst ends
      have hfour : (token.take 4).length = 4 := by rw [List.length_take]; omega
      have hprog : rewriteTo c s.skb (endpoints4 s.skb.data l4) l4 token =
          rewriteIpv4 ip4Destination (l4 + 2) (checksumOffset l4 (byteAt s.skb.data 23))
            (slice s.skb.data ip4Destination 4) (token.take 4) (slice s.skb.data (l4 + 2) 2)
            (portBytes c.bridgePort) (byteAt s.skb.data 23) := rfl
      rw [hprog]
      exact rewriteIpv4_treated hs ethernet headed first transport hfour (portBytes_length _)
  | @ipv6 protocol ethernet headed transport ends =>
      subst ends
      have hprog : rewriteTo c s.skb (endpoints6 s.skb.data protocol l4) l4 token =
          rewriteIpv6 ip6Destination (l4 + 2) (checksumOffset l4 protocol)
            (copyBytes (slice s.skb.data ip6Destination 16) 16) token
            (portBytes (be16 s.skb.data (l4 + 2))) (portBytes c.bridgePort) protocol := rfl
      rw [hprog]
      have hl4 := headed.l4_ge
      have hdestination : ip6Destination = 38 := rfl
      exact rewriteIpv6_treated hs ethernet headed transport hlen (portBytes_length _)
        (fun hle => copyBytes_slice (by omega)) fun _ => sum_portBytes _

/-- What is left of ingress when the flow's admission is known. -/
theorem finishIngress_treated {fragment : Option FragmentKey} {rewrite : TokenValue → Code Verdict}
    (hs : s.Sized) (hrw : ∀ token s₁, Aside s s₁ → token.tokenAddr.length = 16 →
      Prog.Sat (admissible inside) (Treated .ingress s₁) (rewrite token s₁)) (admission : Admission)
    (hlen : ∀ token, admission = .rewrite token → token.tokenAddr.length = 16) :
    Prog.Sat (admissible inside) (Treated .ingress s) (finishIngress c fragment rewrite admission s) := by
  cases admission with
  | pass =>
      cases fragment with
      | none => exact treated_pipe hs
      | some key =>
          refine (rememberFragment_aside key _ _ _ s).bind fun s₁ _ h₁ => ?_
          exact (treated_pipe (h₁.2 hs)).after h₁
  | unpublished => exact treated_pipe hs
  | rewrite token =>
      have hlen := hlen token rfl
      cases fragment with
      | none => exact hrw token s (refl_of Aside s) hlen
      | some key =>
          refine (rememberFragment_aside key _ _ _ s).bind fun s₁ _ h₁ => ?_
          exact (hrw token s₁ h₁ hlen).mono fun s₂ v h₂ => h₂.after h₁

/-- A later fragment. -/
theorem followFirst_treated {key : FragmentKey} (hs : s.Sized) (h : LaterHeaders s.skb.data key) :
    Prog.Sat (admissible inside) (Treated .ingress s) (followFirst c s.skb key s) := by
  refine (fragmentRecord_aside key).bind fun s₁ r ⟨h₁, hlen⟩ => ?_
  have hs₁ := h₁.2 hs
  cases r with
  | none =>
      show Treated .ingress s s₁ (verdictUnseen c key)
      unfold verdictUnseen
      split
      · exact (treated_shot hs₁).after h₁
      · exact (treated_pipe hs₁).after h₁
  | some value =>
      refine Act.sat_ite (fun _ => (treated_pipe hs₁).after h₁) fun _ => ?_
      have hlen := hlen hs value rfl
      have hredirect : Prog.Sat (admissible inside) (Treated .ingress s₁)
          (redirectLater s₁.skb key value.tokenAddr s₁) := by
        rw [← h₁.1] at h
        cases h with
        | ipv4 ethernet headed later transport family =>
            exact redirectLater4_treated hs₁ ethernet headed later transport family hlen
        | ipv6 ethernet next later transport family =>
            exact redirectLater6_treated hs₁ ethernet next later transport family hlen
      rw [h₁.1] at hredirect
      exact hredirect.mono fun s₂ v h₂ => h₂.after h₁

/-- **Ingress** drops a packet, passes it or leaves it whole. -/
theorem ingress_treated (hs : s.Sized) :
    Prog.Sat (admissible Anything) (Treated .ingress s) (classifyPulled hash c .ingress s) := by
  rw [classifyPulled_ingress]
  rcases hk : kind c s.skb with _ | _ | key | fragment | ⟨e, l4, fragment⟩
  · exact treated_shot hs
  · exact treated_pipe hs
  · exact followFirst_treated hs (kind_laterHeaders hk)
  · show Prog.Sat _ _ (finishIngress c fragment (fun _ => pure .pipe) .pass s)
    refine finishIngress_treated hs (fun _ s₁ h₁ _ => ?_) .pass fun _ hbad => absurd hbad (by simp)
    exact treated_pipe (h₁.2 hs)
  · have hheaders := kind_flowHeaders hk
    refine ((admitFlow_aside _ _ s).and (admitFlow_drifts _ _ _ fun _ _ ht => hs.forward ht)).bind
      fun s₁ admission h => ?_
    obtain ⟨h₁, -, hlen⟩ := h
    refine (finishIngress_treated (h₁.2 hs) (fun token s₂ h₂ hlen => ?_) admission hlen).mono
      fun s₂ v h₂ => h₂.after h₁
    have hskb : s₂.skb = s.skb := h₂.1.trans h₁.1
    rw [← hskb] at hheaders ⊢
    exact rewriteTo_treated (h₂.2 (h₁.2 hs)) hheaders hlen

end ingress

/-! ## Egress -/

section egress

variable {c : RuntimeControl} {hash : OriginalKey → UInt32 → UInt32}

theorem egress4_treated (hs : s.Sized) (ethernet : be16 s.skb.data 12 = 0x0800) :
    Prog.Sat (admissible inside) (Treated .egress s) (egress4 c s) := by
  refine Act.sat_ite (fun _ => treated_shot hs) fun hver => ?_
  have headed := headed_of_accepted hver
  generalize ethernetLength + (byteAt s.skb.data 14 &&& 15).toNat * 4 = l4 at headed ⊢
  refine Act.sat_ite (fun _ => treated_shot hs) fun _ => ?_
  refine Act.sat_ite (fun _ => treated_pipe hs) fun _ => ?_
  refine Act.sat_ite (fun _ => treated_shot hs) fun hfrag => ?_
  refine Act.sat_ite (fun _ => treated_shot hs) fun hp => ?_
  refine Act.sat_ite (fun _ => treated_shot hs) fun _ => ?_
  have hfirst : fragmentOffset4 s.skb.data = 0 := by
    unfold fragmentOffset4
    rw [not_not.mp hfrag]
    rfl
  have htransport := isTransport_iff.mpr hp
  refine (findOriginal_aside _).bind fun s₁ r ⟨h₁, hlen⟩ => ?_
  cases r with
  | none => exact (treated_shot (h₁.2 hs)).after h₁
  | some original =>
      have hfour : (original.originalAddr.take 4).length = 4 := by
        rw [List.length_take, hlen hs original rfl]
        omega
      refine Prog.Sat.mono ?_ fun s₂ v h₂ => Treated.after h₁ h₂
      have hskb := h₁.1
      rw [← hskb] at ethernet headed hfirst htransport ⊢
      exact rewriteIpv4_treated (h₁.2 hs) ethernet headed hfirst htransport hfour (portBytes_length _)

theorem egress6_treated (hs : s.Sized) (ethernet : be16 s.skb.data 12 = 0x86dd) :
    Prog.Sat (admissible inside) (Treated .egress s) (egress6 c s) := by
  refine Act.sat_ite (fun _ => treated_pipe hs) fun _ => ?_
  refine Act.sat_ite (fun _ => treated_shot hs) fun _ => ?_
  refine Act.sat_ite (fun _ => treated_pipe hs) fun _ => ?_
  refine Act.sat_ite (fun _ => treated_shot hs) fun hp => ?_
  refine Act.sat_ite (fun _ => treated_shot hs) fun _ => ?_
  refine Act.sat_ite (fun _ => treated_shot hs) fun hport => ?_
  have htransport := isTransport_iff.mpr hp
  have headed : Headed6 s.skb.data (byteAt s.skb.data 20) 54 := .plain fun hbad => by
    rw [hbad] at htransport
    exact absurd htransport (by decide)
  refine (findOriginal_aside _).bind fun s₁ r ⟨h₁, hlen⟩ => ?_
  cases r with
  | none => exact (treated_shot (h₁.2 hs)).after h₁
  | some original =>
      refine Prog.Sat.mono ?_ fun s₂ v h₂ => Treated.after h₁ h₂
      have hskb := h₁.1
      rw [← hskb] at ethernet headed htransport hport ⊢
      have hsource : ip6Source + 16 ≤ 54 := by decide
      refine rewriteIpv6_treated (h₁.2 hs) ethernet headed htransport (hlen hs original rfl)
        (portBytes_length _) (fun hle => copyBytes_slice (hsource.trans hle)) fun _ => ?_
      rw [sum_portBytes, ← not_not.mp hport]
      rfl

/-- **Egress** drops a packet, passes it or leaves it whole. -/
theorem egress_treated (hs : s.Sized) :
    Prog.Sat (admissible inside) (Treated .egress s) (classifyPulled hash c .egress s) := by
  refine Act.sat_ite (fun _ => treated_shot hs) fun _ => ?_
  refine Act.sat_ite (fun h4 => ?_) fun _ => ?_
  · exact Act.sat_ite (fun _ => treated_shot hs) fun _ => egress4_treated hs h4
  refine Act.sat_ite (fun h6 => ?_) fun _ => treated_pipe hs
  exact Act.sat_ite (fun _ => treated_shot hs) fun _ => egress6_treated hs h6

end egress

/-! ## Runs of packets -/

section runs

variable {c : RuntimeControl} {hash : OriginalKey → UInt32 → UInt32} {between : State → Vanish → Prop}

theorem classify_treated (dir : Direction) (hs : s.Sized) :
    Prog.Sat (admissible Anything) (Treated dir s) (classify hash c dir s) := by
  refine Act.sat_ite (fun _ => treated_pipe hs) fun _ => ?_
  intro pulled _
  refine Act.sat_ite (fun _ => treated_pipe hs) fun _ => ?_
  cases dir with
  | ingress => exact ingress_treated hs
  | egress => exact egress_treated hs

theorem State.Sized.step (h : s.Sized) (hs : Step Anything between hash c s s') : s'.Sized := by
  cases hs with
  | packet dir skb v run =>
      have hskb : { s with skb := skb }.Sized := ⟨h.forward, h.reverse, h.fragment⟩
      exact ((classify_treated dir hskb).out run).sized
  | vanish v allowed => exact (aside_vanish s v).2 h
  | policy cidr4 cidr6 => exact ⟨h.forward, h.reverse, h.fragment⟩

theorem sized_reach (h : Reach Anything between hash c s) : s.Sized := by
  obtain ⟨cidr4, cidr6, skb, hs⟩ := h
  induction hs with
  | refl => refine ⟨?_, ?_, ?_⟩ <;> intro k v hbad <;> cases hbad
  | tail _ hs ih => exact ih.step hs

/-- **Packets stay whole**: whatever ran before and whatever other parties remove meanwhile, a packet
is dropped, passes as it came or leaves rewritten with the checksums as good as they were. -/
theorem packets_whole (hash : OriginalKey → UInt32 → UInt32) (c : RuntimeControl) (s : State)
    (hs : Reach Anything (fun _ _ => True) hash c s) (dir : Direction) (skb : Skb) (s' : State)
    (v : Verdict)
    (hrun : Prog.Out (admissible Anything) (classify hash c dir { s with skb := skb }) s' v) :
    v = .shot ∨ (v = .pipe ∧ s'.skb = skb) ∨ (v = .ok ∧ Whole dir skb.data s'.skb.data) := by
  have hsized := sized_reach hs
  have hskb : { s with skb := skb }.Sized := ⟨hsized.forward, hsized.reverse, hsized.fragment⟩
  exact ((classify_treated dir hskb).out hrun).packet

end runs

/-! ### One packet -/

/-- The query with its checksums. -/
def signedQuery : Skb where
  ifindex := 3
  data := [2, 0, 0, 0, 0, 1, 2, 0, 0, 0, 0, 2, 8, 0, 0x45, 0, 0, 28, 0, 1, 0, 0, 64, 17, 127, 22,
    192, 168, 43, 2, 8, 8, 8, 8, 0x9c, 0x40, 0, 53, 0, 8, 103, 174]
  headlen := 42

/-- It leaves for the token with both checksums right. -/
theorem signedQuery_whole : ∃ s',
    Prog.Out (admissible Anything)
      (classify hashOriginal sampleControl .ingress { sampleStart with skb := signedQuery }) s' .ok ∧
    Verifies (header4 s'.skb.data) ∧
    Verifies (datagram s'.skb.data ip4Source 8 (pseudo4 protoUdp 8) 34 8 []) ∧
    s'.skb.data ≠ signedQuery.data := by
  have hrun : (ingressOn sampleStart signedQuery).map (fun r => (r.2, slice r.1.skb.data 30 4)) =
      some (.ok, [127, 171, 145, 176]) := by decide +kernel
  obtain ⟨⟨s', v⟩, hs, heq⟩ := Option.map_eq_some_iff.mp hrun
  obtain ⟨hv, haddress⟩ := Prod.mk.inj heq
  have hv : v = .ok := hv
  subst hv
  have hout := ingressOn_out hs
  refine ⟨s', hout, ?_⟩
  have hheader : Verifies (header4 signedQuery.data) := by decide +kernel
  have hdatagram : Verifies (datagram signedQuery.data ip4Source 8 (pseudo4 protoUdp 8) 34 8 []) := by
    decide +kernel
  have hmoved : s'.skb.data ≠ signedQuery.data := fun hsame => by
    have hsame : slice s'.skb.data 30 4 = slice signedQuery.data 30 4 := by rw [hsame]
    exact absurd (haddress.symm.trans hsame) (by decide)
  obtain hbad | ⟨hbad, -⟩ | ⟨-, hwhole⟩ := packets_whole hashOriginal sampleControl sampleStart
    ⟨_, _, _, .refl⟩ .ingress signedQuery s' .ok hout
  · cases hbad
  · cases hbad
  cases hwhole with
  | @ipv4 l4 ethernet headed first transport intact =>
      have hl4 : l4 = 34 := headed.ends
      subst hl4
      refine ⟨intact.header hheader, ?_, hmoved⟩
      exact intact.transport.valid (pseudo4 protoUdp 8) ⟨8, rfl⟩ 8 [] (by decide) (by decide)
        (fun _ => by decide) hdatagram
  | later4 ethernet headed later => exact absurd later (by decide)
  | ipv6 ethernet => exact absurd ethernet (by decide)
  | later6 ethernet => exact absurd ethernet (by decide)

end Bpf2Socks.Tc
