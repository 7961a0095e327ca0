/-
# Bpf2Socks.Tc.Kinds — the ingress classifier by kind of packet.

What ingress does with a packet is decided twice: the headers say of what kind the packet is, and
the maps say what happens to a packet of that kind.  `kind` is the first decision, a function of the
packet and the flags alone; `handle` is the second.  `classifyPulled_ingress` puts them together, so
that a property of ingress is a property of five kinds of packets.
-/
import Bpf2Socks.Tc.Answer

namespace Bpf2Socks.Tc

open Lib (Act Prog)

/-- What the headers make of a packet. -/
inductive Kind where
  /-- Malformed, or addressed to the tokens themselves. -/
  | dropped
  /-- Neither TCP nor UDP over IP. -/
  | ignored
  /-- A later fragment of a TCP or UDP datagram. -/
  | later (key : FragmentKey)
  /-- IPv6 that is not served, possibly the first fragment of a datagram. -/
  | unserved (fragment : Option FragmentKey)
  /-- A packet with ports at `l4`, possibly the first fragment of a datagram. -/
  | flow (e : Endpoints) (l4 : Nat) (fragment : Option FragmentKey)
  deriving DecidableEq

/-- The fragment key of an IPv4 packet. -/
def fragmentKey4 (skb : Skb) : FragmentKey :=
  fillFragmentKey skb.ifindex afInet (byteAt skb.data 23) (raw16 skb.data 18).toUInt32
    (slice skb.data ip4Source 4) (slice skb.data ip4Destination 4) 4

/-- The fragment key of an IPv6 packet with a fragment header. -/
def fragmentKey6 (skb : Skb) : FragmentKey :=
  fillFragmentKey skb.ifindex afInet6 (byteAt skb.data 54) (raw32 skb.data 58)
    (slice skb.data ip6Source 16) (slice skb.data ip6Destination 16) 16

/-- TCP or UDP. -/
def isTransport (protocol : UInt8) : Bool := protocol = protoTcp ∨ protocol = protoUdp

/-- The kind of an IPv4 packet. -/
def kind4 (skb : Skb) : Kind :=
  let d := skb.data
  let l4 := ethernetLength + (byteAt d 14 &&& 15).toNat * 4
  if byteAt d 14 >>> 4 ≠ 4 ∨ (byteAt d 14 &&& 15).toNat < 5 then .dropped
  else if be16 d 20 &&& 0x3fff &&& 0x1fff ≠ 0 then
    if isTransport (byteAt d 23) then .later (fragmentKey4 skb) else .ignored
  else if skb.headlen < l4 + portsLength then .dropped
  else if !isTransport (byteAt d 23) then .ignored
  else if hostWord (slice d ip4Destination 4) &&& 0xff000000 = 0x7f000000 then .dropped
  else .flow (endpoints4 d l4) l4
    (if be16 d 20 &&& 0x3fff ≠ 0 then some (fragmentKey4 skb) else none)

/-- The kind of an IPv6 packet from the transport header on. -/
def kind6Transport (c : RuntimeControl) (skb : Skb) (protocol : UInt8) (l4 : Nat)
    (fragment : Option FragmentKey) : Kind :=
  if !isTransport protocol then .ignored
  else if skb.headlen < l4 + portsLength then .dropped
  else if ipv6InTokenPrefix (slice skb.data ip6Destination 16) c then .dropped
  else if !flagSet c.flags runtimeIpv6 ∧
      (!flagSet c.flags runtimeDnsHijack ∨ be16 skb.data (l4 + 2) ≠ 53) then .unserved fragment
  else .flow (endpoints6 skb.data protocol l4) l4 fragment

/-- The kind of an IPv6 packet. -/
def kind6 (c : RuntimeControl) (skb : Skb) : Kind :=
  let d := skb.data
  if byteAt d 14 >>> 4 ≠ 6 then .dropped
  else if byteAt d 20 ≠ 44 then kind6Transport c skb (byteAt d 20) 54 none
  else if skb.headlen < 62 then .dropped
  else if !isTransport (byteAt d 54) then .ignored
  else if be16 d 56 &&& 0xfff8 ≠ 0 then .later (fragmentKey6 skb)
  else kind6Transport c skb (byteAt d 54) 62 (some (fragmentKey6 skb))

/-- The kind of a packet. -/
def kind (c : RuntimeControl) (skb : Skb) : Kind :=
  if skb.headlen < ethernetLength then .dropped
  else if be16 skb.data 12 = 0x0800 then
    if skb.headlen < ethernetLength + 20 then .dropped else kind4 skb
  else if be16 skb.data 12 = 0x86dd then
    if skb.headlen < ethernetLength + ipv6Length then .dropped else kind6 c skb
  else .ignored

/-! ## What happens to a kind -/

/-- Does policy send a packet with these ends to the proxy? -/
def policyAdmits (c : RuntimeControl) (s : State) (e : Endpoints) : Bool :=
  if e.family = afInet then policy4Proxy s e.destination e.protocol e.destinationPort c.flags
  else policy6Proxy s e.destination e.protocol e.destinationPort c.flags

/-- The rewrite of a packet to a token address. -/
def rewriteTo (c : RuntimeControl) (skb : Skb) (e : Endpoints) (l4 : Nat) (token : List UInt8) :
    Code Verdict :=
  if e.family = afInet then
    rewriteIpv4 ip4Destination (l4 + 2) (checksumOffset l4 e.protocol) e.destination (token.take 4)
      (slice skb.data (l4 + 2) 2) (portBytes c.bridgePort) e.protocol
  else
    rewriteIpv6 ip6Destination (l4 + 2) (checksumOffset l4 e.protocol)
      (copyBytes e.destination 16) token (portBytes e.destinationPort) (portBytes c.bridgePort)
      e.protocol

/-- The rewrite of a later fragment to a token address. -/
def redirectLater (skb : Skb) (key : FragmentKey) (token : List UInt8) : Code Verdict :=
  if key.family = afInet then
    rewriteAll
      [replaceChecksum ip4Checksum false (slice skb.data ip4Destination 4) (token.take 4),
       skbStoreBytes ip4Destination (token.take 4)]
  else rewriteAll [skbStoreBytes ip6Destination token]

/-- A later fragment whose first fragment left no record is dropped, but for IPv6 that is not
served. -/
def verdictUnseen (c : RuntimeControl) (key : FragmentKey) : Verdict :=
  if key.family = afInet ∨ flagSet c.flags runtimeIpv6 then .shot else .pipe

/-- A later fragment follows the record of its first fragment. -/
def followFirst (c : RuntimeControl) (skb : Skb) (key : FragmentKey) : Code Verdict := do
  match ← fragmentRecord key c with
  | none => pure (verdictUnseen c key)
  | some fragment =>
      if fragment.verdict ≠ .rewrite then pure .pipe else redirectLater skb key fragment.tokenAddr

/-- A packet with ports: its flow is admitted, and it passes or is rewritten. -/
def handleFlow (hash : OriginalKey → UInt32 → UInt32) (c : RuntimeControl) (s : State)
    (e : Endpoints) (l4 : Nat) (fragment : Option FragmentKey) : Code Verdict := do
  let admission ← admitFlow hash c (flowOf s.skb.ifindex e) (policyAdmits c s e)
    (e.protocol = protoTcp ∧ isTcpSyn s.skb l4)
  finishIngress c fragment (fun token => rewriteTo c s.skb e l4 token.tokenAddr) admission

/-- What ingress does with a packet of a kind that finds the maps in `s`. -/
def handle (hash : OriginalKey → UInt32 → UInt32) (c : RuntimeControl) (s : State) :
    Kind → Code Verdict
  | .dropped => pure .shot
  | .ignored => pure .pipe
  | .later key => followFirst c s.skb key
  | .unserved fragment => finishIngress c fragment (fun _ => pure .pipe) .pass
  | .flow e l4 fragment => handleFlow hash c s e l4 fragment

section

variable {hash : OriginalKey → UInt32 → UInt32} {c : RuntimeControl} {s : State}

theorem isTransport_iff {protocol : UInt8} :
    isTransport protocol = true ↔ ¬(protocol ≠ protoTcp ∧ protocol ≠ protoUdp) := by
  unfold isTransport
  rw [decide_eq_true_iff]
  tauto

theorem ingress4LaterFragment_eq (h : isTransport (byteAt s.skb.data 23) = true) :
    ingress4LaterFragment c s = followFirst c s.skb (fragmentKey4 s.skb) s := by
  show (if _ then _ else _ : Code Verdict) s = _
  rw [if_neg (isTransport_iff.mp h)]
  rfl

theorem ingress4Flow_eq (l4 : Nat) (first : Bool) :
    ingress4Flow hash c l4 first s = handleFlow hash c s (endpoints4 s.skb.data l4) l4
      (if first then some (fragmentKey4 s.skb) else none) s :=
  rfl

theorem ingress4_eq : ingress4 hash c s = handle hash c s (kind4 s.skb) s := by
  show (if _ then _ else _ : Code Verdict) s = _
  dsimp only [kind4]
  by_cases hver : byteAt s.skb.data 14 >>> 4 ≠ 4 ∨ (byteAt s.skb.data 14 &&& 15).toNat < 5
  · rw [if_pos hver, if_pos hver]
    rfl
  rw [if_neg hver, if_neg hver]
  by_cases hlater : be16 s.skb.data 20 &&& 0x3fff &&& 0x1fff ≠ 0
  · rw [if_pos hlater, if_pos hlater]
    by_cases hp : isTransport (byteAt s.skb.data 23) = true
    · rw [if_pos hp]
      exact ingress4LaterFragment_eq hp
    · rw [if_neg hp]
      show (if _ then _ else _ : Code Verdict) s = _
      rw [if_pos (not_not.mp fun h => hp (isTransport_iff.mpr h))]
      rfl
  rw [if_neg hlater, if_neg hlater]
  by_cases hlen : s.skb.headlen <
      ethernetLength + (byteAt s.skb.data 14 &&& 15).toNat * 4 + portsLength
  · rw [if_pos hlen, if_pos hlen]
    rfl
  rw [if_neg hlen, if_neg hlen]
  by_cases hp : isTransport (byteAt s.skb.data 23) = true
  · rw [if_neg (isTransport_iff.mp hp)]
    simp only [hp, Bool.not_true, Bool.false_eq_true, ↓reduceIte]
    split
    · rfl
    · rw [ingress4Flow_eq]
      simp only [decide_eq_true_eq]
      rfl
  · rw [if_pos (not_not.mp fun h => hp (isTransport_iff.mpr h))]
    simp only [hp, Bool.not_false, ↓reduceIte]
    rfl

theorem ingress6LaterFragment_eq (skb : Skb) :
    ingress6LaterFragment (fragmentKey6 skb) c = followFirst c skb (fragmentKey6 skb) := by
  unfold ingress6LaterFragment followFirst
  congr 1
  funext r
  cases r with
  | none =>
      show (if _ then pure Verdict.shot else pure Verdict.pipe : Code Verdict) =
        pure (verdictUnseen c _)
      have hf : ¬(fragmentKey6 skb).family = afInet := by
        show ¬afInet6 = afInet
        decide
      by_cases h6 : flagSet c.flags runtimeIpv6 = true
      · rw [if_pos h6, verdictUnseen, if_pos (.inr h6)]
      · rw [if_neg h6, verdictUnseen, if_neg (not_or.mpr ⟨hf, h6⟩)]
  | some fragment => rfl

theorem ingress6Flow_eq (protocol : UInt8) (l4 : Nat) (fragment : Option FragmentKey) :
    ingress6Flow hash c protocol l4 fragment s =
      handle hash c s (if !flagSet c.flags runtimeIpv6 ∧
        (!flagSet c.flags runtimeDnsHijack ∨ be16 s.skb.data (l4 + 2) ≠ 53) then .unserved fragment
        else .flow (endpoints6 s.skb.data protocol l4) l4 fragment) s := by
  show (if _ then _ else _ : Code Verdict) s = _
  split <;> rfl

theorem ingress6Transport_eq (protocol : UInt8) (l4 : Nat) (fragment : Option FragmentKey) :
    ingress6Transport hash c protocol l4 fragment s =
      handle hash c s (kind6Transport c s.skb protocol l4 fragment) s := by
  show (if _ then _ else _ : Code Verdict) s = _
  unfold kind6Transport
  by_cases hp : isTransport protocol = true
  · rw [if_neg (isTransport_iff.mp hp)]
    simp only [hp, Bool.not_true, Bool.false_eq_true, ↓reduceIte]
    split
    · rfl
    split
    · rfl
    exact ingress6Flow_eq protocol l4 fragment
  · rw [if_pos (not_not.mp fun h => hp (isTransport_iff.mpr h))]
    simp only [hp, Bool.not_false, ↓reduceIte]
    rfl

theorem ingress6_eq : ingress6 hash c s = handle hash c s (kind6 c s.skb) s := by
  show (if _ then _ else _ : Code Verdict) s = _
  dsimp only [kind6]
  by_cases hver : byteAt s.skb.data 14 >>> 4 ≠ 6
  · rw [if_pos hver, if_pos hver]
    rfl
  rw [if_neg hver, if_neg hver]
  by_cases hnf : byteAt s.skb.data 20 ≠ 44
  · rw [if_pos hnf, if_pos hnf]
    exact ingress6Transport_eq _ _ _
  rw [if_neg hnf, if_neg hnf]
  show (if s.skb.headlen < 62 then pure .shot
    else if byteAt s.skb.data 54 ≠ protoTcp ∧ byteAt s.skb.data 54 ≠ protoUdp then pure .pipe
    else if be16 s.skb.data 56 &&& 0xfff8 ≠ 0 then ingress6LaterFragment (fragmentKey6 s.skb) c
    else ingress6Transport hash c (byteAt s.skb.data 54) 62 (some (fragmentKey6 s.skb)) :
      Code Verdict) s = _
  by_cases hlen : s.skb.headlen < 62
  · rw [if_pos hlen, if_pos hlen]
    rfl
  rw [if_neg hlen, if_neg hlen]
  by_cases hp : isTransport (byteAt s.skb.data 54) = true
  · rw [if_neg (isTransport_iff.mp hp)]
    simp only [hp, Bool.not_true, Bool.false_eq_true, ↓reduceIte]
    by_cases hoff : be16 s.skb.data 56 &&& 0xfff8 ≠ 0
    · rw [if_pos hoff, if_pos hoff]
      exact congrFun (ingress6LaterFragment_eq s.skb) s
    · rw [if_neg hoff, if_neg hoff]
      exact ingress6Transport_eq _ _ _
  · rw [if_pos (not_not.mp fun h => hp (isTransport_iff.mpr h))]
    simp only [hp, Bool.not_false, ↓reduceIte]
    rfl

/-- **Ingress by kinds**: the headers sort the packet, and its kind is handled. -/
theorem classifyPulled_ingress :
    classifyPulled hash c .ingress s = handle hash c s (kind c s.skb) s := by
  show (if _ then _ else _ : Code Verdict) s = _
  unfold kind
  split
  · rfl
  split
  · split
    · rfl
    · exact ingress4_eq
  split
  · split
    · rfl
    · exact ingress6_eq
  · rfl

end

end Bpf2Socks.Tc
