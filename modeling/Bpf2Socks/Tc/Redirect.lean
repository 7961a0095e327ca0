/-
# Bpf2Socks.Tc.Redirect — the ingress and egress classifiers.

Ingress sees the packets of hotspot clients.  A TCP or UDP packet that policy admits is sent to a
token address and the bridge port; later fragments follow their first fragment.  Egress sees the
bridge's answers and gives them the original destination back as their source.

`hash` stands for `hash_original` throughout, so that what is proved does not depend on it;
`hashOriginal` is the function of the source.  `tc_scratch` is storage for one run of a program and
appears as ordinary values.  The runtime control is the record user space wrote when it started.
-/
import Bpf2Socks.Tc.State

namespace Bpf2Socks.Tc

open Lib (Act Lpm Prog)

/-- `struct ethernet_header`. -/
def ethernetLength : Nat := 14
/-- `struct ipv6_header`. -/
def ipv6Length : Nat := 40
/-- `struct ipv6_fragment_header`. -/
def fragmentLength : Nat := 8
/-- `struct transport_ports`. -/
def portsLength : Nat := 4
/-- `struct tcp_header_min`, with the two bytes the compiler pads it to. -/
def tcpHeaderLength : Nat := 20

/-- The IPv4 checksum, source and destination as offsets in the packet. -/
def ip4Checksum : Nat := 24
@[inherit_doc ip4Checksum] def ip4Source : Nat := 26
@[inherit_doc ip4Checksum] def ip4Destination : Nat := 30
/-- The IPv6 source and destination as offsets in the packet. -/
def ip6Source : Nat := 22
@[inherit_doc ip6Source] def ip6Destination : Nat := 38

/-- `copy_bytes` into sixteen zeroed bytes. -/
def copyBytes (source : List UInt8) (size : Nat) : List UInt8 :=
  (source.take size ++ List.replicate 16 0).take 16

/-- How many bytes an address of the family has. -/
def addressSize (family : UInt8) : Nat := if family = afInet6 then 16 else 4

/-- Four bytes as the value a shift chain builds from them. -/
def hostWord (b : List UInt8) : UInt32 :=
  (byteAt b 0).toUInt32 <<< 24 ||| (byteAt b 1).toUInt32 <<< 16 |||
    (byteAt b 2).toUInt32 <<< 8 ||| (byteAt b 3).toUInt32

/-- The four bytes of a value, most significant first. -/
def wordBytes (x : UInt32) : List UInt8 :=
  [(x >>> 24).toUInt8, (x >>> 16).toUInt8, (x >>> 8).toUInt8, x.toUInt8]

/-! ## Keys -/

/-- The bytes of `struct bpf2socks_tc_original_key`. -/
def OriginalKey.bytes (k : OriginalKey) : List UInt8 :=
  (wordBytes k.ifindex).reverse ++ [k.family, k.protocol, 0, 0] ++ k.clientAddr ++
    (portBytes k.clientPort).reverse ++ (portBytes k.originalPort).reverse ++ k.originalAddr

/-- `hash_original`: FNV-1a over the key, then a finalizer. -/
def hashOriginal (key : OriginalKey) (salt : UInt32) : UInt32 :=
  let hash := key.bytes.foldl (fun h b => (h ^^^ b.toUInt32) * 16777619) (2166136261 ^^^ salt)
  let hash := (hash ^^^ (hash >>> 16)) * 0x7feb352d
  let hash := (hash ^^^ (hash >>> 15)) * 0x846ca68b
  hash ^^^ (hash >>> 16)

/-- `fill_bridge_key`. -/
def fillBridgeKey (original : OriginalKey) (token : TokenValue) : TokenKey where
  family := original.family
  protocol := original.protocol
  tokenPort := token.tokenPort
  clientPort := original.clientPort
  tokenAddr := copyBytes token.tokenAddr (addressSize original.family)
  clientAddr := copyBytes original.clientAddr (addressSize original.family)

/-- `fill_reverse_key`. -/
def fillReverseKey (original : OriginalKey) (token : TokenValue) : ReverseKey where
  ifindex := original.ifindex
  family := original.family
  protocol := original.protocol
  clientPort := original.clientPort
  tokenPort := token.tokenPort
  clientAddr := copyBytes original.clientAddr (addressSize original.family)
  tokenAddr := copyBytes token.tokenAddr (addressSize original.family)

/-- `fill_bridge_value`. -/
def fillBridgeValue (original : OriginalKey) : OriginalDst where
  family := original.family
  protocol := original.protocol
  port := original.originalPort
  addr := copyBytes original.originalAddr (addressSize original.family)
  flags := 0

/-- The reverse value `allocate_token` writes at time `now`. -/
def reverseValue (original : OriginalKey) (c : RuntimeControl) (now : UInt64) : OriginalValue where
  originalPort := original.originalPort
  createdAtNs := now
  lastSeenNs := now
  generation := c.generation
  originalAddr := copyBytes original.originalAddr (addressSize original.family)

/-! ## Tokens -/

/-- The part of an IPv4 address the token prefix leaves free: `host_mask`. -/
def hostMask : UInt32 := 0x007fffff

/-- The token address of one attempt, or nothing where the loop body continues. -/
def tokenCandidate (hash : OriginalKey → UInt32 → UInt32) (original : OriginalKey)
    (c : RuntimeControl) (attempt : UInt32) : Option (List UInt8) :=
  let h := hash original (0x9e3779b9 * attempt)
  if original.family = afInet then
    let pre := hostWord c.tokenIpv4Prefix
    let candidate := (pre &&& 0xff800000) ||| (h &&& hostMask)
    if candidate &&& 0xffffff00 = pre &&& 0xffffff00 ∨ candidate &&& hostMask = hostMask then none
    else some (copyBytes (wordBytes candidate) 4)
  else
    let second := hash original (0x85ebca6b ^^^ attempt)
    some (copyBytes (c.tokenIpv6Prefix.take 8 ++ wordBytes h ++ wordBytes second) 16)

/-- `BPF2SOCKS_TC_MAX_TOKEN_ATTEMPTS`. -/
def maxTokenAttempts : Nat := 2

/-- How one attempt of `allocate_token` ends: with the token, with `return false`, or at the next
attempt. -/
inductive Attempt where
  | reserved (token : TokenValue)
  | failed
  | next
  deriving DecidableEq

/-- The body of the loop of `allocate_token`. -/
def attemptToken (hash : OriginalKey → UInt32 → UInt32) (original : OriginalKey)
    (c : RuntimeControl) (attempt : UInt32) : Code Attempt :=
  match tokenCandidate hash original c attempt with
  | none => pure .next
  | some tokenAddr => do
      let token : TokenValue := ⟨tokenAddr, c.bridgePort, c.generation⟩
      if !(← bridgeTable.update (fillBridgeKey original token) (fillBridgeValue original) true) then
        pure .next
      else do
        let now ← ask .now
        if !(← reverseTable.update (fillReverseKey original token) (reverseValue original c now)
            true) then do
          bridgeTable.delete (fillBridgeKey original token)
          pure .next
        else if !(← forwardTable.update original token false) then do
          reverseTable.delete (fillReverseKey original token)
          bridgeTable.delete (fillBridgeKey original token)
          pure .failed
        else pure (.reserved token)

/-- The loop of `allocate_token`, with `left` attempts to go. -/
def allocateFrom (hash : OriginalKey → UInt32 → UInt32) (original : OriginalKey)
    (c : RuntimeControl) : Nat → Code (Option TokenValue)
  | 0 => pure none
  | left + 1 => do
      match ← attemptToken hash original c (UInt32.ofNat (maxTokenAttempts - (left + 1))) with
      | .reserved token => pure (some token)
      | .failed => pure none
      | .next => allocateFrom hash original c left

/-- `allocate_token`: the token, when it returns true. -/
def allocateToken (hash : OriginalKey → UInt32 → UInt32) (original : OriginalKey)
    (c : RuntimeControl) : Code (Option TokenValue) :=
  allocateFrom hash original c maxTokenAttempts

/-- `find_reserved_token`: the token, when it returns true. -/
def findReservedToken (original : OriginalKey) (c : RuntimeControl) :
    Code (Option TokenValue) := do
  match ← forwardTable.lookup original with
  | none => pure none
  | some token => if token.generation ≠ c.generation then pure none else pure (some token)

/-- `republish_bridge_token`. -/
def republishBridgeToken (original : OriginalKey) (token : TokenValue) : Code Bool :=
  bridgeTable.update (fillBridgeKey original token) (fillBridgeValue original) false

/-! ## Policy -/

/-- `IKE_PORT` and `NAT_T_PORT` of UDP. -/
def isIpsec (protocol : UInt8) (port : UInt16) : Bool :=
  protocol = protoUdp ∧ (port = 500 ∨ port = 4500)

/-- A flag of the runtime control. -/
def flagSet (flags flag : UInt16) : Bool := flags &&& flag ≠ 0

/-- The body of `policy4_proxy` and `policy6_proxy`, with the CIDR maps of the family and the
prefix length of its keys. -/
def policyProxy (maps : CidrMaps) (bits : Nat) (destination : List UInt8) (protocol : UInt8)
    (port flags : UInt16) : Bool :=
  if isIpsec protocol port then false
  else if flagSet flags runtimeDnsHijack ∧ (protocol = protoTcp ∨ protocol = protoUdp) ∧
      port = 53 then true
  else if maps.localInterface.found bits destination then false
  else if maps.proxy.found bits destination then true
  else if maps.bypassPrivate.found bits destination then false
  else if flagSet flags runtimeBypassDirect ∧ maps.direct.found bits destination then false
  else true

/-- `policy4_proxy`. -/
def policy4Proxy (s : State) (destination : List UInt8) (protocol : UInt8) (port flags : UInt16) :
    Bool :=
  policyProxy s.cidr4 32 destination protocol port flags

/-- `policy6_proxy`. -/
def policy6Proxy (s : State) (destination : List UInt8) (protocol : UInt8) (port flags : UInt16) :
    Bool :=
  policyProxy s.cidr6 128 destination protocol port flags

/-! ## Packet helpers -/

/-- A helper that replaces a checksum: true when it returns 0. -/
def replaceChecksum (off : Nat) (mangled : Bool) (old new : List UInt8) : Code Bool := do
  let done ← ask .helper
  let s ← Act.get
  if done = false ∨ s.skb.data.length < off + 2 then pure false
  else do
    Act.modify fun s =>
      { s with skb := { s.skb with data := csumReplace s.skb.data off mangled old new } }
    pure true

/-- `skb_store_bytes`: true when it returns 0. -/
def skbStoreBytes (off : Nat) (bytes : List UInt8) : Code Bool := do
  let done ← ask .helper
  let s ← Act.get
  if done = false ∨ s.skb.data.length < off + bytes.length then pure false
  else do
    Act.modify fun s => { s with skb := { s.skb with data := storeBytes s.skb.data off bytes } }
    pure true

/-- Helpers called one after the other, as long as they succeed. -/
def allOk : List (Code Bool) → Code Bool
  | [] => pure true
  | f :: fs => do
      if !(← f) then pure false else allOk fs

/-- The common tail of the rewrites: `TC_ACT_OK` when every helper succeeded, else
`TC_ACT_SHOT`. -/
def rewriteAll (fs : List (Code Bool)) : Code Verdict := do
  if !(← allOk fs) then pure .shot else pure .ok

/-- `rewrite_ipv4`; ports and addresses are given as the bytes of the packet. -/
def rewriteIpv4 (addressOff portOff checksumOff : Nat) (oldAddress newAddress : List UInt8)
    (oldPort newPort : List UInt8) (protocol : UInt8) : Code Verdict :=
  let isUdp : Bool := protocol = protoUdp
  rewriteAll
    [replaceChecksum ip4Checksum false oldAddress newAddress,
     replaceChecksum checksumOff isUdp oldAddress newAddress,
     replaceChecksum checksumOff isUdp oldPort newPort,
     skbStoreBytes addressOff newAddress,
     skbStoreBytes portOff newPort]

/-- `rewrite_ipv6`: the address goes into the checksum word by word. -/
def rewriteIpv6 (addressOff portOff checksumOff : Nat) (oldAddress newAddress : List UInt8)
    (oldPort newPort : List UInt8) (protocol : UInt8) : Code Verdict :=
  let isUdp : Bool := protocol = protoUdp
  rewriteAll <|
    [0, 4, 8, 12].map (fun off =>
      replaceChecksum checksumOff isUdp (slice oldAddress off 4) (slice newAddress off 4)) ++
    [replaceChecksum checksumOff isUdp oldPort newPort,
     skbStoreBytes addressOff newAddress,
     skbStoreBytes portOff newPort]

/-- The transport checksum: `struct tcp_header_min` or `struct udp_header_min`. -/
def checksumOffset (l4 : Nat) (protocol : UInt8) : Nat :=
  l4 + if protocol = protoTcp then 16 else 6

/-! ## Fragments -/

/-- `fill_fragment_key`. -/
def fillFragmentKey (ifindex : UInt32) (family protocol : UInt8) (id : UInt32)
    (source destination : List UInt8) (size : Nat) : FragmentKey where
  ifindex := ifindex
  family := family
  protocol := protocol
  id := id
  source := copyBytes source size
  destination := copyBytes destination size

/-- `remember_fragment`, for the key already built; no token stands for a null `token_addr`. -/
def rememberFragment (key : FragmentKey) (token : Option (List UInt8)) (verdict : FragmentVerdict)
    (generation : UInt32) : Code Unit := do
  let _ ← fragmentTable.update key
    ⟨copyBytes (token.getD []) 16, generation, verdict⟩ false
  pure ()

/-- What a later fragment follows: the first fragment's record, if it is of this generation. -/
def fragmentRecord (key : FragmentKey) (c : RuntimeControl) : Code (Option FragmentValue) := do
  match ← fragmentTable.lookup key with
  | none => pure none
  | some value => if value.generation ≠ c.generation then pure none else pure (some value)

/-- `ingress4_later_fragment`. -/
def ingress4LaterFragment (c : RuntimeControl) : Code Verdict := do
  let s ← Act.get
  let d := s.skb.data
  let protocol := byteAt d 23
  if protocol ≠ protoTcp ∧ protocol ≠ protoUdp then pure .pipe
  else do
    let key := fillFragmentKey s.skb.ifindex afInet protocol (raw16 d 18).toUInt32
      (slice d ip4Source 4) (slice d ip4Destination 4) 4
    match ← fragmentRecord key c with
    | none => pure .shot
    | some fragment =>
        if fragment.verdict ≠ .rewrite then pure .pipe
        else
          rewriteAll
            [replaceChecksum ip4Checksum false (slice d ip4Destination 4)
              (fragment.tokenAddr.take 4),
             skbStoreBytes ip4Destination (fragment.tokenAddr.take 4)]

/-- `ingress6_later_fragment`. -/
def ingress6LaterFragment (key : FragmentKey) (c : RuntimeControl) : Code Verdict := do
  match ← fragmentRecord key c with
  | none => if flagSet c.flags runtimeIpv6 then pure .shot else pure .pipe
  | some fragment =>
      if fragment.verdict ≠ .rewrite then pure .pipe
      else rewriteAll [skbStoreBytes ip6Destination fragment.tokenAddr]

/-! ## Ingress -/

/-- What ingress decides for a flow. -/
inductive Admission where
  /-- The flow goes to this token. -/
  | rewrite (token : TokenValue)
  /-- Policy or a full table lets it pass. -/
  | pass
  /-- A new connection whose entry could not be published passes. -/
  | unpublished
  deriving DecidableEq

/-- The middle of `ingress4` and `ingress6`: the reserved token of the flow, a new one where policy
(`proxied`, looked at only then) asks for it, and a republished entry for each new connection. -/
def admitFlow (hash : OriginalKey → UInt32 → UInt32) (c : RuntimeControl) (original : OriginalKey)
    (proxied : Bool) (tcpSyn : Bool) : Code Admission := do
  match ← findReservedToken original c with
  | none =>
      if !proxied then pure .pass
      else do
        match ← allocateToken hash original c with
        | none => pure .pass
        | some token => pure (.rewrite token)
  | some token =>
      if !tcpSyn then pure (.rewrite token)
      else do
        if !(← republishBridgeToken original token) then pure .unpublished
        else pure (.rewrite token)

/-- The end of `ingress4` and `ingress6`: a first fragment's verdict is remembered, and the packet
passes or is rewritten to the token. -/
def finishIngress (c : RuntimeControl) (fragment : Option FragmentKey)
    (rewrite : TokenValue → Code Verdict) : Admission → Code Verdict
  | .pass => do
      match fragment with
      | some key => rememberFragment key none .pass c.generation
      | none => pure ()
      pure .pipe
  | .unpublished => pure .pipe
  | .rewrite token => do
      match fragment with
      | some key => rememberFragment key (some token.tokenAddr) .rewrite c.generation
      | none => pure ()
      rewrite token

/-- `is_tcp_syn`: SYN without ACK, where the header reaches that far. -/
def isTcpSyn (skb : Skb) (l4 : Nat) : Bool :=
  l4 + tcpHeaderLength ≤ skb.headlen ∧ be16 skb.data (l4 + 12) &&& 0x0012 = 0x0002

/-- The key of a flow: the scratch record both ingress functions fill. -/
def originalOf (skb : Skb) (family protocol : UInt8) (l4 source destination size : Nat) :
    OriginalKey where
  ifindex := skb.ifindex
  family := family
  protocol := protocol
  clientPort := be16 skb.data l4
  originalPort := be16 skb.data (l4 + 2)
  clientAddr := copyBytes (slice skb.data source size) size
  originalAddr := copyBytes (slice skb.data destination size) size

/-- `ingress4` on a packet whose ports are there: from the key of the flow on. -/
def ingress4Flow (hash : OriginalKey → UInt32 → UInt32) (c : RuntimeControl)
    (l4 : Nat) (firstFragment : Bool) : Code Verdict := do
  let s ← Act.get
  let d := s.skb.data
  let protocol := byteAt d 23
  let tcpSyn : Bool := protocol = protoTcp ∧ isTcpSyn s.skb l4
  let original := originalOf s.skb afInet protocol l4 ip4Source ip4Destination 4
  let fragment := if firstFragment then
      some (fillFragmentKey s.skb.ifindex afInet protocol (raw16 d 18).toUInt32
        (slice d ip4Source 4) (slice d ip4Destination 4) 4)
    else none
  let admission ← admitFlow hash c original
    (policy4Proxy s (slice d ip4Destination 4) protocol (be16 d (l4 + 2)) c.flags) tcpSyn
  finishIngress c fragment
    (fun token =>
      rewriteIpv4 ip4Destination (l4 + 2) (checksumOffset l4 protocol)
        (slice d ip4Destination 4) (token.tokenAddr.take 4) (slice d (l4 + 2) 2)
        (portBytes c.bridgePort) protocol)
    admission

/-- `ingress4`. -/
def ingress4 (hash : OriginalKey → UInt32 → UInt32) (c : RuntimeControl) : Code Verdict := do
  let s ← Act.get
  let d := s.skb.data
  let ihl := (byteAt d 14 &&& 15).toNat
  if byteAt d 14 >>> 4 ≠ 4 ∨ ihl < 5 then pure .shot
  else
    let l4 := ethernetLength + ihl * 4
    let fragmentBits := be16 d 20 &&& 0x3fff
    if fragmentBits &&& 0x1fff ≠ 0 then ingress4LaterFragment c
    else if s.skb.headlen < l4 + portsLength then pure .shot
    else if byteAt d 23 ≠ protoTcp ∧ byteAt d 23 ≠ protoUdp then pure .pipe
    else if hostWord (slice d ip4Destination 4) &&& 0xff000000 = 0x7f000000 then pure .shot
    else ingress4Flow hash c l4 (fragmentBits ≠ 0)

/-- `ipv6_in_token_prefix`. -/
def ipv6InTokenPrefix (address : List UInt8) (c : RuntimeControl) : Bool :=
  address.take 8 == c.tokenIpv6Prefix.take 8

/-- `ingress6` on a packet whose ports are there and whose protocol and fragment are known. -/
def ingress6Flow (hash : OriginalKey → UInt32 → UInt32) (c : RuntimeControl) (protocol : UInt8)
    (l4 : Nat) (fragment : Option FragmentKey) : Code Verdict := do
  let s ← Act.get
  let d := s.skb.data
  let port := be16 d (l4 + 2)
  let tcpSyn : Bool := protocol = protoTcp ∧ isTcpSyn s.skb l4
  if !flagSet c.flags runtimeIpv6 ∧ (!flagSet c.flags runtimeDnsHijack ∨ port ≠ 53) then
    finishIngress c fragment (fun _ => pure .pipe) .pass
  else do
    let original := originalOf s.skb afInet6 protocol l4 ip6Source ip6Destination 16
    let admission ← admitFlow hash c original
      (policy6Proxy s (slice d ip6Destination 16) protocol port c.flags) tcpSyn
    finishIngress c fragment
      (fun token =>
        rewriteIpv6 ip6Destination (l4 + 2) (checksumOffset l4 protocol)
          original.originalAddr token.tokenAddr (portBytes port) (portBytes c.bridgePort) protocol)
      admission

/-- `ingress6` from the transport header on. -/
def ingress6Transport (hash : OriginalKey → UInt32 → UInt32) (c : RuntimeControl)
    (protocol : UInt8) (l4 : Nat) (fragment : Option FragmentKey) : Code Verdict := do
  let s ← Act.get
  if protocol ≠ protoTcp ∧ protocol ≠ protoUdp then pure .pipe
  else if s.skb.headlen < l4 + portsLength then pure .shot
  else if ipv6InTokenPrefix (slice s.skb.data ip6Destination 16) c then pure .shot
  else ingress6Flow hash c protocol l4 fragment

/-- `ingress6`. -/
def ingress6 (hash : OriginalKey → UInt32 → UInt32) (c : RuntimeControl) : Code Verdict := do
  let s ← Act.get
  let d := s.skb.data
  let l4 := ethernetLength + ipv6Length
  if byteAt d 14 >>> 4 ≠ 6 then pure .shot
  else if byteAt d 20 ≠ 44 then ingress6Transport hash c (byteAt d 20) l4 none
  else if s.skb.headlen < l4 + fragmentLength then pure .shot
  else
    let protocol := byteAt d l4
    if protocol ≠ protoTcp ∧ protocol ≠ protoUdp then pure .pipe
    else
      let key := fillFragmentKey s.skb.ifindex afInet6 protocol (raw32 d (l4 + 4))
        (slice d ip6Source 16) (slice d ip6Destination 16) 16
      if be16 d (l4 + 2) &&& 0xfff8 ≠ 0 then ingress6LaterFragment key c
      else ingress6Transport hash c protocol (l4 + fragmentLength) (some key)

/-! ## Egress -/

/-- `ipv4_in_token_prefix`. -/
def ipv4InTokenPrefix (address : List UInt8) (c : RuntimeControl) : Bool :=
  hostWord address &&& 0xff800000 = hostWord c.tokenIpv4Prefix &&& 0xff800000

/-- The key egress looks up. -/
def reverseOf (skb : Skb) (c : RuntimeControl) (family protocol : UInt8)
    (l4 source destination size : Nat) : ReverseKey where
  ifindex := skb.ifindex
  family := family
  protocol := protocol
  clientPort := be16 skb.data (l4 + 2)
  tokenPort := c.bridgePort
  clientAddr := copyBytes (slice skb.data destination size) size
  tokenAddr := copyBytes (slice skb.data source size) size

/-- The lookup of `egress4` and `egress6`: an entry of this generation is touched and returned. -/
def findOriginal (key : ReverseKey) (c : RuntimeControl) : Code (Option OriginalValue) := do
  match ← reverseTable.lookup key with
  | none => pure none
  | some original =>
      if original.generation ≠ c.generation then pure none
      else do
        let now ← ask .now
        Act.modify fun s => reverseTable.put s key (some { original with lastSeenNs := now })
        pure (some original)

/-- `egress4`. -/
def egress4 (c : RuntimeControl) : Code Verdict := do
  let s ← Act.get
  let d := s.skb.data
  let ihl := (byteAt d 14 &&& 15).toNat
  let l4 := ethernetLength + ihl * 4
  let protocol := byteAt d 23
  if byteAt d 14 >>> 4 ≠ 4 ∨ ihl < 5 then pure .shot
  else if s.skb.headlen < l4 + portsLength then pure .shot
  else if !ipv4InTokenPrefix (slice d ip4Source 4) c then pure .pipe
  else if be16 d 20 &&& 0x3fff ≠ 0 then pure .shot
  else if protocol ≠ protoTcp ∧ protocol ≠ protoUdp then pure .shot
  else if be16 d l4 ≠ c.bridgePort then pure .shot
  else do
    match ← findOriginal (reverseOf s.skb c afInet protocol l4 ip4Source ip4Destination 4) c with
    | none => pure .shot
    | some original =>
        rewriteIpv4 ip4Source l4 (checksumOffset l4 protocol)
          (slice d ip4Source 4) (original.originalAddr.take 4) (slice d l4 2)
          (portBytes original.originalPort) protocol

/-- `egress6`. -/
def egress6 (c : RuntimeControl) : Code Verdict := do
  let s ← Act.get
  let d := s.skb.data
  let l4 := ethernetLength + ipv6Length
  let protocol := byteAt d 20
  if !flagSet c.flags runtimeIpv6 ∧ !flagSet c.flags runtimeDnsHijack then pure .pipe
  else if byteAt d 14 >>> 4 ≠ 6 then pure .shot
  else if !ipv6InTokenPrefix (slice d ip6Source 16) c then pure .pipe
  else if protocol ≠ protoTcp ∧ protocol ≠ protoUdp then pure .shot
  else if s.skb.headlen < l4 + portsLength then pure .shot
  else if be16 d l4 ≠ c.bridgePort then pure .shot
  else do
    let key := reverseOf s.skb c afInet6 protocol l4 ip6Source ip6Destination 16
    match ← findOriginal key c with
    | none => pure .shot
    | some original =>
        rewriteIpv6 ip6Source l4 (checksumOffset l4 protocol) key.tokenAddr original.originalAddr
          (portBytes c.bridgePort) (portBytes original.originalPort) protocol

/-! ## The classifiers -/

/-- The runtime control `bpf2socks_bpf_runtime_start` writes.  The configuration accepts one IPv4
token prefix only, `127.128.0.0/9`. -/
def startControl (enableIpv6 enableDnsHijack bypassDirect : Bool) (listenPort : UInt16)
    (tokenIpv6Prefix : List UInt8) : RuntimeControl where
  enabled := 1
  generation := 1
  bridgePort := listenPort
  flags := (if enableIpv6 then runtimeIpv6 else 0) |||
    (if enableDnsHijack then runtimeDnsHijack else 0) |||
    (if bypassDirect then runtimeBypassDirect else 0)
  tokenIpv4Prefix := [127, 128, 0, 0]
  tokenIpv6Prefix := tokenIpv6Prefix

/-- The two attachment points. -/
inductive Direction where
  | ingress
  | egress
  deriving DecidableEq

/-- `ingress4` or `egress4`. -/
def classify4 (hash : OriginalKey → UInt32 → UInt32) (c : RuntimeControl) :
    Direction → Code Verdict
  | .ingress => ingress4 hash c
  | .egress => egress4 c

/-- `ingress6` or `egress6`. -/
def classify6 (hash : OriginalKey → UInt32 → UInt32) (c : RuntimeControl) :
    Direction → Code Verdict
  | .ingress => ingress6 hash c
  | .egress => egress6 c

/-- `classify` on a packet whose headers are at hand. -/
def classifyPulled (hash : OriginalKey → UInt32 → UInt32) (c : RuntimeControl) (dir : Direction) :
    Code Verdict := do
  let s ← Act.get
  if s.skb.headlen < ethernetLength then pure .shot
  else if be16 s.skb.data 12 = 0x0800 then
    if s.skb.headlen < ethernetLength + 20 then pure .shot else classify4 hash c dir
  else if be16 s.skb.data 12 = 0x86dd then
    if s.skb.headlen < ethernetLength + ipv6Length then pure .shot else classify6 hash c dir
  else pure .pipe

/-- `classify`. -/
def classify (hash : OriginalKey → UInt32 → UInt32) (c : RuntimeControl) (dir : Direction) :
    Code Verdict := do
  if c.enabled = 0 then pure .pipe
  else do
    let pulled ← ask .pullData
    if pulled = false then pure .pipe else classifyPulled hash c dir

end Bpf2Socks.Tc
