/-
# Bpf2Socks.Cgroup.Program — the generators of the cgroup programs.

Each `emit_*` function of the source appears under its name, as the script of the calls it makes on
the builder: `emit`, `emit_jump` and `patch_jump`.  A jump is named after the variable or the list of
the source that remembers it, and a `label` stands where the source takes the target of that list.
A map is present when its descriptor is not negative.

The five builders at the end put the scripts together; `Lib.Asm.build` turns a script into the
instructions that are loaded.
-/
import Bpf2Socks.Cgroup.Machine

namespace Bpf2Socks.Cgroup

open Lib (Line)

/-! ## Names -/

/-- The jump lists and jump variables of the source. -/
inductive Jumps where
  | bypass | drop | forceProxy | allow | skip | noSock | unbound | uidNotFound | notDns | tcpDns
  | notDnsProtocol | dnsContinue | notUdp | missingIp | hasCompletePeer | missingAddr | noCookie
  | noPeer | wrongFamily | wrongProto | restoredPeer | notTcp | mapped | port | notZeroOrLoopback
  | noBoundIf | missing | done | collision | continue' | tcpConnect | tcpPolicy | fallback
  | notStream | nonUdp | tcpDone | v4mappedAllow
  deriving DecidableEq

/-- A script of builder calls. -/
abbrev Code := List (Line Insn Cond Jumps)

/-- The four hooks of the forward programs. -/
inductive AttachType where
  | inet4Connect | inet6Connect | udp4Sendmsg | udp6Sendmsg
  deriving DecidableEq

/-- `BPF2SOCKS_MODE_*`. -/
inductive Mode where
  | global | whitelist | blacklist
  deriving DecidableEq

/-- The fields of `struct bpf2socks_policy_config` the generators read, and the selected UIDs. -/
structure Policy where
  mode : Mode
  enableIpv6 : Bool
  enableDnsHijack : Bool
  enableDnsEnhancement : Bool
  bypassUids : List Word
  uids : List Word
  selfBypassGidEnabled : Bool
  selfBypassGid : Word
  deriving DecidableEq

/-- What the generators read of `struct bpf2socks_runtime_config`: the two words of the IPv6 token
prefix as they stand in memory.  The IPv4 prefix is always `127.128.0.0/9`. -/
structure Config where
  prefix0 : Word
  prefix1 : Word
  deriving DecidableEq

/-- `bpf2socks_token_prefix_imm4` of `127.128.0.0/9`. -/
def tokenPrefix : Word := 0x7f800000
/-- `bpf2socks_token_prefix_host_mask4` of `127.128.0.0/9`. -/
def tokenHostMask : Word := 0x007fffff

def protoTcp : Word := 6
def protoUdp : Word := 17
def sockStream : Word := 1
def sockDgram : Word := 2
def afInet : Word := 2
def afInet6 : Word := 10
/-- `BPF_TCP_ESTABLISHED`. -/
def established : Word := 1

/-- `htons`, as an immediate. -/
def htons (port : BitVec 16) : Word := (swap16 port).setWidth 32

def ikePort : BitVec 16 := 500
def natTPort : BitVec 16 := 4500
def dnsPort : BitVec 16 := 53
/-- `BPF2SOCKS_DNS_TETHER_UID`. -/
def dnsTetherUid : Word := 1052
/-- `BPF2SOCKS_LOOPBACK_IFINDEX`. -/
def loopbackIfindex : Word := 1
/-- `BPF2SOCKS_MAX_INLINE_BYPASS_UIDS`. -/
def maxInlineBypassUids : Nat := 16
/-- `BPF2SOCKS_UID_SELECTED` and `BPF2SOCKS_UID_BYPASS`. -/
def uidSelected : Word := 1
@[inherit_doc uidSelected] def uidBypass : Word := 2
/-- `BPF2SOCKS_ORIGINAL_DST_FLAG_CONNECTED_UDP`. -/
def flagConnectedUdp : Word := 1
/-- `BPF2SOCKS_FWMARK_EXPLICIT`. -/
def fwmarkExplicit : Word := 0x10000
/-- `BPF2SOCKS_DEFAULT_NETWORK_READY_KEY`. -/
def defaultNetworkReadyKey : Word := 0
/-- `BPF2SOCKS_DNS_MARK_MASK`, `_DIRECT_MARK` and `_PROXY_DECISION`. -/
def dnsMarkMask : Word := 0x61000000
@[inherit_doc dnsMarkMask] def dnsDirectMark : Word := 0x41000000
@[inherit_doc dnsMarkMask] def dnsProxyDecision : Word := 0x21000000

/-- The flags of `map_update_elem`. -/
def bpfAny : Word := 0
@[inherit_doc bpfAny] def bpfNoexist : Word := 1

namespace Stack

/-- Where the programs keep things in their stack frame. -/
def uidKey : Int := -4
@[inherit_doc uidKey] def ifindexKey : Int := -8
@[inherit_doc uidKey] def lpm4Key : Int := -16
@[inherit_doc uidKey] def lpm6Key : Int := -40
@[inherit_doc uidKey] def tokenKey : Int := -96
@[inherit_doc uidKey] def originalDst : Int := -144
@[inherit_doc uidKey] def udpPeerKey : Int := -168
@[inherit_doc uidKey] def udpPeerValue : Int := -192
@[inherit_doc uidKey] def savedV6LastWord : Int := -200
@[inherit_doc uidKey] def savedPort : Int := -204
@[inherit_doc uidKey] def savedV6Word0 : Int := -208
@[inherit_doc uidKey] def savedV6Word1 : Int := -212
@[inherit_doc uidKey] def savedV6Word2 : Int := -216
@[inherit_doc uidKey] def savedV4Addr : Int := -220
@[inherit_doc uidKey] def savedV4Port : Int := -224

end Stack

/-! ## Single instructions -/

abbrev mov64Reg (dst src : Reg) : Line Insn Cond Jumps := .op (.alu64 .mov dst (.reg src))
abbrev mov64Imm (dst : Reg) (imm : Word) : Line Insn Cond Jumps := .op (.alu64 .mov dst (.imm imm))
abbrev mov32Reg (dst src : Reg) : Line Insn Cond Jumps := .op (.alu32 .mov dst (.reg src))
abbrev alu64Imm (op : Alu) (dst : Reg) (imm : Word) : Line Insn Cond Jumps :=
  .op (.alu64 op dst (.imm imm))
abbrev alu64Reg (op : Alu) (dst src : Reg) : Line Insn Cond Jumps := .op (.alu64 op dst (.reg src))
abbrev alu32Imm (op : Alu) (dst : Reg) (imm : Word) : Line Insn Cond Jumps :=
  .op (.alu32 op dst (.imm imm))
abbrev alu32Reg (op : Alu) (dst src : Reg) : Line Insn Cond Jumps := .op (.alu32 op dst (.reg src))
abbrev endianOp (dst : Reg) (bits : Nat) : Line Insn Cond Jumps := .op (.be dst bits)
abbrev stMem (size : Size) (dst : Reg) (off : Int) (imm : Word) : Line Insn Cond Jumps :=
  .op (.st size dst off imm)
abbrev stxMem (size : Size) (dst src : Reg) (off : Int) : Line Insn Cond Jumps :=
  .op (.stx size dst src off)
abbrev ldxMem (size : Size) (dst src : Reg) (off : Int) : Line Insn Cond Jumps :=
  .op (.ldx size dst src off)
abbrev callFunc (f : Func) : Line Insn Cond Jumps := .op (.call f)
abbrev jeqImm (dst : Reg) (imm : Word) (l : Jumps) : Line Insn Cond Jumps :=
  .jump (.jeq dst (.imm imm)) l
abbrev jneImm (dst : Reg) (imm : Word) (l : Jumps) : Line Insn Cond Jumps :=
  .jump (.jne dst (.imm imm)) l
abbrev jneReg (dst src : Reg) (l : Jumps) : Line Insn Cond Jumps := .jump (.jne dst (.reg src)) l
abbrev ja (l : Jumps) : Line Insn Cond Jumps := .jump .ja l

/-- `emit_ld_map_fd`. -/
def emitLdMapFd (dst : Reg) (m : MapId) : Code := [.op (.ldMapFd dst m), .op .ldMapHigh]

/-- A register pointing into the stack frame. -/
def emitStackPointer (dst : Reg) (off : Int) : Code :=
  [mov64Reg dst .r10, alu64Imm .add dst (BitVec.ofInt 32 off)]

/-- A lookup of the key at `off`, as every caller of `map_lookup_elem` writes it. -/
def emitLookup (m : MapId) (off : Int) : Code :=
  emitLdMapFd .r1 m ++ emitStackPointer .r2 off ++ [callFunc .mapLookupElem]

/-- An update with the key and the value at `off` and `valueOff`. -/
def emitUpdate (m : MapId) (off valueOff : Int) (flags : Word) : Code :=
  emitLdMapFd .r1 m ++ emitStackPointer .r2 off ++ emitStackPointer .r3 valueOff ++
    [mov64Imm .r4 flags, callFunc .mapUpdateElem]

/-- `emit_ctx_st32`. -/
def emitCtxSt32 (off : Int) (imm : Word) : Code := [mov64Imm .r0 imm, stxMem .w .r6 .r0 off]

/-- `emit_exit`. -/
def emitExit (result : Word) : Code := [mov64Imm .r0 result, .op .exit]

/-- `emit_zero_region`, for a number of words. -/
def emitZeroRegion (base : Int) (words : Nat) : Code :=
  (List.range words).map fun (i : Nat) => stMem .w .r10 (base + 4 * (i : Int)) 0

/-! ## Who runs, and on what socket -/

/-- `emit_self_gid_bypass_check_from_current_uid_gid`. -/
def emitSelfGidBypassCheck (policy : Policy) : Code :=
  if policy.selfBypassGidEnabled then
    [mov64Reg .r8 .r0, alu64Imm .rsh .r8 32, jeqImm .r8 policy.selfBypassGid .bypass]
  else []

/-- `emit_self_bypass_policy`. -/
def emitSelfBypassPolicy (policy : Policy) : Code :=
  if policy.selfBypassGidEnabled then
    [callFunc .getCurrentUidGid] ++ emitSelfGidBypassCheck policy
  else []

/-- `emit_explicit_network_bypass`. -/
def emitExplicitNetworkBypass (present : MapId → Bool) : Code :=
  if present .defaultNetwork then
    [ldxMem .dw .r2 .r6 Off.sk, jeqImm .r2 0 .skip, ldxMem .w .r3 .r2 Off.mark, mov64Reg .r4 .r3,
      alu32Imm .and .r4 fwmarkExplicit, jeqImm .r4 0 .skip, alu32Imm .and .r3 0xffff,
      jeqImm .r3 0 .skip, stxMem .w .r10 .r3 Stack.ifindexKey,
      stMem .w .r10 Stack.uidKey defaultNetworkReadyKey] ++
    emitLookup .defaultNetwork Stack.uidKey ++ [jeqImm .r0 0 .skip] ++
    emitLookup .defaultNetwork Stack.ifindexKey ++ [jeqImm .r0 0 .bypass, .label .skip]
  else []

/-- A hook of `sendmsg`. -/
def AttachType.isSendmsg : AttachType → Bool
  | .udp4Sendmsg | .udp6Sendmsg => true
  | .inet4Connect | .inet6Connect => false

/-- `emit_socket_shape_bypass`. -/
def emitSocketShapeBypass (attach : AttachType) (present : MapId → Bool) : Code :=
  (if attach.isSendmsg then [ldxMem .w .r2 .r6 Off.protocol, jneImm .r2 protoUdp .bypass] else []) ++
  [ldxMem .dw .r2 .r6 Off.sk, jeqImm .r2 0 .noSock, ldxMem .w .r3 .r2 Off.boundDevIf,
    jeqImm .r3 0 .unbound, jneImm .r3 loopbackIfindex .bypass, .label .noSock, .label .unbound] ++
  emitExplicitNetworkBypass present

/-- The end of `emit_uid_policy`: the flags of the user in `r7`. -/
def emitUidMapPolicy (mode : Mode) : Code :=
  [stxMem .w .r10 .r7 Stack.uidKey] ++ emitLookup .uid Stack.uidKey ++
  [mov64Imm .r8 0, jeqImm .r0 0 .uidNotFound, ldxMem .w .r8 .r0 0, .label .uidNotFound,
    mov64Reg .r2 .r8, alu64Imm .and .r2 uidBypass, jneImm .r2 0 .bypass] ++
  match mode with
  | .global => []
  | .whitelist => [mov64Reg .r2 .r8, alu64Imm .and .r2 uidSelected, jeqImm .r2 0 .bypass]
  | .blacklist => [mov64Reg .r2 .r8, alu64Imm .and .r2 uidSelected, jneImm .r2 0 .bypass]

/-- `emit_uid_policy`. -/
def emitUidPolicy (policy : Policy) (present : MapId → Bool) : Code :=
  let inlineUids := policy.bypassUids.take maxInlineBypassUids
  if inlineUids = [] ∧ !present .uid ∧ policy.mode = .global then []
  else
    [callFunc .getCurrentUidGid, mov32Reg .r7 .r0] ++
    inlineUids.map (fun uid => jeqImm .r7 uid .bypass) ++
    if !present .uid then
      if policy.mode ≠ .global then [ja .drop] else []
    else
      emitUidMapPolicy policy.mode

/-- `emit_tcp_dns_forced_bypass`. -/
def emitTcpDnsForcedBypass (policy : Policy) (present : MapId → Bool) (protocol : Word)
    (protocolFromContext : Bool) : Code :=
  let bypassOnly := emitUidPolicy { policy with mode := .global } present
  if !policy.enableDnsHijack then []
  else if !policy.enableDnsEnhancement ∧ protocolFromContext then
    [ldxMem .w .r2 .r6 Off.type, jneImm .r2 sockStream .skip] ++ bypassOnly ++ [.label .skip]
  else if !policy.enableDnsEnhancement ∧ protocol ≠ protoTcp then []
  else bypassOnly

/-! ## DNS and IPsec -/

/-- `emit_dns_enhancement_policy`. -/
def emitDnsEnhancementPolicy (portReg : Reg) : Code :=
  [jneImm portReg (htons dnsPort) .notDns, ldxMem .dw .r2 .r6 Off.sk, jeqImm .r2 0 .noSock,
    ldxMem .w .r3 .r2 Off.mark, alu32Imm .and .r3 dnsMarkMask, jeqImm .r3 dnsDirectMark .bypass,
    jeqImm .r3 dnsProxyDecision .forceProxy, .label .noSock, ldxMem .w .r2 .r6 Off.protocol,
    jeqImm .r2 protoTcp .tcpDns, jneImm .r2 protoUdp .notDnsProtocol, .label .tcpDns,
    callFunc .getCurrentUidGid, mov32Reg .r0 .r0, jeqImm .r0 dnsTetherUid .forceProxy,
    .label .notDnsProtocol, .label .notDns]

/-- The unmarked case of both `emit_ipv*_dns_force_proxy_policy_from_regs`. -/
def emitLegacyDns (portReg : Reg) (protocol : Word) (protocolFromContext : Bool) : Code :=
  if protocolFromContext then
    [ldxMem .w .r2 .r6 Off.type, jeqImm .r2 sockStream .tcpDns, jneImm .r2 sockDgram .notDns,
      .label .tcpDns, jeqImm portReg (htons dnsPort) .forceProxy, .label .notDns]
  else if protocol = protoUdp ∨ protocol = protoTcp then
    [jeqImm portReg (htons dnsPort) .forceProxy]
  else []

/-- `emit_ipv4_dns_force_proxy_policy_from_regs`. -/
def emitIpv4DnsForceProxyPolicy (policy : Policy) (protocol : Word) (protocolFromContext : Bool) :
    Code :=
  if !policy.enableDnsHijack then []
  else if policy.enableDnsEnhancement then emitDnsEnhancementPolicy .r8
  else emitLegacyDns .r8 protocol protocolFromContext

/-- `emit_ipv6_dns_force_proxy_policy_from_regs`. -/
def emitIpv6DnsForceProxyPolicy (policy : Policy) (protocol : Word) (protocolFromContext : Bool) :
    Code :=
  if !policy.enableDnsHijack then []
  else if policy.enableDnsEnhancement then
    emitDnsEnhancementPolicy .r5 ++
    [ldxMem .w .r4 .r10 Stack.savedV6LastWord, ldxMem .w .r5 .r10 Stack.savedPort]
  else emitLegacyDns .r5 protocol protocolFromContext

/-- `emit_connected_udp_dns_continue`; the jump lands at the next `label .dnsContinue`. -/
def emitConnectedUdpDnsContinue (policy : Policy) (portReg : Reg) : Code :=
  if policy.enableDnsHijack then
    [jneImm portReg (htons dnsPort) .notDns, ja .dnsContinue, .label .notDns]
  else []

/-- `emit_ipsec_udp_bypass_from_port`. -/
def emitIpsecUdpBypass (protocol : Word) (protocolFromContext : Bool) (portReg : Reg) : Code :=
  if protocolFromContext then
    [ldxMem .w .r2 .r6 Off.type, jneImm .r2 sockDgram .notUdp,
      jeqImm portReg (htons ikePort) .bypass, jeqImm portReg (htons natTPort) .bypass,
      .label .notUdp]
  else if protocol = protoUdp then
    [jeqImm portReg (htons ikePort) .bypass, jeqImm portReg (htons natTPort) .bypass]
  else []

/-! ## The peer cache -/

/-- The end of the three `emit_udp_peer_cache_update_*`: the key is the cookie in `r0` and the
family, and the value starts with the family and the protocol. -/
def emitPeerKeyAndHead (family : Word) : Code :=
  emitZeroRegion Stack.udpPeerKey 4 ++ emitZeroRegion Stack.udpPeerValue 5 ++
  [stxMem .dw .r10 .r0 Stack.udpPeerKey, stMem .b .r10 (Stack.udpPeerKey + 8) family,
    stMem .b .r10 Stack.udpPeerValue family, stMem .b .r10 (Stack.udpPeerValue + 1) protoUdp]

/-- `emit_udp_peer_cache_update_v4` and `_v4mapped`, with the offset of the IPv4 address. -/
def emitUdpPeerCacheUpdate4 (present : MapId → Bool) (addressOff : Int) : Code :=
  if present .udpPeer then
    [ldxMem .w .r7 .r6 addressOff, ldxMem .w .r8 .r6 Off.userPort, jeqImm .r7 0 .bypass,
      jeqImm .r8 0 .bypass, mov64Reg .r1 .r6, callFunc .getSocketCookie, jeqImm .r0 0 .bypass] ++
    emitPeerKeyAndHead afInet ++
    [stxMem .h .r10 .r8 (Stack.udpPeerValue + 2), stxMem .w .r10 .r7 (Stack.udpPeerValue + 4)] ++
    emitUpdate .udpPeer Stack.udpPeerKey Stack.udpPeerValue bpfAny
  else []

/-- `emit_udp_peer_cache_update_v4`. -/
def emitUdpPeerCacheUpdateV4 (present : MapId → Bool) : Code :=
  emitUdpPeerCacheUpdate4 present Off.userIp4

/-- `emit_udp_peer_cache_update_v4mapped`. -/
def emitUdpPeerCacheUpdateV4mapped (present : MapId → Bool) : Code :=
  emitUdpPeerCacheUpdate4 present (Off.userIp6 + 12)

/-- The five loads of an IPv6 destination. -/
def emitLoadV6 : Code :=
  [ldxMem .w .r7 .r6 Off.userIp6, ldxMem .w .r8 .r6 (Off.userIp6 + 4),
    ldxMem .w .r9 .r6 (Off.userIp6 + 8), ldxMem .w .r4 .r6 (Off.userIp6 + 12),
    ldxMem .w .r5 .r6 Off.userPort]

/-- The words of an IPv6 destination joined in `r2`. -/
def emitOrWords : Code :=
  [mov64Reg .r2 .r7, alu64Reg .or .r2 .r8, alu64Reg .or .r2 .r9, alu64Reg .or .r2 .r4]

/-- `emit_udp_peer_cache_update_v6`. -/
def emitUdpPeerCacheUpdateV6 (present : MapId → Bool) : Code :=
  if present .udpPeer then
    emitLoadV6 ++ emitOrWords ++
    [jeqImm .r2 0 .bypass, jeqImm .r5 0 .bypass, mov64Reg .r1 .r6, callFunc .getSocketCookie,
      jeqImm .r0 0 .bypass, ldxMem .w .r4 .r6 (Off.userIp6 + 12), ldxMem .w .r5 .r6 Off.userPort] ++
    emitPeerKeyAndHead afInet6 ++
    [stxMem .h .r10 .r5 (Stack.udpPeerValue + 2), stxMem .w .r10 .r7 (Stack.udpPeerValue + 4),
      stxMem .w .r10 .r8 (Stack.udpPeerValue + 8), stxMem .w .r10 .r9 (Stack.udpPeerValue + 12),
      stxMem .w .r10 .r4 (Stack.udpPeerValue + 16)] ++
    emitUpdate .udpPeer Stack.udpPeerKey Stack.udpPeerValue bpfAny
  else []

/-- The lookup of both `emit_udp_peer_cache_restore_*`, up to the checks of the entry. -/
def emitPeerLookup (family : Word) : Code :=
  [mov64Reg .r1 .r6, callFunc .getSocketCookie, jeqImm .r0 0 .noCookie] ++
  emitZeroRegion Stack.udpPeerKey 4 ++
  [stxMem .dw .r10 .r0 Stack.udpPeerKey, stMem .b .r10 (Stack.udpPeerKey + 8) family] ++
  emitLookup .udpPeer Stack.udpPeerKey ++
  [jeqImm .r0 0 .noPeer, ldxMem .b .r2 .r0 0, jneImm .r2 family .wrongFamily, ldxMem .b .r2 .r0 1,
    jneImm .r2 protoUdp .wrongProto]

/-- `emit_udp_peer_cache_restore_v4`. -/
def emitUdpPeerCacheRestoreV4 (present : MapId → Bool) : Code :=
  if present .udpPeer then
    [jeqImm .r7 0 .missingIp, jneImm .r8 0 .hasCompletePeer, .label .missingIp] ++
    emitPeerLookup afInet ++ [ldxMem .w .r7 .r0 4, ldxMem .h .r8 .r0 2, .label .hasCompletePeer,
      .label .noCookie, .label .noPeer, .label .wrongFamily, .label .wrongProto]
  else []

/-- `emit_udp_peer_cache_restore_v6`. -/
def emitUdpPeerCacheRestoreV6 (present : MapId → Bool) : Code :=
  if present .udpPeer then
    emitOrWords ++
    [jeqImm .r2 0 .missingAddr, jneImm .r5 0 .hasCompletePeer, .label .missingAddr] ++
    emitPeerLookup afInet6 ++
    [ldxMem .w .r7 .r0 4, ldxMem .w .r8 .r0 8, ldxMem .w .r9 .r0 12, ldxMem .w .r4 .r0 16,
      ldxMem .h .r5 .r0 2, ja .restoredPeer, .label .noCookie, .label .noPeer, .label .wrongFamily,
      .label .wrongProto] ++
    emitLoadV6 ++ [.label .restoredPeer, .label .hasCompletePeer]
  else []

/-- `emit_tcp_peer_record`. -/
def emitTcpPeerRecord (present : MapId → Bool) : Code :=
  if present .tcpPeer then
    [ldxMem .w .r2 .r6 Off.protocol, jneImm .r2 protoTcp .notTcp, mov64Reg .r1 .r6,
      callFunc .getSocketCookie, jeqImm .r0 0 .noCookie] ++
    emitZeroRegion Stack.udpPeerKey 4 ++ emitZeroRegion Stack.udpPeerValue 5 ++
    [stxMem .dw .r10 .r0 Stack.udpPeerKey, ldxMem .b .r2 .r10 Stack.originalDst,
      stxMem .b .r10 .r2 Stack.udpPeerValue, stMem .b .r10 (Stack.udpPeerValue + 1) protoTcp,
      ldxMem .h .r2 .r10 (Stack.originalDst + 2), endianOp .r2 16,
      stxMem .h .r10 .r2 (Stack.udpPeerValue + 2)] ++
    [(0 : Int), 4, 8, 12].flatMap (fun word =>
      [ldxMem .w .r2 .r10 (Stack.originalDst + 4 + word),
        stxMem .w .r10 .r2 (Stack.udpPeerValue + 4 + word)]) ++
    emitUpdate .tcpPeer Stack.udpPeerKey Stack.udpPeerValue bpfAny ++
    [.label .notTcp, .label .noCookie]
  else []

/-- `emit_tcp_peer_restore`. -/
def emitTcpPeerRestore (ipv6 : Bool) : Code :=
  [mov64Reg .r1 .r6, callFunc .getSocketCookie, jeqImm .r0 0 .tcpDone] ++
  emitZeroRegion Stack.udpPeerKey 4 ++ [stxMem .dw .r10 .r0 Stack.udpPeerKey] ++
  emitLookup .tcpPeer Stack.udpPeerKey ++
  [jeqImm .r0 0 .tcpDone, mov64Reg .r7 .r0, ldxMem .b .r2 .r7 0] ++
  (if !ipv6 then
    [jneImm .r2 afInet .tcpDone, ldxMem .w .r3 .r7 4, stxMem .w .r6 .r3 Off.userIp4]
  else
    [jeqImm .r2 afInet .mapped, jneImm .r2 afInet6 .tcpDone] ++
    [(0 : Int), 4, 8, 12].flatMap (fun word =>
      [ldxMem .w .r3 .r7 (4 + word), stxMem .w .r6 .r3 (Off.userIp6 + word)]) ++
    [ja .port, .label .mapped] ++
    emitCtxSt32 Off.userIp6 0 ++ emitCtxSt32 (Off.userIp6 + 4) 0 ++
    emitCtxSt32 (Off.userIp6 + 8) 0xffff0000 ++
    [ldxMem .w .r3 .r7 4, stxMem .w .r6 .r3 (Off.userIp6 + 12), .label .port]) ++
  [ldxMem .h .r3 .r7 2, stxMem .w .r6 .r3 Off.userPort, ja .tcpDone]

/-! ## Destinations -/

/-- One lookup of `emit_ipv4_policy_checks_from_regs`: the key is written before every lookup. -/
def emitCidr4Check (present : MapId → Bool) (m : MapId) (l : Jumps) : Code :=
  if present m then
    [stMem .w .r10 Stack.lpm4Key 32, stxMem .w .r10 .r7 (Stack.lpm4Key + 4)] ++
    emitLookup m Stack.lpm4Key ++ [jneImm .r0 0 l]
  else []

/-- One lookup of `emit_ipv6_policy_checks`: the key is already there. -/
def emitCidr6Check (present : MapId → Bool) (m : MapId) (l : Jumps) : Code :=
  if present m then emitLookup m Stack.lpm6Key ++ [jneImm .r0 0 l] else []

/-- The check of the bound interface, the same in both families. -/
def emitIgnoredIfindexCheck (present : MapId → Bool) : Code :=
  if present .ignoredIfindex then
    [ldxMem .dw .r2 .r6 Off.sk, jeqImm .r2 0 .noSock, ldxMem .w .r3 .r2 Off.boundDevIf,
      jeqImm .r3 0 .noBoundIf, stxMem .w .r10 .r3 Stack.ifindexKey] ++
    emitLookup .ignoredIfindex Stack.ifindexKey ++
    [jneImm .r0 0 .bypass, .label .noSock, .label .noBoundIf]
  else []

/-- `emit_ipv4_policy_checks_from_regs`. -/
def emitIpv4PolicyChecks (present : MapId → Bool) : Code :=
  [jeqImm .r7 0 .bypass, mov64Reg .r2 .r7, endianOp .r2 32, alu64Imm .and .r2 0xff000000,
    jeqImm .r2 0x7f000000 .bypass] ++
  emitCidr4Check present .localInterfaceCidr4 .bypass ++
  emitCidr4Check present .proxyCidr4 .forceProxy ++
  emitCidr4Check present .bypassPrivateCidr4 .bypass ++
  emitIgnoredIfindexCheck present ++
  emitCidr4Check present .ignoredRouteCidr4 .bypass ++
  emitCidr4Check present .directCidr4 .bypass

/-- `emit_ipv4_mapped_ipv6_check_jumps`, with the list its jumps go on. -/
def emitIpv4MappedIpv6CheckJumps (notMapped : Jumps) : Code :=
  [ldxMem .w .r2 .r6 Off.userIp6, jneImm .r2 0 notMapped, ldxMem .w .r2 .r6 (Off.userIp6 + 4),
    jneImm .r2 0 notMapped, ldxMem .w .r2 .r6 (Off.userIp6 + 8), endianOp .r2 32,
    jneImm .r2 0x0000ffff notMapped]

/-- Is one of the CIDR maps of IPv6 present? -/
def needsLpm6Key (present : MapId → Bool) : Bool :=
  present .proxyCidr6 || present .ignoredRouteCidr6 || present .bypassPrivateCidr6 ||
    present .localInterfaceCidr6 || present .directCidr6

/-- `emit_ipv6_policy_checks`. -/
def emitIpv6PolicyChecks (present : MapId → Bool) : Code :=
  [mov64Reg .r2 .r7, alu64Reg .or .r2 .r8, alu64Reg .or .r2 .r9, jneImm .r2 0 .notZeroOrLoopback,
    mov64Reg .r3 .r4, endianOp .r3 32, jeqImm .r3 0 .bypass, jeqImm .r3 1 .bypass,
    .label .notZeroOrLoopback] ++
  (if needsLpm6Key present then
    emitZeroRegion Stack.lpm6Key 5 ++
    [stMem .w .r10 Stack.lpm6Key 128, stxMem .w .r10 .r7 (Stack.lpm6Key + 4),
      stxMem .w .r10 .r8 (Stack.lpm6Key + 8), stxMem .w .r10 .r9 (Stack.lpm6Key + 12),
      stxMem .w .r10 .r4 (Stack.lpm6Key + 16)]
  else []) ++
  emitCidr6Check present .localInterfaceCidr6 .bypass ++
  emitCidr6Check present .proxyCidr6 .forceProxy ++
  emitCidr6Check present .bypassPrivateCidr6 .bypass ++
  emitIgnoredIfindexCheck present ++
  emitCidr6Check present .ignoredRouteCidr6 .bypass ++
  emitCidr6Check present .directCidr6 .bypass

/-! ## Tokens -/

/-- The mask and the prefix of an IPv4 token, at the end of both ways to draw one. -/
def emitTokenBits : Code :=
  [alu32Imm .and .r9 tokenHostMask, alu32Imm .or .r9 tokenPrefix, endianOp .r9 32]

/-- `emit_random_token_v4`. -/
def emitRandomTokenV4 : Code := [callFunc .getPrandomU32, mov32Reg .r9 .r0] ++ emitTokenBits

/-- `emit_socket_cookie_fold`. -/
def emitSocketCookieFold (dst : Reg) : Code :=
  [mov64Reg .r1 .r6, callFunc .getSocketCookie, mov64Reg dst .r0, alu64Imm .rsh dst 32,
    alu64Reg .xor dst .r0]

/-- `emit_hash_mix`. -/
def emitHashMix (dst src : Reg) (multiplier : Word) : Code :=
  [alu32Reg .xor dst src, alu32Imm .mul dst multiplier]

/-- `emit_hash_finish`. -/
def emitHashFinish (dst : Reg) (shift : Word) : Code :=
  [mov32Reg .r2 dst, alu32Imm .rsh .r2 shift, alu32Reg .xor dst .r2]

/-- `emit_flow_token_v4`. -/
def emitFlowTokenV4 : Code :=
  emitSocketCookieFold .r9 ++ emitHashMix .r9 .r7 0x9e3779b1 ++ emitHashMix .r9 .r8 0x85ebca6b ++
  emitHashFinish .r9 15 ++ emitTokenBits

/-- A new random token in the key on the stack, where `emit_publish_token` falls back. -/
def emitRandomKey (ipv6 : Bool) : Code :=
  if ipv6 then
    [callFunc .getPrandomU32, mov32Reg .r8 .r0, callFunc .getPrandomU32, mov32Reg .r9 .r0,
      stxMem .w .r10 .r8 (Stack.tokenKey + 4 + 8), stxMem .w .r10 .r9 (Stack.tokenKey + 4 + 12)]
  else emitRandomTokenV4 ++ [stxMem .w .r10 .r9 (Stack.tokenKey + 4)]

/-- `emit_publish_token`. -/
def emitPublishToken (flowToken ipv6 : Bool) : Code :=
  (if flowToken then
    emitLookup .token Stack.tokenKey ++ [jeqImm .r0 0 .missing] ++
    [(0 : Int), 4, 8, 12, 16, 20].flatMap (fun off =>
      [ldxMem .w .r2 .r0 off, ldxMem .w .r3 .r10 (Stack.originalDst + off),
        jneReg .r2 .r3 .collision]) ++
    [ja .done, .label .missing] ++
    emitUpdate .token Stack.tokenKey Stack.originalDst bpfNoexist ++
    [jeqImm .r0 0 .done, .label .collision] ++ emitRandomKey ipv6
  else []) ++
  emitUpdate .token Stack.tokenKey Stack.originalDst bpfAny ++ [jneImm .r0 0 .drop, .label .done]

/-- The protocol of the entry, in `r5`. -/
def emitProtocol (protocol : Word) (protocolFromContext : Bool) : Code :=
  if protocolFromContext then
    [ldxMem .w .r4 .r6 Off.type, mov64Imm .r5 protoTcp, jneImm .r4 sockDgram .notUdp,
      mov64Imm .r5 protoUdp, .label .notUdp]
  else [mov64Imm .r5 protocol]

/-- `emit_connected_udp_original_flag`. -/
def emitConnectedUdpOriginalFlag (protocolFromContext : Bool) : Code :=
  if protocolFromContext then
    [ldxMem .w .r4 .r6 Off.type, jneImm .r4 sockDgram .notUdp,
      stMem .b .r10 (Stack.originalDst + 20) flagConnectedUdp, .label .notUdp]
  else []

/-- The key and the value of an IPv4 destination up to `emit_publish_token`, the same in
`emit_token_update_and_rewrite` and `emit_ipv4_mapped_token_update_and_rewrite`. -/
def emitToken4 (protocol : Word) (protocolFromContext : Bool) (bridgePort : BitVec 16)
    (flowToken : Bool) : Code :=
  (if flowToken then emitFlowTokenV4 else emitRandomTokenV4) ++
  emitProtocol protocol protocolFromContext ++
  emitZeroRegion Stack.tokenKey 10 ++ emitZeroRegion Stack.originalDst 6 ++
  [stMem .b .r10 Stack.tokenKey afInet, stxMem .b .r10 .r5 (Stack.tokenKey + 1),
    stMem .h .r10 (Stack.tokenKey + 2) (bridgePort.setWidth 32),
    stxMem .w .r10 .r9 (Stack.tokenKey + 4), stMem .b .r10 Stack.originalDst afInet,
    stxMem .b .r10 .r5 (Stack.originalDst + 1), endianOp .r8 16,
    stxMem .h .r10 .r8 (Stack.originalDst + 2), stxMem .w .r10 .r7 (Stack.originalDst + 4)] ++
  emitConnectedUdpOriginalFlag protocolFromContext ++ emitPublishToken flowToken false

/-- `emit_token_update_and_rewrite`. -/
def emitTokenUpdateAndRewrite (protocol : Word) (protocolFromContext : Bool)
    (bridgePort : BitVec 16) (flowToken : Bool) : Code :=
  emitToken4 protocol protocolFromContext bridgePort flowToken ++
  [stxMem .w .r6 .r9 Off.userIp4] ++ emitCtxSt32 Off.userPort (htons bridgePort)

/-- `emit_ipv4_mapped_token_update_and_rewrite`. -/
def emitIpv4MappedTokenUpdateAndRewrite (protocol : Word) (protocolFromContext : Bool)
    (bridgePort : BitVec 16) (flowToken : Bool) : Code :=
  emitToken4 protocol protocolFromContext bridgePort flowToken ++
  emitCtxSt32 Off.userIp6 0 ++ emitCtxSt32 (Off.userIp6 + 4) 0 ++
  emitCtxSt32 (Off.userIp6 + 8) 0xffff0000 ++ [stxMem .w .r6 .r9 (Off.userIp6 + 12)] ++
  emitCtxSt32 Off.userPort (htons bridgePort)

/-- The words of an IPv6 token, in `r8` and `r9`. -/
def emitTokenWordsV6 (flowToken : Bool) : Code :=
  if flowToken then
    emitSocketCookieFold .r8 ++ emitHashMix .r8 .r7 0x9e3779b1 ++
    [ldxMem .w .r3 .r10 Stack.savedV6Word1] ++ emitHashMix .r8 .r3 0x85ebca6b ++
    [ldxMem .w .r3 .r10 Stack.savedV6Word2] ++ emitHashMix .r8 .r3 0x9e3779b1 ++
    [ldxMem .w .r3 .r10 Stack.savedV6LastWord] ++ emitHashMix .r8 .r3 0x85ebca6b ++
    [ldxMem .w .r3 .r10 Stack.savedPort] ++ emitHashMix .r8 .r3 0x9e3779b1 ++
    emitHashFinish .r8 15 ++ [mov32Reg .r9 .r8, alu32Imm .mul .r9 0xc2b2ae35] ++
    emitHashFinish .r9 13
  else
    [callFunc .getPrandomU32, mov32Reg .r8 .r0, callFunc .getPrandomU32, mov32Reg .r9 .r0]

/-- `emit_token_update_and_rewrite_v6`. -/
def emitTokenUpdateAndRewriteV6 (config : Config) (protocol : Word) (protocolFromContext : Bool)
    (bridgePort : BitVec 16) (flowToken : Bool) : Code :=
  [stxMem .w .r10 .r4 Stack.savedV6LastWord, stxMem .w .r10 .r5 Stack.savedPort,
    stxMem .w .r10 .r8 Stack.savedV6Word1, stxMem .w .r10 .r9 Stack.savedV6Word2] ++
  emitTokenWordsV6 flowToken ++ emitProtocol protocol protocolFromContext ++
  emitZeroRegion Stack.tokenKey 10 ++ emitZeroRegion Stack.originalDst 6 ++
  [stMem .b .r10 Stack.tokenKey afInet6, stxMem .b .r10 .r5 (Stack.tokenKey + 1),
    stMem .h .r10 (Stack.tokenKey + 2) (bridgePort.setWidth 32),
    stMem .w .r10 (Stack.tokenKey + 4) config.prefix0,
    stMem .w .r10 (Stack.tokenKey + 4 + 4) config.prefix1,
    stxMem .w .r10 .r8 (Stack.tokenKey + 4 + 8), stxMem .w .r10 .r9 (Stack.tokenKey + 4 + 12),
    stMem .b .r10 Stack.originalDst afInet6, stxMem .b .r10 .r5 (Stack.originalDst + 1),
    ldxMem .w .r4 .r10 Stack.savedPort, endianOp .r4 16,
    stxMem .h .r10 .r4 (Stack.originalDst + 2), ldxMem .w .r4 .r10 Stack.savedV6LastWord,
    ldxMem .w .r1 .r10 Stack.savedV6Word1, ldxMem .w .r2 .r10 Stack.savedV6Word2,
    stxMem .w .r10 .r7 (Stack.originalDst + 4), stxMem .w .r10 .r1 (Stack.originalDst + 4 + 4),
    stxMem .w .r10 .r2 (Stack.originalDst + 4 + 8),
    stxMem .w .r10 .r4 (Stack.originalDst + 4 + 12)] ++
  emitConnectedUdpOriginalFlag protocolFromContext ++ emitPublishToken flowToken true ++
  emitCtxSt32 Off.userIp6 config.prefix0 ++ emitCtxSt32 (Off.userIp6 + 4) config.prefix1 ++
  [stxMem .w .r6 .r8 (Off.userIp6 + 8), stxMem .w .r6 .r9 (Off.userIp6 + 12)] ++
  emitCtxSt32 Off.userPort (htons bridgePort)

/-! ## IPv4 destinations of IPv6 sockets -/

/-- The flow token of an unconnected `sendmsg`. -/
def flowTokenOf (attach : AttachType) (protocolFromContext : Bool) : Bool :=
  attach.isSendmsg && !protocolFromContext

/-- The enhanced policy: DNS that no mark decided skips the CIDR checks. -/
def emitEnhancedDns (policy : Policy) (portReg : Reg) : Code :=
  if policy.enableDnsHijack ∧ policy.enableDnsEnhancement then
    [jeqImm portReg (htons dnsPort) .forceProxy]
  else []

/-- `emit_ipv4_mapped_ipv4_policy_and_token_from_regs`. -/
def emitIpv4MappedPolicyAndToken (policy : Policy) (present : MapId → Bool) (protocol : Word)
    (protocolFromContext : Bool) (bridgePort : BitVec 16) (flowToken : Bool) : Code :=
  [stxMem .w .r10 .r7 Stack.savedV4Addr, stxMem .w .r10 .r8 Stack.savedV4Port] ++
  emitIpv4DnsForceProxyPolicy policy protocol protocolFromContext ++
  emitUidPolicy policy present ++
  [ldxMem .w .r7 .r10 Stack.savedV4Addr, ldxMem .w .r8 .r10 Stack.savedV4Port] ++
  emitEnhancedDns policy .r8 ++ emitIpv4PolicyChecks present ++
  [.label .forceProxy, ldxMem .w .r7 .r10 Stack.savedV4Addr,
    ldxMem .w .r8 .r10 Stack.savedV4Port] ++
  emitIpv4MappedTokenUpdateAndRewrite protocol protocolFromContext bridgePort flowToken ++
  [ja .allow]

/-- `emit_ipv4_mapped_ipv6_branch`; without a branch for the hook there is no code. -/
def emitIpv4MappedIpv6Branch (policy : Policy) (present : MapId → Bool) (protocol : Word)
    (protocolFromContext : Bool) (bridgePort : BitVec 16) (attach : AttachType) : Option Code :=
  let tail := emitIpv4MappedPolicyAndToken policy present protocol protocolFromContext bridgePort
    (flowTokenOf attach protocolFromContext) ++ [.label .continue']
  if attach = .udp6Sendmsg ∧ protocol = protoUdp ∧ !protocolFromContext then
    some <|
      emitIpv4MappedIpv6CheckJumps .continue' ++
      [mov64Reg .r7 .r4, mov64Reg .r8 .r5, ja .mapped, .label .continue'] ++ emitOrWords ++
      [jneImm .r2 0 .continue', mov64Imm .r7 0, mov64Imm .r8 0] ++
      emitUdpPeerCacheRestoreV4 present ++
      [jeqImm .r7 0 .continue', jeqImm .r8 0 .continue', ja .mapped, .label .mapped] ++ tail
  else if attach = .inet6Connect ∧ protocolFromContext then
    some <|
      [ldxMem .w .r2 .r6 Off.protocol, mov64Reg .r3 .r2, jeqImm .r2 protoTcp .tcpConnect,
        jneImm .r2 protoUdp .continue', .label .tcpConnect] ++
      emitIpv4MappedIpv6CheckJumps .continue' ++
      [mov64Reg .r7 .r4, mov64Reg .r8 .r5, jeqImm .r3 protoTcp .tcpPolicy] ++
      emitUdpPeerCacheUpdateV4mapped present ++ [.label .tcpPolicy] ++ tail
  else none

/-- What `emit_connected_udp_send_reuse` does for an address of `words` words at these offsets. -/
def emitReuse (family : Word) (contextAddr socketAddr : Int) (words : List Int) : Code :=
  emitZeroRegion Stack.tokenKey 10 ++
  [stMem .b .r10 Stack.tokenKey family, stMem .b .r10 (Stack.tokenKey + 1) protoUdp,
    ldxMem .h .r2 .r7 Off.dstPort, endianOp .r2 16, stxMem .h .r10 .r2 (Stack.tokenKey + 2)] ++
  words.flatMap (fun i =>
    [ldxMem .w .r2 .r7 (socketAddr + i), stxMem .w .r10 .r2 (Stack.tokenKey + 4 + i)]) ++
  emitLookup .token Stack.tokenKey ++
  [jeqImm .r0 0 .fallback, ldxMem .b .r2 .r0 20, alu64Imm .and .r2 flagConnectedUdp,
    jeqImm .r2 0 .fallback, ldxMem .w .r2 .r6 Off.userPort, endianOp .r2 16, ldxMem .h .r3 .r0 2,
    jneReg .r2 .r3 .fallback] ++
  words.flatMap (fun i =>
    [ldxMem .w .r2 .r6 (contextAddr + i), ldxMem .w .r3 .r0 (4 + i), jneReg .r2 .r3 .fallback]) ++
  words.flatMap (fun i =>
    [ldxMem .w .r2 .r10 (Stack.tokenKey + 4 + i), stxMem .w .r6 .r2 (contextAddr + i)]) ++
  [ldxMem .h .r2 .r10 (Stack.tokenKey + 2), endianOp .r2 16, stxMem .w .r6 .r2 Off.userPort] ++
  emitExit 1 ++ [.label .fallback]

/-- `emit_connected_udp_send_reuse`. -/
def emitConnectedUdpSendReuse (ipv6 isMapped : Bool) : Code :=
  [ldxMem .dw .r7 .r6 Off.sk, jeqImm .r7 0 .fallback, ldxMem .w .r2 .r7 Off.state,
    jneImm .r2 established .fallback] ++
  if ipv6 then
    if isMapped then
      -- the third word is `htonl(0xffff)`
      [(0, 0), (4, 0), (8, 0xffff0000)].flatMap (fun (p : Int × Word) =>
        [ldxMem .w .r2 .r6 (Off.userIp6 + p.1), jneImm .r2 p.2 .fallback,
          ldxMem .w .r2 .r7 (Off.dstIp6 + p.1), jneImm .r2 p.2 .fallback]) ++
      emitReuse afInet (Off.userIp6 + 12) (Off.dstIp6 + 12) [0]
    else emitReuse afInet6 Off.userIp6 Off.dstIp6 [0, 4, 8, 12]
  else emitReuse afInet Off.userIp4 Off.dstIp4 [0]

/-! ## The programs -/

/-- The head of the three forward programs: everything before the destination is loaded. -/
def emitHead (policy : Policy) (present : MapId → Bool) (protocol : Word)
    (protocolFromContext : Bool) (attach : AttachType) : Code :=
  [mov64Reg .r6 .r1] ++ emitSelfBypassPolicy policy ++ emitSocketShapeBypass attach present ++
  emitTcpDnsForcedBypass policy present protocol protocolFromContext

/-- The exits, with the places the `bypass` and `drop` jumps land. -/
def emitExits : Code := [.label .bypass] ++ emitExit 1 ++ [.label .drop] ++ emitExit 0

/-- `bpf2socks_cgroup_prog_build4`. -/
def build4 (policy : Policy) (present : MapId → Bool) (protocol : Word)
    (protocolFromContext : Bool) (bridgePort : BitVec 16) (attach : AttachType) : Code :=
  emitHead policy present protocol protocolFromContext attach ++
  (if attach = .udp4Sendmsg then emitConnectedUdpSendReuse false false else []) ++
  [ldxMem .w .r7 .r6 Off.userIp4, ldxMem .w .r8 .r6 Off.userPort] ++
  emitIpsecUdpBypass protocol protocolFromContext .r8 ++
  (if attach = .inet4Connect ∧ protocolFromContext then
    [ldxMem .w .r2 .r6 Off.protocol, jeqImm .r2 protoTcp .tcpConnect,
      jneImm .r2 protoUdp .bypass] ++
    emitConnectedUdpDnsContinue policy .r8 ++ emitUdpPeerCacheUpdateV4 present ++
    [.label .dnsContinue, .label .tcpConnect]
  else []) ++
  (if attach = .udp4Sendmsg ∧ protocol = protoUdp ∧ !protocolFromContext then
    emitUdpPeerCacheRestoreV4 present
  else []) ++
  emitIpv4DnsForceProxyPolicy policy protocol protocolFromContext ++
  [stxMem .w .r10 .r7 Stack.savedV4Addr, stxMem .w .r10 .r8 Stack.savedV4Port] ++
  emitUidPolicy policy present ++
  [ldxMem .w .r7 .r10 Stack.savedV4Addr, ldxMem .w .r8 .r10 Stack.savedV4Port] ++
  emitEnhancedDns policy .r8 ++ emitIpv4PolicyChecks present ++ [.label .forceProxy] ++
  emitTokenUpdateAndRewrite protocol protocolFromContext bridgePort
    (flowTokenOf attach protocolFromContext) ++
  (if attach = .inet4Connect ∧ protocolFromContext then emitTcpPeerRecord present else []) ++
  emitExits

/-- The five loads of the saved IPv6 destination. -/
def emitReloadV6 : Code :=
  [ldxMem .w .r7 .r10 Stack.savedV6Word0, ldxMem .w .r8 .r10 Stack.savedV6Word1,
    ldxMem .w .r9 .r10 Stack.savedV6Word2, ldxMem .w .r4 .r10 Stack.savedV6LastWord,
    ldxMem .w .r5 .r10 Stack.savedPort]

/-- The policy of `bpf2socks_cgroup_prog_build6` on the saved destination. -/
def emitPolicyV6 (policy : Policy) (present : MapId → Bool) : Code :=
  if !policy.enableIpv6 then
    if policy.enableDnsHijack ∧ policy.enableDnsEnhancement then
      [jneImm .r5 (htons dnsPort) .bypass] ++ emitUidPolicy policy present ++ [ja .forceProxy]
    else [ja .bypass]
  else
    emitUidPolicy policy present ++ emitReloadV6 ++ emitEnhancedDns policy .r5 ++
    emitIpv6PolicyChecks present

/-- `bpf2socks_cgroup_prog_build6`. -/
def build6 (policy : Policy) (config : Config) (present : MapId → Bool) (protocol : Word)
    (protocolFromContext : Bool) (bridgePort : BitVec 16) (attach : AttachType) : Code :=
  emitHead policy present protocol protocolFromContext attach ++
  (if attach = .udp6Sendmsg then
    emitConnectedUdpSendReuse true true ++ emitConnectedUdpSendReuse true false
  else []) ++
  emitLoadV6 ++ emitIpsecUdpBypass protocol protocolFromContext .r5 ++
  (match emitIpv4MappedIpv6Branch policy present protocol protocolFromContext bridgePort attach with
    | some branch => branch ++ emitLoadV6
    | none => []) ++
  (if attach = .inet6Connect ∧ protocolFromContext then
    [ldxMem .w .r2 .r6 Off.protocol, jeqImm .r2 protoTcp .tcpConnect,
      jneImm .r2 protoUdp .bypass] ++
    emitConnectedUdpDnsContinue policy .r5 ++ emitUdpPeerCacheUpdateV6 present ++ emitLoadV6 ++
    [.label .dnsContinue, .label .tcpConnect]
  else []) ++
  (if attach = .udp6Sendmsg ∧ protocol = protoUdp ∧ !protocolFromContext then
    emitUdpPeerCacheRestoreV6 present
  else []) ++
  [stxMem .w .r10 .r7 Stack.savedV6Word0, stxMem .w .r10 .r8 Stack.savedV6Word1,
    stxMem .w .r10 .r9 Stack.savedV6Word2, stxMem .w .r10 .r4 Stack.savedV6LastWord,
    stxMem .w .r10 .r5 Stack.savedPort] ++
  emitIpv6DnsForceProxyPolicy policy protocol protocolFromContext ++
  emitPolicyV6 policy present ++ [.label .forceProxy] ++ emitReloadV6 ++
  emitTokenUpdateAndRewriteV6 config protocol protocolFromContext bridgePort
    (flowTokenOf attach protocolFromContext) ++
  -- the rewrite of an IPv4 destination joins here too
  [.label .allow] ++
  (if attach = .inet6Connect ∧ protocolFromContext then emitTcpPeerRecord present else []) ++
  emitExits

/-- `bpf2socks_cgroup_prog_build_mapped6`. -/
def buildMapped6 (policy : Policy) (present : MapId → Bool) (protocol : Word)
    (protocolFromContext : Bool) (bridgePort : BitVec 16) (attach : AttachType) : Code :=
  emitHead policy present protocol protocolFromContext attach ++
  (if attach = .udp6Sendmsg then emitConnectedUdpSendReuse true true else []) ++
  emitLoadV6 ++ emitIpsecUdpBypass protocol protocolFromContext .r5 ++
  (emitIpv4MappedIpv6Branch policy present protocol protocolFromContext bridgePort attach).getD [] ++
  [.label .bypass] ++ emitExit 1 ++ [.label .allow] ++
  (if attach = .inet6Connect ∧ protocolFromContext then emitTcpPeerRecord present else []) ++
  emitExit 1 ++ [.label .drop] ++ emitExit 0

/-- The head of both reverse programs. -/
def emitReverseHead (tcpPeer ipv6 : Bool) : Code :=
  [mov64Reg .r6 .r1, ldxMem .w .r2 .r6 Off.type] ++
  (if tcpPeer then
    [jneImm .r2 sockStream .notStream] ++ emitTcpPeerRestore ipv6 ++ [.label .notStream]
  else []) ++
  [jneImm .r2 sockDgram .nonUdp]

/-- Is the address in `r2` in the IPv4 token prefix? -/
def emitInTokenPrefix : Code :=
  [endianOp .r2 32, alu64Imm .and .r2 (~~~tokenHostMask), jneImm .r2 tokenPrefix .bypass]

/-- The lookup of an IPv4 token whose address and port are in these registers. -/
def emitReverseLookup4 (addressReg portReg : Reg) : Code :=
  emitZeroRegion Stack.tokenKey 10 ++
  [stMem .b .r10 Stack.tokenKey afInet, stMem .b .r10 (Stack.tokenKey + 1) protoUdp,
    endianOp portReg 16, stxMem .h .r10 portReg (Stack.tokenKey + 2),
    stxMem .w .r10 addressReg (Stack.tokenKey + 4)] ++
  emitLookup .token Stack.tokenKey ++
  [jeqImm .r0 0 .bypass, ldxMem .w .r7 .r0 4, ldxMem .h .r8 .r0 2, endianOp .r8 16]

/-- `bpf2socks_cgroup_prog_build_reverse4`. -/
def buildReverse4 (tcpPeer : Bool) : Code :=
  emitReverseHead tcpPeer false ++
  [ldxMem .w .r7 .r6 Off.userIp4, ldxMem .w .r8 .r6 Off.userPort, mov64Reg .r2 .r7] ++
  emitInTokenPrefix ++ emitReverseLookup4 .r7 .r8 ++
  [stxMem .w .r6 .r7 Off.userIp4, stxMem .w .r6 .r8 Off.userPort, .label .nonUdp, .label .tcpDone,
    .label .bypass] ++ emitExit 1

/-- `bpf2socks_cgroup_prog_build_reverse6`. -/
def buildReverse6 (tcpPeer : Bool) : Code :=
  emitReverseHead tcpPeer true ++ emitLoadV6 ++ emitIpv4MappedIpv6CheckJumps .bypass ++
  [mov64Reg .r2 .r4] ++ emitInTokenPrefix ++ emitReverseLookup4 .r4 .r5 ++
  emitCtxSt32 Off.userIp6 0 ++ emitCtxSt32 (Off.userIp6 + 4) 0 ++
  emitCtxSt32 (Off.userIp6 + 8) 0xffff0000 ++
  [stxMem .w .r6 .r7 (Off.userIp6 + 12), stxMem .w .r6 .r8 Off.userPort, ja .v4mappedAllow,
    .label .bypass] ++
  emitZeroRegion Stack.tokenKey 10 ++
  [stMem .b .r10 Stack.tokenKey afInet6, stMem .b .r10 (Stack.tokenKey + 1) protoUdp,
    ldxMem .w .r7 .r6 Off.userPort, endianOp .r7 16, stxMem .h .r10 .r7 (Stack.tokenKey + 2),
    ldxMem .w .r7 .r6 Off.userIp6, ldxMem .w .r8 .r6 (Off.userIp6 + 4),
    ldxMem .w .r9 .r6 (Off.userIp6 + 8), ldxMem .w .r4 .r6 (Off.userIp6 + 12),
    stxMem .w .r10 .r7 (Stack.tokenKey + 4), stxMem .w .r10 .r8 (Stack.tokenKey + 4 + 4),
    stxMem .w .r10 .r9 (Stack.tokenKey + 4 + 8), stxMem .w .r10 .r4 (Stack.tokenKey + 4 + 12)] ++
  emitLookup .token Stack.tokenKey ++
  [jeqImm .r0 0 .bypass, ldxMem .w .r7 .r0 4, ldxMem .w .r8 .r0 8, ldxMem .w .r9 .r0 12,
    ldxMem .w .r4 .r0 16, stxMem .w .r6 .r7 Off.userIp6, stxMem .w .r6 .r8 (Off.userIp6 + 4),
    stxMem .w .r6 .r9 (Off.userIp6 + 8), stxMem .w .r6 .r4 (Off.userIp6 + 12),
    ldxMem .h .r7 .r0 2, endianOp .r7 16, stxMem .w .r6 .r7 Off.userPort, .label .nonUdp,
    .label .tcpDone, .label .bypass, .label .v4mappedAllow] ++ emitExit 1

end Bpf2Socks.Cgroup
