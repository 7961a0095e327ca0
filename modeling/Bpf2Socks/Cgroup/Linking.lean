/-
# Bpf2Socks.Cgroup.Linking — the generated programs fit the builder, and every jump is linked.

The source builds each program in a buffer of 1024 instructions, and keeps the jumps it has still to
patch in arrays of fixed sizes (`forwardLimits`, `reverseLimits`).  Every `emit_*` function here has
a bound for what it adds: instructions, jumps on each list, and the lists it patches (`within_*`).
The bounds of the five builders follow by adding up, and `Lib.Link` turns them into a program whose
jumps all land on instructions ahead.
-/
import Bpf2Socks.Cgroup.Program
import Bpf2Socks.Lib.Cost

namespace Bpf2Socks.Cgroup

open Lib Lib.Asm

/-! ## The builder of the source -/

/-- What linking asks about the instructions: `emit_ld_map_fd` emits a load in two halves. -/
def form : Form Insn Cond where
  exits := fun x => match x with | .exit => true | _ => false
  wide := fun x => match x with | .ldMapFd _ _ => true | _ => false
  tail := fun x => match x with | .ldMapHigh => true | _ => false
  always := fun c => match c with | .ja => true | _ => false

/-- The lists of the source, which hold more than one jump; `skip` also names a variable, assigned
once. -/
def forwardLimits : Limits Jumps where
  buffer := 1024
  list
    | .bypass => 96
    | .drop | .forceProxy | .allow | .fallback => 16
    | .continue' | .collision => 8
    | .skip => 4
    | .mapped | .done => 2
    | _ => 1

/-- The lists of `bpf2socks_cgroup_prog_build_reverse4` and `_reverse6`. -/
def reverseLimits : Limits Jumps where
  buffer := 1024
  list
    | .bypass | .tcpDone => 8
    | _ => 1

/-- All lists and variables. -/
def allJumps : List Jumps :=
  [.bypass, .drop, .forceProxy, .allow, .skip, .noSock, .unbound, .uidNotFound, .notDns, .tcpDns,
    .notDnsProtocol, .dnsContinue, .notUdp, .missingIp, .hasCompletePeer, .missingAddr, .noCookie,
    .noPeer, .wrongFamily, .wrongProto, .restoredPeer, .notTcp, .mapped, .port, .notZeroOrLoopback,
    .noBoundIf, .missing, .done, .collision, .continue', .tcpConnect, .tcpPolicy, .fallback,
    .notStream, .nonUdp, .tcpDone, .v4mappedAllow]

theorem mem_allJumps (l : Jumps) : l ∈ allJumps := by
  cases l <;> decide

/-! ## Costs -/

/-- At most `size` instructions; `lists` gives for each list with jumps the room they need and how
many of them may wait afterwards, and `cleared` the lists that are patched. -/
def cost (size : Nat) (lists : List (Jumps × Nat × Nat)) (cleared : List Jumps) : Cost Jumps where
  size := size
  need l := ((lists.lookup l).map Prod.fst).getD 0
  peak l := ((lists.lookup l).map Prod.fst).getD 0
  leave l := ((lists.lookup l).map Prod.snd).getD 0
  clear l := cleared.contains l

/-- A part of a program that is written out splits no load, and costs at most `c`. -/
def costs (A : Code) (c : Cost Jumps) : Bool := paired form false A && Cost.test allJumps A c

variable {cap : Jumps → Nat}

theorem within_of_costs {A : Code} {c : Cost Jumps} (h : costs A c = true) : Within form cap A c := by
  rw [costs, Bool.and_eq_true] at h
  exact Within.block allJumps mem_allJumps h.1 h.2

/-- A part between others, with its bound. -/
theorem within_part {A : Code} (size : Nat) (lists : List (Jumps × Nat × Nat)) (cleared : List Jumps)
    (h : costs A (cost size lists cleared) = true) :
    Within form cap A (cost size lists cleared) := within_of_costs h

/-- A cost that is added up, and its bound. -/
theorem within_of_le {A : Code} {c d : Cost Jumps} (h : Within form cap A c)
    (hle : c.le allJumps d = true) : Within form cap A d :=
  h.mono ((Cost.le_iff mem_allJumps).mp hle)

/-! ## Who runs, and on what socket -/

variable (cap)

theorem within_emitSelfBypassPolicy (policy : Policy) :
    Within form cap (emitSelfBypassPolicy policy) (cost 4 [(.bypass, 1, 1)] []) := by
  rw [emitSelfBypassPolicy, emitSelfGidBypassCheck]
  split <;> exact within_of_costs rfl

theorem within_emitExplicitNetworkBypass (present : MapId → Bool) :
    Within form cap (emitExplicitNetworkBypass present)
      (cost 22 [(.skip, 4, 0), (.bypass, 1, 1)] []) := by
  rw [emitExplicitNetworkBypass]
  split <;> exact within_of_costs rfl

theorem within_emitSocketShapeBypass (attach : AttachType) (present : MapId → Bool) :
    Within form cap (emitSocketShapeBypass attach present)
      (cost 29 [(.skip, 4, 0), (.bypass, 3, 3), (.noSock, 1, 0), (.unbound, 1, 0)] []) := by
  have hnetwork := within_emitExplicitNetworkBypass cap present
  rw [emitSocketShapeBypass]
  exact within_of_le (Within.ite (within_part 2 [(.bypass, 1, 1)] [] (by rfl)) .nil
    |>.append (within_part 5 [(.bypass, 1, 1), (.noSock, 1, 0), (.unbound, 1, 0)] [] (by rfl))
    |>.append hnetwork) rfl

theorem within_emitUidMapPolicy (mode : Mode) :
    Within form cap (emitUidMapPolicy mode)
      (cost 15 [(.bypass, 2, 2), (.uidNotFound, 1, 0)] []) := by
  cases mode <;> exact within_of_costs rfl

theorem within_emitUidPolicy (policy : Policy) (present : MapId → Bool) :
    Within form cap (emitUidPolicy policy present)
      (cost 33 [(.bypass, 18, 18), (.uidNotFound, 1, 0), (.drop, 1, 1)] []) := by
  -- at most 16 jumps for the inline UIDs
  have hinline : Within form cap
      ((policy.bypassUids.take maxInlineBypassUids).map fun uid => jeqImm .r7 uid .bypass)
      (.jumps 16 .bypass) :=
    .jumps _ (fun uid => Cond.jeq .r7 (.imm uid)) Jumps.bypass (List.length_take_le 16 _)
  have hmap : Within form cap
      (if !present .uid then if policy.mode ≠ .global then [ja .drop] else []
        else emitUidMapPolicy policy.mode)
      (cost 15 [(.bypass, 2, 2), (.uidNotFound, 1, 0), (.drop, 1, 1)] []) := by
    split
    · split <;> exact within_of_costs rfl
    · exact within_of_le (within_emitUidMapPolicy cap policy.mode) rfl
  rw [emitUidPolicy]
  split
  · exact within_of_costs rfl
  · exact within_of_le (within_part 2 [] [] (by rfl)
      |>.append hinline
      |>.append hmap) rfl

theorem within_emitTcpDnsForcedBypass (policy : Policy) (present : MapId → Bool) (protocol : Word)
    (protocolFromContext : Bool) :
    Within form cap (emitTcpDnsForcedBypass policy present protocol protocolFromContext)
      (cost 35 [(.bypass, 18, 18), (.uidNotFound, 1, 0), (.drop, 1, 1), (.skip, 1, 0)] []) := by
  have huid := within_emitUidPolicy cap { policy with mode := .global } present
  rw [emitTcpDnsForcedBypass]
  split
  · exact within_of_costs rfl
  split
  · exact within_of_le (within_part 2 [(.skip, 1, 1)] [] (by rfl)
      |>.append huid
      |>.append (within_part 0 [] [.skip] (by rfl))) rfl
  split
  · exact within_of_costs rfl
  · exact within_of_le huid rfl

theorem within_emitHead (policy : Policy) (present : MapId → Bool) (protocol : Word)
    (protocolFromContext : Bool) (attach : AttachType) :
    Within form cap (emitHead policy present protocol protocolFromContext attach)
      (cost 69 [(.bypass, 22, 22), (.drop, 1, 1), (.skip, 4, 0), (.noSock, 1, 0), (.unbound, 1, 0),
        (.uidNotFound, 1, 0)] []) := by
  have hself := within_emitSelfBypassPolicy cap policy
  have hshape := within_emitSocketShapeBypass cap attach present
  have hdns := within_emitTcpDnsForcedBypass cap policy present protocol protocolFromContext
  exact within_of_le (within_part 1 [] [] (by rfl)
    |>.append hself
    |>.append hshape
    |>.append hdns) rfl

/-! ## DNS and IPsec -/

theorem within_emitIpv4DnsForceProxyPolicy (policy : Policy) (protocol : Word)
    (protocolFromContext : Bool) :
    Within form cap (emitIpv4DnsForceProxyPolicy policy protocol protocolFromContext)
      (cost 13 [(.bypass, 1, 1), (.forceProxy, 2, 2), (.noSock, 1, 0), (.notDns, 1, 0),
        (.tcpDns, 1, 0), (.notDnsProtocol, 1, 0)] []) := by
  rw [emitIpv4DnsForceProxyPolicy]
  split
  · exact within_of_costs rfl
  split
  · exact within_of_costs rfl
  rw [emitLegacyDns]
  split
  · exact within_of_costs rfl
  · split <;> exact within_of_costs rfl

theorem within_emitIpv6DnsForceProxyPolicy (policy : Policy) (protocol : Word)
    (protocolFromContext : Bool) :
    Within form cap (emitIpv6DnsForceProxyPolicy policy protocol protocolFromContext)
      (cost 15 [(.bypass, 1, 1), (.forceProxy, 2, 2), (.noSock, 1, 0), (.notDns, 1, 0),
        (.tcpDns, 1, 0), (.notDnsProtocol, 1, 0)] []) := by
  rw [emitIpv6DnsForceProxyPolicy]
  split
  · exact within_of_costs rfl
  split
  · exact within_of_costs rfl
  rw [emitLegacyDns]
  split
  · exact within_of_costs rfl
  · split <;> exact within_of_costs rfl

theorem within_emitConnectedUdpDnsContinue (policy : Policy) (portReg : Reg) :
    Within form cap (emitConnectedUdpDnsContinue policy portReg)
      (cost 2 [(.notDns, 1, 0), (.dnsContinue, 1, 1)] []) := by
  rw [emitConnectedUdpDnsContinue]
  split <;> exact within_of_costs rfl

theorem within_emitIpsecUdpBypass (protocol : Word) (protocolFromContext : Bool) (portReg : Reg) :
    Within form cap (emitIpsecUdpBypass protocol protocolFromContext portReg)
      (cost 4 [(.bypass, 2, 2), (.notUdp, 1, 0)] []) := by
  rw [emitIpsecUdpBypass]
  split
  · exact within_of_costs rfl
  · split <;> exact within_of_costs rfl

theorem within_emitEnhancedDns (policy : Policy) (portReg : Reg) :
    Within form cap (emitEnhancedDns policy portReg) (cost 1 [(.forceProxy, 1, 1)] []) := by
  rw [emitEnhancedDns]
  split <;> exact within_of_costs rfl

/-! ## The peer cache -/

theorem within_emitUdpPeerCacheUpdate4 (present : MapId → Bool) (addressOff : Int) :
    Within form cap (emitUdpPeerCacheUpdate4 present addressOff) (cost 30 [(.bypass, 3, 3)] []) := by
  rw [emitUdpPeerCacheUpdate4]
  split <;> exact within_of_costs rfl

theorem within_emitUdpPeerCacheUpdateV6 (present : MapId → Bool) :
    Within form cap (emitUdpPeerCacheUpdateV6 present) (cost 42 [(.bypass, 3, 3)] []) := by
  rw [emitUdpPeerCacheUpdateV6]
  split <;> exact within_of_costs rfl

theorem within_emitUdpPeerCacheRestoreV4 (present : MapId → Bool) :
    Within form cap (emitUdpPeerCacheRestoreV4 present)
      (cost 23 [(.missingIp, 1, 0), (.hasCompletePeer, 1, 0), (.noCookie, 1, 0), (.noPeer, 1, 0),
        (.wrongFamily, 1, 0), (.wrongProto, 1, 0)] []) := by
  rw [emitUdpPeerCacheRestoreV4]
  split <;> exact within_of_costs rfl

theorem within_emitUdpPeerCacheRestoreV6 (present : MapId → Bool) :
    Within form cap (emitUdpPeerCacheRestoreV6 present)
      (cost 36 [(.missingAddr, 1, 0), (.hasCompletePeer, 1, 0), (.noCookie, 1, 0), (.noPeer, 1, 0),
        (.wrongFamily, 1, 0), (.wrongProto, 1, 0), (.restoredPeer, 1, 0)] []) := by
  rw [emitUdpPeerCacheRestoreV6]
  split <;> exact within_of_costs rfl

theorem within_emitTcpPeerRecord (present : MapId → Bool) :
    Within form cap (emitTcpPeerRecord present)
      (cost 37 [(.notTcp, 1, 0), (.noCookie, 1, 0)] []) := by
  rw [emitTcpPeerRecord]
  split <;> exact within_of_costs rfl

/-! ## Destinations -/

/-- A lookup of `emit_ipv4_policy_checks_from_regs` or `emit_ipv6_policy_checks`: one jump. -/
theorem within_bypassCidr4 (present : MapId → Bool) (m : MapId) :
    Within form cap (emitCidr4Check present m .bypass) (cost 8 [(.bypass, 1, 1)] []) := by
  rw [emitCidr4Check]
  split <;> exact within_of_costs rfl

@[inherit_doc within_bypassCidr4]
theorem within_proxyCidr4 (present : MapId → Bool) (m : MapId) :
    Within form cap (emitCidr4Check present m .forceProxy) (cost 8 [(.forceProxy, 1, 1)] []) := by
  rw [emitCidr4Check]
  split <;> exact within_of_costs rfl

@[inherit_doc within_bypassCidr4]
theorem within_bypassCidr6 (present : MapId → Bool) (m : MapId) :
    Within form cap (emitCidr6Check present m .bypass) (cost 6 [(.bypass, 1, 1)] []) := by
  rw [emitCidr6Check]
  split <;> exact within_of_costs rfl

@[inherit_doc within_bypassCidr4]
theorem within_proxyCidr6 (present : MapId → Bool) (m : MapId) :
    Within form cap (emitCidr6Check present m .forceProxy) (cost 6 [(.forceProxy, 1, 1)] []) := by
  rw [emitCidr6Check]
  split <;> exact within_of_costs rfl

theorem within_emitIgnoredIfindexCheck (present : MapId → Bool) :
    Within form cap (emitIgnoredIfindexCheck present)
      (cost 11 [(.bypass, 1, 1), (.noSock, 1, 0), (.noBoundIf, 1, 0)] []) := by
  rw [emitIgnoredIfindexCheck]
  split <;> exact within_of_costs rfl

theorem within_emitIpv4PolicyChecks (present : MapId → Bool) :
    Within form cap (emitIpv4PolicyChecks present)
      (cost 56 [(.bypass, 7, 7), (.forceProxy, 1, 1), (.noSock, 1, 0), (.noBoundIf, 1, 0)] []) := by
  have hlocal := within_bypassCidr4 cap present .localInterfaceCidr4
  have hproxy := within_proxyCidr4 cap present .proxyCidr4
  have hprivate := within_bypassCidr4 cap present .bypassPrivateCidr4
  have hroute := within_bypassCidr4 cap present .ignoredRouteCidr4
  have hdirect := within_bypassCidr4 cap present .directCidr4
  exact within_of_le (within_part 5 [(.bypass, 2, 2)] [] (by rfl)
    |>.append hlocal
    |>.append hproxy
    |>.append hprivate
    |>.append (within_emitIgnoredIfindexCheck cap present)
    |>.append hroute
    |>.append hdirect) rfl

theorem within_emitIpv6PolicyChecks (present : MapId → Bool) :
    Within form cap (emitIpv6PolicyChecks present)
      (cost 59 [(.bypass, 7, 7), (.forceProxy, 1, 1), (.notZeroOrLoopback, 1, 0), (.noSock, 1, 0),
        (.noBoundIf, 1, 0)] []) := by
  have hlocal := within_bypassCidr6 cap present .localInterfaceCidr6
  have hproxy := within_proxyCidr6 cap present .proxyCidr6
  have hprivate := within_bypassCidr6 cap present .bypassPrivateCidr6
  have hroute := within_bypassCidr6 cap present .ignoredRouteCidr6
  have hdirect := within_bypassCidr6 cap present .directCidr6
  exact within_of_le (within_part 8 [(.bypass, 2, 2), (.notZeroOrLoopback, 1, 0)] [] (by rfl)
    |>.append (.ite (within_part 10 [] [] (by rfl)) .nil)
    |>.append hlocal
    |>.append hproxy
    |>.append hprivate
    |>.append (within_emitIgnoredIfindexCheck cap present)
    |>.append hroute
    |>.append hdirect) rfl

/-! ## Tokens -/

theorem within_emitPublishToken (flowToken ipv6 : Bool) :
    Within form cap (emitPublishToken flowToken ipv6)
      (cost 49 [(.drop, 1, 1), (.missing, 1, 0), (.done, 2, 0), (.collision, 6, 0)] []) := by
  cases flowToken <;> cases ipv6 <;> exact within_of_costs rfl

theorem within_emitProtocol (protocol : Word) (protocolFromContext : Bool) :
    Within form cap (emitProtocol protocol protocolFromContext) (cost 4 [(.notUdp, 1, 0)] []) := by
  rw [emitProtocol]
  split <;> exact within_of_costs rfl

theorem within_emitConnectedUdpOriginalFlag (protocolFromContext : Bool) :
    Within form cap (emitConnectedUdpOriginalFlag protocolFromContext)
      (cost 3 [(.notUdp, 1, 0)] []) := by
  rw [emitConnectedUdpOriginalFlag]
  split <;> exact within_of_costs rfl

theorem within_emitCtxSt32 (off : Int) (imm : Word) :
    Within form cap (emitCtxSt32 off imm) (cost 2 [] []) := within_of_costs rfl

theorem within_emitToken4 (protocol : Word) (protocolFromContext : Bool) (bridgePort : BitVec 16)
    (flowToken : Bool) :
    Within form cap (emitToken4 protocol protocolFromContext bridgePort flowToken)
      (cost 96 [(.notUdp, 1, 0), (.drop, 1, 1), (.missing, 1, 0), (.done, 2, 0), (.collision, 6, 0)]
        []) := by
  have hprotocol := within_emitProtocol cap protocol protocolFromContext
  have hflag := within_emitConnectedUdpOriginalFlag cap protocolFromContext
  have hpublish := within_emitPublishToken cap flowToken false
  rw [emitToken4]
  exact within_of_le (Within.ite (within_part 15 [] [] (by rfl)) (within_part 5 [] [] (by rfl))
    |>.append hprotocol
    |>.append (within_part 10 [] [] (by rfl))
    |>.append (within_part 6 [] [] (by rfl))
    |>.append (within_part 9 [] [] (by rfl))
    |>.append hflag
    |>.append hpublish) rfl

theorem within_emitTokenUpdateAndRewrite (protocol : Word) (protocolFromContext : Bool)
    (bridgePort : BitVec 16) (flowToken : Bool) :
    Within form cap (emitTokenUpdateAndRewrite protocol protocolFromContext bridgePort flowToken)
      (cost 99 [(.notUdp, 1, 0), (.drop, 1, 1), (.missing, 1, 0), (.done, 2, 0), (.collision, 6, 0)]
        []) := by
  have htoken := within_emitToken4 cap protocol protocolFromContext bridgePort flowToken
  rw [emitTokenUpdateAndRewrite]
  exact within_of_le (htoken
    |>.append (within_part 1 [] [] (by rfl))
    |>.append (within_emitCtxSt32 cap _ _)) rfl

theorem within_emitIpv4MappedTokenUpdateAndRewrite (protocol : Word) (protocolFromContext : Bool)
    (bridgePort : BitVec 16) (flowToken : Bool) :
    Within form cap
      (emitIpv4MappedTokenUpdateAndRewrite protocol protocolFromContext bridgePort flowToken)
      (cost 105 [(.notUdp, 1, 0), (.drop, 1, 1), (.missing, 1, 0), (.done, 2, 0), (.collision, 6, 0)]
        []) := by
  have htoken := within_emitToken4 cap protocol protocolFromContext bridgePort flowToken
  rw [emitIpv4MappedTokenUpdateAndRewrite]
  exact within_of_le (htoken
    |>.append (within_emitCtxSt32 cap _ _)
    |>.append (within_emitCtxSt32 cap _ _)
    |>.append (within_emitCtxSt32 cap _ _)
    |>.append (within_part 1 [] [] (by rfl))
    |>.append (within_emitCtxSt32 cap _ _)) rfl

theorem within_emitTokenUpdateAndRewriteV6 (config : Config) (protocol : Word)
    (protocolFromContext : Bool) (bridgePort : BitVec 16) (flowToken : Bool) :
    Within form cap
      (emitTokenUpdateAndRewriteV6 config protocol protocolFromContext bridgePort flowToken)
      (cost 130 [(.notUdp, 1, 0), (.drop, 1, 1), (.missing, 1, 0), (.done, 2, 0), (.collision, 6, 0)]
        []) := by
  have hwords : Within form cap (emitTokenWordsV6 flowToken) (cost 27 [] []) := by
    cases flowToken <;> exact within_of_costs rfl
  have hprotocol := within_emitProtocol cap protocol protocolFromContext
  have hflag := within_emitConnectedUdpOriginalFlag cap protocolFromContext
  have hpublish := within_emitPublishToken cap flowToken true
  rw [emitTokenUpdateAndRewriteV6]
  exact within_of_le (within_part 4 [] [] (by rfl)
    |>.append hwords
    |>.append hprotocol
    |>.append (within_part 10 [] [] (by rfl))
    |>.append (within_part 6 [] [] (by rfl))
    |>.append (within_part 19 [] [] (by rfl))
    |>.append hflag
    |>.append hpublish
    |>.append (within_emitCtxSt32 cap _ _)
    |>.append (within_emitCtxSt32 cap _ _)
    |>.append (within_part 2 [] [] (by rfl))
    |>.append (within_emitCtxSt32 cap _ _)) rfl

/-! ## IPv4 destinations of IPv6 sockets -/

theorem within_emitIpv4MappedPolicyAndToken (policy : Policy) (present : MapId → Bool)
    (protocol : Word) (protocolFromContext : Bool) (bridgePort : BitVec 16) (flowToken : Bool) :
    Within form cap
      (emitIpv4MappedPolicyAndToken policy present protocol protocolFromContext bridgePort flowToken)
      (cost 215 [(.bypass, 26, 26), (.drop, 2, 2), (.forceProxy, 4, 0), (.allow, 1, 1),
        (.noSock, 1, 0), (.uidNotFound, 1, 0), (.notDns, 1, 0), (.tcpDns, 1, 0),
        (.notDnsProtocol, 1, 0), (.notUdp, 1, 0), (.noBoundIf, 1, 0), (.missing, 1, 0),
        (.done, 2, 0), (.collision, 6, 0)] []) := by
  have hdns := within_emitIpv4DnsForceProxyPolicy cap policy protocol protocolFromContext
  have huid := within_emitUidPolicy cap policy present
  have henhanced := within_emitEnhancedDns cap policy .r8
  have hchecks := within_emitIpv4PolicyChecks cap present
  have htoken := within_emitIpv4MappedTokenUpdateAndRewrite cap protocol protocolFromContext
    bridgePort flowToken
  rw [emitIpv4MappedPolicyAndToken]
  exact within_of_le (within_part 2 [] [] (by rfl)
    |>.append hdns
    |>.append huid
    |>.append (within_part 2 [] [] (by rfl))
    |>.append henhanced
    |>.append hchecks
    |>.append (within_part 2 [] [.forceProxy] (by rfl))
    |>.append htoken
    |>.append (within_part 1 [(.allow, 1, 1)] [] (by rfl))) rfl

/-- What the branch costs. -/
def branchCost : Cost Jumps :=
  cost 259 [(.bypass, 29, 29), (.drop, 2, 2), (.forceProxy, 4, 0), (.allow, 1, 1), (.noSock, 1, 0),
    (.uidNotFound, 1, 0), (.notDns, 1, 0), (.tcpDns, 1, 0), (.notDnsProtocol, 1, 0), (.notUdp, 1, 0),
    (.noBoundIf, 1, 0), (.missing, 1, 0), (.done, 2, 0), (.collision, 6, 0), (.continue', 4, 0),
    (.mapped, 2, 0), (.missingIp, 1, 0), (.hasCompletePeer, 1, 0), (.noCookie, 1, 0), (.noPeer, 1, 0),
    (.wrongFamily, 1, 0), (.wrongProto, 1, 0), (.tcpConnect, 1, 0), (.tcpPolicy, 1, 0)] []

/-- The branch, or no code where the hook has none. -/
theorem within_emitIpv4MappedIpv6Branch (policy : Policy) (present : MapId → Bool)
    (protocol : Word) (protocolFromContext : Bool) (bridgePort : BitVec 16) (attach : AttachType) :
    Within form cap ((emitIpv4MappedIpv6Branch policy present protocol protocolFromContext bridgePort
        attach).getD [])
      branchCost := by
  have hrestore := within_emitUdpPeerCacheRestoreV4 cap present
  have hupdate := within_emitUdpPeerCacheUpdate4 cap present (Off.userIp6 + 12)
  have htail := within_emitIpv4MappedPolicyAndToken cap policy present protocol protocolFromContext
    bridgePort (flowTokenOf attach protocolFromContext)
    |>.append (within_part (A := [.label .continue']) 0 [] [.continue'] (by rfl))
  rw [emitIpv4MappedIpv6Branch]
  split
  · -- `udp6Sendmsg`: the peer cache may know an IPv4 destination
    exact within_of_le (within_part 7 [(.continue', 3, 3)] [] (by rfl)
      |>.append (within_part 3 [(.mapped, 1, 1)] [.continue'] (by rfl))
      |>.append (within_part 4 [] [] (by rfl))
      |>.append (within_part 3 [(.continue', 1, 1)] [] (by rfl))
      |>.append hrestore
      |>.append (within_part 3 [(.continue', 2, 2), (.mapped, 1, 0)] [.mapped] (by rfl))
      |>.append htail) rfl
  · split
    · exact within_of_le (within_part 4 [(.tcpConnect, 1, 0), (.continue', 1, 1)] [] (by rfl)
        |>.append (within_part 7 [(.continue', 3, 3)] [] (by rfl))
        |>.append (within_part 3 [(.tcpPolicy, 1, 1)] [] (by rfl))
        |>.append hupdate
        |>.append (within_part 0 [] [.tcpPolicy] (by rfl))
        |>.append htail) rfl
    · exact within_of_costs rfl

theorem within_emitConnectedUdpSendReuse (ipv6 isMapped : Bool) :
    Within form cap (emitConnectedUdpSendReuse ipv6 isMapped) (cost 65 [(.fallback, 12, 0)] []) := by
  cases ipv6 <;> cases isMapped <;> exact within_of_costs rfl

/-! ## The forward programs -/

theorem within_build4 (policy : Policy) (present : MapId → Bool) (protocol : Word)
    (protocolFromContext : Bool) (bridgePort : BitVec 16) (attach : AttachType) :
    Within form cap (build4 policy present protocol protocolFromContext bridgePort attach)
      forwardLimits.full := by
  have hhead := within_emitHead cap policy present protocol protocolFromContext attach
  have hreuse := within_emitConnectedUdpSendReuse cap false false
  have hipsec := within_emitIpsecUdpBypass cap protocol protocolFromContext .r8
  have hcontinue := within_emitConnectedUdpDnsContinue cap policy .r8
  have hupdate := within_emitUdpPeerCacheUpdate4 cap present Off.userIp4
  have hrestore := within_emitUdpPeerCacheRestoreV4 cap present
  have hdns := within_emitIpv4DnsForceProxyPolicy cap policy protocol protocolFromContext
  have huid := within_emitUidPolicy cap policy present
  have henhanced := within_emitEnhancedDns cap policy .r8
  have hchecks := within_emitIpv4PolicyChecks cap present
  have htoken := within_emitTokenUpdateAndRewrite cap protocol protocolFromContext bridgePort
    (flowTokenOf attach protocolFromContext)
  have hrecord := within_emitTcpPeerRecord cap present
  unfold build4
  exact within_of_le (hhead
    |>.append (.ite hreuse .nil)
    |>.append (within_part 2 [] [] (by rfl))
    |>.append hipsec
    |>.append (.ite (within_part 3 [(.tcpConnect, 1, 1), (.bypass, 1, 1)] [] (by rfl)
      |>.append hcontinue
      |>.append hupdate
      |>.append (within_part 0 [] [.dnsContinue, .tcpConnect] (by rfl))) .nil)
    |>.append (.ite hrestore .nil)
    |>.append hdns
    |>.append (within_part 2 [] [] (by rfl))
    |>.append huid
    |>.append (within_part 2 [] [] (by rfl))
    |>.append henhanced
    |>.append hchecks
    |>.append (within_part 0 [] [.forceProxy] (by rfl))
    |>.append htoken
    |>.append (.ite hrecord .nil)
    |>.append (within_part 4 [] [.bypass, .drop] (by rfl))) rfl

theorem within_emitPolicyV6 (policy : Policy) (present : MapId → Bool) :
    Within form cap (emitPolicyV6 policy present)
      (cost 98 [(.bypass, 25, 25), (.drop, 1, 1), (.forceProxy, 2, 2), (.noSock, 1, 0),
        (.uidNotFound, 1, 0), (.notZeroOrLoopback, 1, 0), (.noBoundIf, 1, 0)] []) := by
  have huid := within_emitUidPolicy cap policy present
  have henhanced := within_emitEnhancedDns cap policy .r5
  have hchecks := within_emitIpv6PolicyChecks cap present
  rw [emitPolicyV6]
  split
  · split
    · exact within_of_le (within_part 1 [(.bypass, 1, 1)] [] (by rfl)
        |>.append huid
        |>.append (within_part 1 [(.forceProxy, 1, 1)] [] (by rfl))) rfl
    · exact within_of_costs rfl
  · exact within_of_le (huid
      |>.append (within_part 5 [] [] (by rfl))
      |>.append henhanced
      |>.append hchecks) rfl

set_option maxRecDepth 2048 in
theorem within_build6 (policy : Policy) (config : Config) (present : MapId → Bool) (protocol : Word)
    (protocolFromContext : Bool) (bridgePort : BitVec 16) (attach : AttachType) :
    Within form cap (build6 policy config present protocol protocolFromContext bridgePort attach)
      forwardLimits.full := by
  have hhead := within_emitHead cap policy present protocol protocolFromContext attach
  have hmapped := within_emitConnectedUdpSendReuse cap true true
  have hnative := within_emitConnectedUdpSendReuse cap true false
  have hipsec := within_emitIpsecUdpBypass cap protocol protocolFromContext .r5
  have hbranch := within_emitIpv4MappedIpv6Branch cap policy present protocol protocolFromContext
    bridgePort attach
  have hcontinue := within_emitConnectedUdpDnsContinue cap policy .r5
  have hupdate := within_emitUdpPeerCacheUpdateV6 cap present
  have hrestore := within_emitUdpPeerCacheRestoreV6 cap present
  have hdns := within_emitIpv6DnsForceProxyPolicy cap policy protocol protocolFromContext
  have hpolicy := within_emitPolicyV6 cap policy present
  have htoken := within_emitTokenUpdateAndRewriteV6 cap config protocol protocolFromContext bridgePort
    (flowTokenOf attach protocolFromContext)
  have hrecord := within_emitTcpPeerRecord cap present
  unfold build6
  generalize emitIpv4MappedIpv6Branch policy present protocol protocolFromContext bridgePort attach
    = o at hbranch ⊢
  refine within_of_le (hhead
    |>.append (.ite (hmapped.append hnative) .nil)
    |>.append (within_part 5 [] [] (by rfl))
    |>.append hipsec
    |>.append (d := branchCost.seq (cost 5 [] [])) ?_
    |>.append (.ite (within_part 3 [(.tcpConnect, 1, 1), (.bypass, 1, 1)] [] (by rfl)
      |>.append hcontinue
      |>.append hupdate
      |>.append (within_part 5 [] [] (by rfl))
      |>.append (within_part 0 [] [.dnsContinue, .tcpConnect] (by rfl))) .nil)
    |>.append (.ite hrestore .nil)
    |>.append (within_part 5 [] [] (by rfl))
    |>.append hdns
    |>.append hpolicy
    |>.append (within_part 0 [] [.forceProxy] (by rfl))
    |>.append (within_part 5 [] [] (by rfl))
    |>.append htoken
    |>.append (within_part 0 [] [.allow] (by rfl))
    |>.append (.ite hrecord .nil)
    |>.append (within_part 4 [] [.bypass, .drop] (by rfl))) rfl
  -- the destination is loaded again where there is a branch
  cases o with
  | some branch => exact hbranch.append (within_of_costs rfl)
  | none => exact hbranch.append (within_of_costs (A := []) rfl)

theorem within_buildMapped6 (policy : Policy) (present : MapId → Bool) (protocol : Word)
    (protocolFromContext : Bool) (bridgePort : BitVec 16) (attach : AttachType) :
    Within form cap (buildMapped6 policy present protocol protocolFromContext bridgePort attach)
      forwardLimits.full := by
  have hhead := within_emitHead cap policy present protocol protocolFromContext attach
  have hreuse := within_emitConnectedUdpSendReuse cap true true
  have hipsec := within_emitIpsecUdpBypass cap protocol protocolFromContext .r5
  have hbranch := within_emitIpv4MappedIpv6Branch cap policy present protocol protocolFromContext
    bridgePort attach
  have hrecord := within_emitTcpPeerRecord cap present
  unfold buildMapped6
  exact within_of_le (hhead
    |>.append (.ite hreuse .nil)
    |>.append (within_part 5 [] [] (by rfl))
    |>.append hipsec
    |>.append hbranch
    |>.append (within_part 0 [] [.bypass] (by rfl))
    |>.append (within_part 2 [] [] (by rfl))
    |>.append (within_part 0 [] [.allow] (by rfl))
    |>.append (.ite hrecord .nil)
    |>.append (within_part 2 [] [] (by rfl))
    |>.append (within_part 0 [] [.drop] (by rfl))
    |>.append (within_part 2 [] [] (by rfl))) rfl

/-! ## The reverse programs -/

theorem within_buildReverse4 (tcpPeer : Bool) :
    Within form cap (buildReverse4 tcpPeer) reverseLimits.full := by
  cases tcpPeer <;> exact within_of_costs rfl

set_option maxRecDepth 2048 in
theorem within_buildReverse6 (tcpPeer : Bool) :
    Within form cap (buildReverse6 tcpPeer) reverseLimits.full := by
  cases tcpPeer <;> exact within_of_costs rfl

/-! ## Linking -/

/-- Built with fixed arrays, a script is what `build` makes of it: nothing is written outside them, no
instruction is dropped and no jump is left unpatched; and it is linked. -/
structure FitsAndLinks (lim : Limits Jumps) (script : Code) : Prop where
  fits : replay lim script = some ⟨(build script).map Cell.of, false, fun _ => []⟩
  links : Linked form ((build script).map Cell.of)

theorem FitsAndLinks.of_within {lim : Limits Jumps} (hb : lim.buffer ≤ 2 ^ 15) {script : Code}
    (h : Within form lim.list script lim.full) (hf : finishes form script = true) :
    FitsAndLinks lim script :=
  ⟨replay_tidy hb (h.tidy hf), linked_tidy hb (h.tidy hf)⟩

/-- **No program overflows the builder, and every jump of each is linked.** -/
theorem programs_fit_and_link (policy : Policy) (config : Config) (present : MapId → Bool)
    (protocol : Word) (protocolFromContext : Bool) (bridgePort : BitVec 16) (attach : AttachType)
    (tcpPeer : Bool) :
    FitsAndLinks forwardLimits
        (build4 policy present protocol protocolFromContext bridgePort attach) ∧
      FitsAndLinks forwardLimits
        (build6 policy config present protocol protocolFromContext bridgePort attach) ∧
      FitsAndLinks forwardLimits
        (buildMapped6 policy present protocol protocolFromContext bridgePort attach) ∧
      FitsAndLinks reverseLimits (buildReverse4 tcpPeer) ∧
      FitsAndLinks reverseLimits (buildReverse6 tcpPeer) := by
  have hbuffer : (1024 : Nat) ≤ 2 ^ 15 := by decide
  refine ⟨?_, ?_, ?_, ?_, ?_⟩
  · refine .of_within hbuffer (within_build4 _ policy present _ _ _ attach) ?_
    unfold build4
    exact finishes_append rfl
  · refine .of_within hbuffer (within_build6 _ policy config present _ _ _ attach) ?_
    unfold build6
    exact finishes_append rfl
  · refine .of_within hbuffer (within_buildMapped6 _ policy present _ _ _ attach) ?_
    unfold buildMapped6
    exact finishes_append rfl
  · refine .of_within hbuffer (within_buildReverse4 _ tcpPeer) ?_
    exact finishes_append rfl
  · refine .of_within hbuffer (within_buildReverse6 _ tcpPeer) ?_
    exact finishes_append rfl

end Bpf2Socks.Cgroup
