/-
# Bpf2Socks.Cgroup.Destinations — the blocks that look at the destination.

IKE, DNS, the zero and loopback addresses and the CIDR lists of IPv4: each block takes its place of
the ordered list when the destination is in the registers the programs keep it in.
-/
import Bpf2Socks.Cgroup.Blocks

namespace Bpf2Socks.Cgroup

open Lib (Line Outcome)
open Lib.Asm (Ends Halts Takes andThen branch labels onward run run_append)

/-- Everything but the scratch registers. -/
abbrev kept : List Reg := [.r6, .r7, .r8, .r9, .r10]

/-- The same, where no helper is called. -/
abbrev keptAll : List Reg := [.r4, .r5, .r6, .r7, .r8, .r9, .r10]

/-! ## Ports -/

section Ports

variable {env : Env} {policy : Policy} {s : State} {port : BitVec 16}

/-- IKE. -/
theorem decides_emitIpsecUdpBypass (hook : Hook) {r : Reg} (hr : r ≠ .r2) (hs : Ready s)
    (hport : s.reg r = half port) :
    Decides env (emitIpsecUdpBypass hook.protocol hook.fromContext r) s
      (ipsecBypass hook s.ctx port) keptAll := by
  unfold Decides Takes
  cases hook with
  | connect =>
      by_cases ht : s.ctx.type = sockDgram <;> by_cases hi : port = swap16 ikePort <;>
      by_cases hn : port = swap16 natTPort <;>
        simp [emitIpsecUdpBypass, Hook.fromContext, hs.r6, hport, hr, ht, hi, hn, ipsecBypass, choose]
  | sendmsg =>
      by_cases hi : port = swap16 ikePort <;> by_cases hn : port = swap16 natTPort <;>
        simp [emitIpsecUdpBypass, Hook.fromContext, Hook.protocol, hport, hi, hn,
          ipsecBypass, choose]

theorem Context.mark_of_sk {c : Context} {k : Sock} (hk : c.sk = some k) : c.mark = k.mark := by
  rw [Context.mark, hk]
  rfl

/-- Marked DNS. -/
theorem decides_emitDnsEnhancementPolicy {r : Reg} (hs : Ready s)
    (hport : s.reg r = half port) :
    Decides env (emitDnsEnhancementPolicy r) s (markedDns s.ctx (Who.compared policy env) port)
      kept := by
  have huid : (Who.compared policy env).uid = env.uid := rfl
  have hdiff : dnsDirectMark ≠ dnsProxyDecision := by decide
  unfold Decides Takes
  by_cases hp : port = swap16 dnsPort
  · rcases hk : s.ctx.sk with _ | k
    · have hmark : s.ctx.mark &&& dnsMarkMask = 0#32 := by simp [Context.mark, hk]
      have h0 : ¬0#32 = dnsDirectMark ∧ ¬0#32 = dnsProxyDecision := by decide
      by_cases ht : s.ctx.protocol = protoTcp <;> by_cases hu : s.ctx.protocol = protoUdp <;>
      by_cases hd : env.uid = dnsTetherUid <;>
        simp [emitDnsEnhancementPolicy, hs.r6, hport, hp, hk, ht, hu, hd, markedDns, choose, hmark,
          huid, h0]
    · have hmark : s.ctx.mark &&& dnsMarkMask = k.mark &&& dnsMarkMask := by
        rw [Context.mark_of_sk hk]
      by_cases h1 : k.mark &&& dnsMarkMask = dnsDirectMark
      · simp [emitDnsEnhancementPolicy, hs.r6, hport, hp, hk, load_sock, Alu.apply, markedDns, choose,
          hmark, h1]
      · by_cases h2 : k.mark &&& dnsMarkMask = dnsProxyDecision
        · simp [emitDnsEnhancementPolicy, hs.r6, hport, hp, hk, load_sock, Alu.apply, markedDns,
            choose, hmark, h2, hdiff.symm]
        · by_cases ht : s.ctx.protocol = protoTcp <;> by_cases hu : s.ctx.protocol = protoUdp <;>
          by_cases hd : env.uid = dnsTetherUid <;>
            simp [emitDnsEnhancementPolicy, hs.r6, hport, hp, hk, load_sock, Alu.apply, ht, hu, hd,
              markedDns, choose, hmark, h1, h2, huid]
  · simp [emitDnsEnhancementPolicy, hport, hp, markedDns]

/-- Hijacked DNS. -/
theorem decides_emitLegacyDns (hook : Hook) {r : Reg} (hr : r ≠ .r2) (hs : Ready s)
    (hport : s.reg r = half port) :
    Decides env (emitLegacyDns r hook.protocol hook.fromContext) s (hijackedDns hook s.ctx port)
      keptAll := by
  unfold Decides Takes
  cases hook with
  | connect =>
      by_cases ht : s.ctx.type = sockStream <;> by_cases hd : s.ctx.type = sockDgram <;>
      by_cases hp : port = swap16 dnsPort <;>
        simp [emitLegacyDns, Hook.fromContext, hs.r6, hport, hr, ht, hd, hp, hijackedDns, choose]
  | sendmsg =>
      by_cases hp : port = swap16 dnsPort <;>
        simp [emitLegacyDns, Hook.fromContext, Hook.protocol, hport, hp, hijackedDns, choose]

/-- DNS that the user policy let through. -/
theorem decides_emitEnhancedDns {r : Reg} (hport : s.reg r = half port) :
    Decides env (emitEnhancedDns policy r) s (enhancedDns policy port) keptAll := by
  unfold Decides Takes
  by_cases hh : policy.enableDnsHijack <;> by_cases he : policy.enableDnsEnhancement <;>
  by_cases hp : port = swap16 dnsPort <;>
    simp [emitEnhancedDns, hport, hh, he, hp, enhancedDns, choose]

/-- **DNS**, on an IPv4 destination. -/
theorem decides_emitIpv4DnsForceProxyPolicy (hook : Hook) (hs : Ready s)
    (hport : s.reg .r8 = half port) :
    Decides env (emitIpv4DnsForceProxyPolicy policy hook.protocol hook.fromContext) s
      (dnsPolicy policy hook s.ctx (Who.compared policy env) port) kept := by
  rw [emitIpv4DnsForceProxyPolicy, dnsPolicy]
  split
  · exact Decides.nil
  · split
    · exact decides_emitDnsEnhancementPolicy hs hport
    · exact (decides_emitLegacyDns hook (by decide) hs hport).mono (by decide)

end Ports

/-! ## The CIDR lists -/

section Lists

variable {env : Env} {present : MapId → Bool} {s : State} {addr : Word}

/-- One list of IPv4. -/
theorem decides_emitCidr4Check (m : MapId) (hm : m.keySize = 8) (v : Verdict) (hs : Ready s)
    (h7 : s.reg .r7 = word addr) :
    Decides env (emitCidr4Check present m v.jumps) s
      (choose (covers present s.maps m (lpm4Key addr)) v) kept := by
  have hkey : readAt (writeAt (writeAt s.stack (-16) (leBytes 4 (32#32))) (-12) (leBytes 4 addr))
      (-16) m.keySize = lpm4Key addr := by
    rw [hm, show (8 : Nat) = 4 + 4 from rfl, readAt_add, lpm4Key]
    rw [readAt_writeAt_of_disjoint _ (by simp), readAt_writeAt_self _ _ (by simp)]
    rw [show (-16 : Int) + (4 : Nat) = -12 from rfl, readAt_writeAt_self _ _ (by simp)]
    rfl
  unfold Decides Takes
  by_cases hp : present m
  · rcases hf : s.maps.found m (lpm4Key addr) with _ | _ <;>
      simp [emitCidr4Check, hp, hs.r10, h7, run_emitLookup, Stack.lpm4Key, hkey, hf, choose, covers]
  · simp [emitCidr4Check, hp, choose, covers]

theorem Context.boundDevIf_of_sk {c : Context} {k : Sock} (hk : c.sk = some k) :
    c.boundDevIf = k.boundDevIf := by
  rw [Context.boundDevIf, hk]
  rfl

/-- Interfaces to be ignored. -/
theorem decides_emitIgnoredIfindexCheck (hs : Ready s) :
    Decides env (emitIgnoredIfindexCheck present) s (ignoredInterface present s.maps s.ctx) kept := by
  unfold Decides Takes
  by_cases hp : present .ignoredIfindex
  · rcases hk : s.ctx.sk with _ | k
    · simp [emitIgnoredIfindexCheck, hp, hs.r6, hk, ignoredInterface, choose, Context.boundDevIf]
    · have hkey : readAt (writeAt s.stack (-8) (leBytes 4 k.boundDevIf)) (-8)
          MapId.ignoredIfindex.keySize = leBytes 4 k.boundDevIf :=
        readAt_writeAt_self _ _ (by simp [MapId.keySize])
      by_cases h0 : k.boundDevIf = 0#32
      · simp [emitIgnoredIfindexCheck, hp, hs.r6, hk, load_sock, ignoredInterface, choose,
          Context.boundDevIf_of_sk hk, h0]
      · rcases hf : s.maps.found .ignoredIfindex (leBytes 4 k.boundDevIf) with _ | _ <;>
          simp [emitIgnoredIfindexCheck, hp, hs.r6, hs.r10, hk, load_sock, ignoredInterface, choose,
            Context.boundDevIf_of_sk hk, h0, run_emitLookup, Stack.ifindexKey, hkey, hf, covers]
  · simp [emitIgnoredIfindexCheck, hp, ignoredInterface, choose, covers]

/-- Zero and `127.0.0.0/8`. -/
theorem decides_zeroOrLoopback4 (h7 : s.reg .r7 = word addr) :
    Decides env [jeqImm .r7 0 .bypass, mov64Reg .r2 .r7, endianOp .r2 32,
      alu64Imm .and .r2 0xff000000, jeqImm .r2 0x7f000000 .bypass] s (zeroOrLoopback4 addr) kept := by
  have himm : immVal 0x7f000000#32 = word 0x7f000000#32 := rfl
  unfold Decides Takes
  by_cases h0 : addr = 0#32
  · simp [h7, h0, zeroOrLoopback4, choose]
  · by_cases h1 : swap32 addr &&& 0xff000000#32 = 0x7f000000#32 <;>
      simp [h7, h0, h1, himm, zeroOrLoopback4, choose]

theorem open_emitCidr4Check (m : MapId) (l : Jumps) : Open (emitCidr4Check present m l) := by
  intro v
  rw [emitCidr4Check]
  split <;> simp [labels, emitLookup, emitLdMapFd, emitStackPointer]

theorem open_emitIgnoredIfindexCheck : Open (emitIgnoredIfindexCheck present) := by
  intro v
  rw [emitIgnoredIfindexCheck]
  split <;> cases v <;> simp [labels, emitLookup, emitLdMapFd, emitStackPointer]

/-- What the IPv4 checks work on. -/
structure Checking4 (addr : Word) (maps : Maps) (c : Context) (s : State) : Prop where
  ready : Ready s
  r7 : s.reg .r7 = word addr
  maps : s.maps = maps
  ctx : s.ctx = c

theorem Checking4.of_keeps {maps : Maps} {c : Context} (s s' : State)
    (h : Checking4 addr maps c s) (hk : Keeps kept s s') : Checking4 addr maps c s' :=
  ⟨h.ready.of_keeps hk (by simp) (by simp), (hk.reg _ (by simp)).trans h.r7, hk.maps.trans h.maps,
    hk.ctx.trans h.ctx⟩

/-- One list among the others. -/
theorem stably_emitCidr4Check (present : MapId → Bool) {maps : Maps} {c : Context} (m : MapId) (hm : m.keySize = 8)
    (v : Verdict) :
    Stably env (Checking4 addr maps c) kept (emitCidr4Check present m v.jumps)
      (choose (covers present maps m (lpm4Key addr)) v) := by
  refine .of_decides Checking4.of_keeps (open_emitCidr4Check m v.jumps) fun s h => ?_
  rw [← h.maps]
  exact decides_emitCidr4Check m hm v h.ready h.r7

/-- **The IPv4 policy checks.** -/
theorem decides_emitIpv4PolicyChecks (hs : Ready s) (h7 : s.reg .r7 = word addr) :
    Decides env (emitIpv4PolicyChecks present) s
      ((zeroOrLoopback4 addr).or (cidr4 present s.maps s.ctx addr)) kept := by
  have hzero : Stably env (Checking4 addr s.maps s.ctx) kept [jeqImm .r7 0 .bypass,
      mov64Reg .r2 .r7, endianOp .r2 32, alu64Imm .and .r2 0xff000000, jeqImm .r2 0x7f000000 .bypass]
      (zeroOrLoopback4 addr) :=
    .of_decides Checking4.of_keeps (fun v => by simp [labels]) fun s h => decides_zeroOrLoopback4 h.r7
  have hinterface : Stably env (Checking4 addr s.maps s.ctx) kept (emitIgnoredIfindexCheck present)
      (ignoredInterface present s.maps s.ctx) := by
    refine .of_decides Checking4.of_keeps open_emitIgnoredIfindexCheck fun s' h => ?_
    rw [← h.maps, ← h.ctx]
    exact decides_emitIgnoredIfindexCheck h.ready
  have hall := hzero.append ((stably_emitCidr4Check present .localInterfaceCidr4 rfl .bypass).append
    ((stably_emitCidr4Check present .proxyCidr4 rfl .proxy).append
    ((stably_emitCidr4Check present .bypassPrivateCidr4 rfl .bypass).append (hinterface.append
    ((stably_emitCidr4Check present .ignoredRouteCidr4 rfl .bypass).append
    (stably_emitCidr4Check present .directCidr4 rfl .bypass))))))
  simp only [emitIpv4PolicyChecks, List.append_assoc]
  exact Takes.mono (hall.takes s ⟨hs, h7, rfl, rfl⟩) fun s' h => h.1

end Lists

end Bpf2Socks.Cgroup
